import Mathlib.Data.List.Basic
import Mathlib.Algebra.Group.Nat.Defs

/-!
# Internet addresses

`Ipv4Addr`, `Ipv6Addr` and `IpAddr` of the standard library, and `is_private_ip`
(`crates/shared/types/src/network.rs`), the test behind every guard against requests to
internal hosts.

The test is written address family by address family on octets and segments.  Its meaning
for IPv4 is a list of *blocks*, in the notation `10.0.0.0/8` of the source's comments
(`isPrivateIp_v4`).  An IPv4 address also has an IPv6 form `::ffff:a.b.c.d`, which reaches the
same host: `isPrivateIp_toIpv6Mapped` says that the test never holds of that form.
-/

namespace Uptrakit.Net

/-! ## Addresses -/

/-- `std::net::Ipv4Addr`: the four octets. -/
structure Ipv4Addr where
  a : UInt8
  b : UInt8
  c : UInt8
  d : UInt8
  deriving DecidableEq

/-- `std::net::Ipv6Addr`: the eight segments. -/
structure Ipv6Addr where
  s0 : UInt16
  s1 : UInt16
  s2 : UInt16
  s3 : UInt16
  s4 : UInt16
  s5 : UInt16
  s6 : UInt16
  s7 : UInt16
  deriving DecidableEq

/-- `std::net::IpAddr`. -/
inductive IpAddr
  | v4 (addr : Ipv4Addr)
  | v6 (addr : Ipv6Addr)
  deriving DecidableEq

/-- `u16::from_be_bytes`. -/
def fromBeBytes (hi lo : UInt8) : UInt16 := UInt16.ofNat (hi.toNat * 256 + lo.toNat)

namespace Ipv4Addr

/-- `Ipv4Addr::is_private`. -/
def isPrivate (v4 : Ipv4Addr) : Bool :=
  v4.a == 10 || (v4.a == 172 && (16 ≤ v4.b && v4.b ≤ 31)) || (v4.a == 192 && v4.b == 168)

/-- `Ipv4Addr::is_loopback`. -/
def isLoopback (v4 : Ipv4Addr) : Bool := v4.a == 127

/-- `Ipv4Addr::is_unspecified`. -/
def isUnspecified (v4 : Ipv4Addr) : Bool := v4 == ⟨0, 0, 0, 0⟩

/-- `Ipv4Addr::to_ipv6_mapped`: the address `::ffff:a.b.c.d`. -/
def toIpv6Mapped (v4 : Ipv4Addr) : Ipv6Addr :=
  ⟨0, 0, 0, 0, 0, 0xffff, fromBeBytes v4.a v4.b, fromBeBytes v4.c v4.d⟩

/-- The address as a number, `Ipv4Addr::to_bits`. -/
def toBits (v4 : Ipv4Addr) : ℕ :=
  ((v4.a.toNat * 256 + v4.b.toNat) * 256 + v4.c.toNat) * 256 + v4.d.toNat

end Ipv4Addr

namespace Ipv6Addr

/-- `Ipv6Addr::LOCALHOST`, the address `::1`. -/
def localhost : Ipv6Addr := ⟨0, 0, 0, 0, 0, 0, 0, 1⟩

/-- `Ipv6Addr::is_loopback`. -/
def isLoopback (v6 : Ipv6Addr) : Bool := v6 == localhost

/-- `Ipv6Addr::is_unspecified`. -/
def isUnspecified (v6 : Ipv6Addr) : Bool := v6 == ⟨0, 0, 0, 0, 0, 0, 0, 0⟩

/-- `Ipv6Addr::to_ipv4_mapped`: the address embedded in `::ffff:a.b.c.d`. -/
def toIpv4Mapped (v6 : Ipv6Addr) : Option Ipv4Addr :=
  if v6.s0 == 0 && v6.s1 == 0 && v6.s2 == 0 && v6.s3 == 0 && v6.s4 == 0 && v6.s5 == 0xffff then
    some ⟨UInt8.ofNat (v6.s6.toNat / 256), UInt8.ofNat v6.s6.toNat,
      UInt8.ofNat (v6.s7.toNat / 256), UInt8.ofNat v6.s7.toNat⟩
  else none

end Ipv6Addr

/-! ## Private addresses -/

/-- Whether an address is private, loopback, link-local or otherwise non-public. -/
def isPrivateIp : IpAddr → Bool
  | .v4 v4 =>
    v4.isPrivate || v4.isLoopback || v4.isUnspecified
      -- link-local: 169.254.0.0/16
      || (v4.a == 169 && v4.b == 254)
      -- carrier-grade NAT: 100.64.0.0/10
      || (v4.a == 100 && (64 ≤ v4.b && v4.b ≤ 127))
  | .v6 v6 =>
    v6.isLoopback || v6.isUnspecified
      -- unique local addresses: fc00::/7
      || (v6.s0 >>> 8) &&& 0xFE == 0xFC
      -- link-local: fe80::/10
      || v6.s0 &&& 0xFFC0 == 0xFE80

/-! ## Blocks -/

/-- A block `network/len` of IPv4 addresses. -/
structure Ipv4Block where
  network : Ipv4Addr
  len : ℕ

/-- The address has the first `len` bits of the network. -/
def Ipv4Block.Contains (block : Ipv4Block) (v4 : Ipv4Addr) : Prop :=
  v4.toBits / 2 ^ (32 - block.len) = block.network.toBits / 2 ^ (32 - block.len)

instance (block : Ipv4Block) (v4 : Ipv4Addr) : Decidable (block.Contains v4) :=
  inferInstanceAs (Decidable (_ = _))

/-- The non-public blocks that the source names. -/
def privateBlocks : List Ipv4Block :=
  [⟨⟨10, 0, 0, 0⟩, 8⟩, ⟨⟨172, 16, 0, 0⟩, 12⟩, ⟨⟨192, 168, 0, 0⟩, 16⟩, ⟨⟨127, 0, 0, 0⟩, 8⟩,
    ⟨⟨0, 0, 0, 0⟩, 32⟩, ⟨⟨169, 254, 0, 0⟩, 16⟩, ⟨⟨100, 64, 0, 0⟩, 10⟩]

/-- The address is in one of the non-public blocks. -/
def Ipv4Addr.Private (v4 : Ipv4Addr) : Prop := ∃ block ∈ privateBlocks, block.Contains v4

instance (v4 : Ipv4Addr) : Decidable v4.Private :=
  inferInstanceAs (Decidable (∃ block ∈ privateBlocks, block.Contains v4))

variable (v4 : Ipv4Addr)

/-- On IPv4 the test is membership in the blocks. -/
theorem isPrivateIp_v4 : isPrivateIp (.v4 v4) = true ↔ v4.Private := by
  have hb := v4.b.toNat_lt
  have hc := v4.c.toNat_lt
  have hd := v4.d.toNat_lt
  have hz : v4 = ⟨0, 0, 0, 0⟩ ↔
      v4.a.toNat = 0 ∧ v4.b.toNat = 0 ∧ v4.c.toNat = 0 ∧ v4.d.toNat = 0 := by
    obtain ⟨a, b, c, d⟩ := v4
    simp only [Ipv4Addr.mk.injEq, ← UInt8.toNat_inj, UInt8.reduceToNat]
  have hbl : v4.Private ↔ v4.toBits / 2 ^ 24 = 10 ∨ v4.toBits / 2 ^ 20 = 2753 ∨
      v4.toBits / 2 ^ 16 = 49320 ∨ v4.toBits / 2 ^ 24 = 127 ∨ v4.toBits / 2 ^ 0 = 0 ∨
      v4.toBits / 2 ^ 16 = 43518 ∨ v4.toBits / 2 ^ 22 = 401 := by
    simp only [Ipv4Addr.Private, privateBlocks, List.exists_mem_cons_iff, List.not_mem_nil,
      false_and, exists_false, or_false]
    rfl
  have hbi : v4.toBits =
      ((v4.a.toNat * 256 + v4.b.toNat) * 256 + v4.c.toNat) * 256 + v4.d.toNat := rfl
  have h24 : v4.toBits / 2 ^ 24 = v4.a.toNat := by omega
  have h172 : v4.toBits / 2 ^ 20 = 2753 ↔
      v4.a.toNat = 172 ∧ 16 ≤ v4.b.toNat ∧ v4.b.toNat ≤ 31 := by omega
  have h192 : v4.toBits / 2 ^ 16 = 49320 ↔ v4.a.toNat = 192 ∧ v4.b.toNat = 168 := by omega
  have h0 : v4.toBits / 2 ^ 0 = 0 ↔
      v4.a.toNat = 0 ∧ v4.b.toNat = 0 ∧ v4.c.toNat = 0 ∧ v4.d.toNat = 0 := by omega
  have h169 : v4.toBits / 2 ^ 16 = 43518 ↔ v4.a.toNat = 169 ∧ v4.b.toNat = 254 := by omega
  have h100 : v4.toBits / 2 ^ 22 = 401 ↔
      v4.a.toNat = 100 ∧ 64 ≤ v4.b.toNat ∧ v4.b.toNat ≤ 127 := by omega
  rw [hbl, h24, h172, h192, h0, h169, h100]
  simp only [isPrivateIp, Ipv4Addr.isPrivate, Ipv4Addr.isLoopback, Ipv4Addr.isUnspecified,
    Bool.or_eq_true, Bool.and_eq_true, beq_iff_eq, decide_eq_true_eq, hz, ← UInt8.toNat_inj,
    UInt8.le_iff_toNat_le, UInt8.reduceToNat, or_assoc]

/-- No segment pattern of the test matches an embedded IPv4 address. -/
@[simp] theorem isPrivateIp_toIpv6Mapped : isPrivateIp (.v6 v4.toIpv6Mapped) = false := by
  simp [isPrivateIp, Ipv4Addr.toIpv6Mapped, Ipv6Addr.isLoopback, Ipv6Addr.isUnspecified,
    Ipv6Addr.localhost]

end Uptrakit.Net
