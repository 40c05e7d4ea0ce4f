import Uptrakit.Net.Host

/-!
# Guards on outgoing requests

Where a request of a plugin may go: the DNS resolver of its HTTP client
(`crates/shared/types/src/ssrf.rs`) drops non-public addresses, and `check_hop`
(`crates/plugins/infrastructure/core/src/redirect.rs`) looks at each redirect.  Both classify
addresses by `is_private_ip`.

An IPv4-mapped address reaches the embedded IPv4 address, and is never classified as private.
So the guards let a private IPv4 address pass in that form (`mem_resolve_iff`,
`checkHop_mapped`).
-/

namespace Uptrakit.Net

/-- `std::net::SocketAddr`. -/
structure SocketAddr where
  ip : IpAddr
  port : ℕ
  deriving DecidableEq

/-! ## The resolver -/

structure SsrfSafeResolver where
  allowPrivate : Bool

namespace SsrfSafeResolver

def new : SsrfSafeResolver := ⟨false⟩

def permissive : SsrfSafeResolver := ⟨true⟩

/-- The addresses of a name.  `lookupHost` is the lookup of the operating system, for a host with
a port. -/
def resolve (resolver : SsrfSafeResolver)
    (lookupHost : String → Except String (List SocketAddr)) (name : String) :
    Except String (List SocketAddr) :=
  match lookupHost (name ++ ":0") with
  | .error e => .error e
  | .ok addrs =>
    if addrs.isEmpty then .error "DNS lookup returned no addresses"
    else if resolver.allowPrivate then .ok addrs
    else
      let publicAddrs := addrs.filter fun addr => !isPrivateIp addr.ip
      if publicAddrs.isEmpty then
        .error "DNS lookup resolved to private/loopback addresses (blocked by SSRF protection)"
      else .ok publicAddrs

end SsrfSafeResolver

/-! ## Redirects -/

inductive SsrfMode
  | strict
  | permissive

inductive HopGuardError
  | schemeDowngrade (previous target : String)
  | privateTarget (addr : IpAddr) (target : String)
  deriving DecidableEq

/-- Classify a redirect from `previous` to `target`: refused, followed with a warning, or
followed. -/
def checkHop (previous target : Url) (mode : SsrfMode) :
    Except HopGuardError (Option HopGuardError) :=
  if previous.scheme = "https" ∧ target.scheme = "http" then
    .error (.schemeDowngrade previous.text target.text)
  else
    match target.host.bind Host.ip with
    | some addr =>
      if isPrivateIp addr then
        match mode with
        | .strict => .error (.privateTarget addr target.text)
        | .permissive => .ok (some (.privateTarget addr target.text))
      else .ok none
    | none => .ok none

/-! ## What passes -/

/-- The restrictive resolver returns the looked-up addresses that are not classified as
private. -/
theorem SsrfSafeResolver.mem_resolve_iff (lookupHost : String → Except String (List SocketAddr))
    (name addr) :
    (∃ addrs, SsrfSafeResolver.new.resolve lookupHost name = .ok addrs ∧ addr ∈ addrs) ↔
      ∃ found, lookupHost (name ++ ":0") = .ok found ∧ addr ∈ found ∧
        isPrivateIp addr.ip = false := by
  unfold SsrfSafeResolver.resolve SsrfSafeResolver.new
  cases lookupHost (name ++ ":0") with
  | error => simp
  | ok found =>
    simp only [List.isEmpty_iff, Bool.false_eq_true, if_false, Except.ok.injEq, exists_eq_left']
    constructor
    · rintro ⟨_, hr, hm⟩
      split at hr
      · simp at hr
      · split at hr
        · simp at hr
        · obtain rfl := Except.ok.inj hr
          simpa using hm
    · rintro ⟨hm, hp⟩
      have hf : addr ∈ found.filter fun addr => !isPrivateIp addr.ip := by
        simp [hm, hp]
      rw [if_neg (List.ne_nil_of_mem hm), if_neg (List.ne_nil_of_mem hf)]
      exact ⟨_, rfl, hf⟩

/-- The address reaches a private IPv4 address by its IPv4-mapped form. -/
def IpAddr.MappedPrivate (addr : IpAddr) : Prop :=
  ∃ v4 : Ipv4Addr, addr = .v6 v4.toIpv6Mapped ∧ v4.Private

theorem IpAddr.MappedPrivate.isPrivateIp {addr : IpAddr} (h : addr.MappedPrivate) :
    isPrivateIp addr = false := by
  obtain ⟨v4, rfl, -⟩ := h
  exact isPrivateIp_toIpv6Mapped v4

/-- A redirect to the literal of a private address in its mapped form. -/
def Url.MappedPrivate (url : Url) : Prop :=
  ∃ host addr, url.host = some host ∧ host.ip = some addr ∧ addr.MappedPrivate

/-- The classification agrees on the two forms of an IPv4 address exactly when the address is
public.  The restrictive resolver keeps mapped private addresses out exactly when the
lookup returns none, and `check_hop` in strict mode exactly when the target is none or the
redirect leaves `https`. -/
theorem isPrivateIp_mapped_iff (v4 : Ipv4Addr)
    (lookupHost : String → Except String (List SocketAddr)) (name : String)
    (previous target : Url) :
    (isPrivateIp (.v6 v4.toIpv6Mapped) = isPrivateIp (.v4 v4) ↔ ¬v4.Private) ∧
      ((∀ addrs, SsrfSafeResolver.new.resolve lookupHost name = .ok addrs →
          ∀ addr ∈ addrs, ¬addr.ip.MappedPrivate) ↔
        ∀ found, lookupHost (name ++ ":0") = .ok found → ∀ addr ∈ found, ¬addr.ip.MappedPrivate) ∧
      ((∀ warning, checkHop previous target .strict = .ok warning → ¬target.MappedPrivate) ↔
        ¬target.MappedPrivate ∨ (previous.scheme = "https" ∧ target.scheme = "http")) := by
  refine ⟨?_, ?_, ?_⟩
  · rw [isPrivateIp_toIpv6Mapped, ← isPrivateIp_v4, Bool.not_eq_true]
    exact eq_comm
  · constructor
    · intro h found hf addr hme hm
      obtain ⟨addrs, hr, hme'⟩ := (SsrfSafeResolver.mem_resolve_iff lookupHost name addr).mpr
        ⟨found, hf, hme, hm.isPrivateIp⟩
      exact h addrs hr addr hme' hm
    · intro h addrs hr addr hme
      obtain ⟨found, hf, hme', -⟩ := (SsrfSafeResolver.mem_resolve_iff lookupHost name addr).mp
        ⟨addrs, hr, hme⟩
      exact h found hf addr hme'
  · by_cases ht : target.MappedPrivate
    · obtain ⟨host, addr, hh, hip, hm⟩ := ht
      have hl : target.host.bind Host.ip = some addr := by rw [hh, Option.bind_some, hip]
      unfold checkHop
      split
      · next hd => simp [hd]
      · next hs => simp [hl, hm.isPrivateIp, hs]
    · simp [ht]

/-- `10.0.0.1` is private, its mapped form is not; both guards let the mapped form
pass. -/
theorem isPrivateIp_mapped_tenNet :
    isPrivateIp (.v4 ⟨10, 0, 0, 1⟩) = true ∧
      isPrivateIp (.v6 (Ipv4Addr.toIpv6Mapped ⟨10, 0, 0, 1⟩)) = false ∧
      SsrfSafeResolver.new.resolve
          (fun _ => .ok [⟨.v6 (Ipv4Addr.toIpv6Mapped ⟨10, 0, 0, 1⟩), 0⟩]) "internal.example" =
        .ok [⟨.v6 (Ipv4Addr.toIpv6Mapped ⟨10, 0, 0, 1⟩), 0⟩] ∧
      checkHop ⟨"https", some (.domain "example.org"), "https://example.org/"⟩
          ⟨"https", some (.ipv6 (Ipv4Addr.toIpv6Mapped ⟨10, 0, 0, 1⟩)),
            "https://[::ffff:a00:1]/"⟩ .strict = .ok none := by
  decide

end Uptrakit.Net
