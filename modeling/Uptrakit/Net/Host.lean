import Uptrakit.Net.AddressText
import Uptrakit.Text.Basic

/-!
# Hosts

The host of a URL and `is_private_host` (`crates/shared/types/src/network.rs`), which tests a host
given as text: a few names, and otherwise `is_private_ip` of the address that the text is read as.

Parsing a URL is the business of the `url` crate, a parameter here.  An IPv4 host is
displayed as the address is, an IPv6 host in square brackets.  The first is read back as an
address, the second is not, so the test finds a private IPv4 host and no IPv6 host
(`isPrivateHost_ipv4`, `isPrivateHost_ipv6`).
-/

namespace Uptrakit.Net

/-- `url::Host`. -/
inductive Host
  | domain (name : String)
  | ipv4 (addr : Ipv4Addr)
  | ipv6 (addr : Ipv6Addr)
  deriving DecidableEq

/-- `url::Url`: what the modelled functions read of it. -/
structure Url where
  scheme : String
  host : Option Host
  /-- `Url::to_string`. -/
  text : String

/-- The operations of the `url` crate. -/
structure UrlCrate where
  /-- `Url::parse`, with the text of the error. -/
  parse : String → Except String Url
  /-- The compressed hexadecimal form of an IPv6 address. -/
  ipv6Text : Ipv6Addr → String

/-- `Host::to_string`. -/
def UrlCrate.hostText (crate : UrlCrate) : Host → String
  | .domain name => name
  | .ipv4 addr => addr.display
  | .ipv6 addr => String.ofList ('[' :: ((crate.ipv6Text addr).toList ++ [']']))

/-- `Url::host_str`. -/
def UrlCrate.hostStr (crate : UrlCrate) (url : Url) : Option String := url.host.map crate.hostText

def Host.ip : Host → Option IpAddr
  | .domain _ => none
  | .ipv4 addr => some (.v4 addr)
  | .ipv6 addr => some (.v6 addr)

/-- Whether a host name or an address refers to a non-public destination.  The host of an `https`
URL is ASCII. -/
def isPrivateHost (host : String) : Bool :=
  let lower := Text.toAsciiLowercase host
  if lower == "localhost" || Text.endsWith lower ".local" || Text.endsWith lower ".internal"
      || Text.endsWith lower ".localhost" then true
  else
    match parseIp host with
    | some addr => isPrivateIp addr
    | none => false

theorem isPrivateHost_ipv4 (crate : UrlCrate) {v4} (hv4 : isPrivateIp (.v4 v4) = true) :
    isPrivateHost (crate.hostText (.ipv4 v4)) = true := by
  simp only [isPrivateHost, UrlCrate.hostText, parseIp_display, hv4, ite_self]

/-- No IPv6 host is: its text is neither one of the names nor read as an address. -/
theorem isPrivateHost_ipv6 (crate : UrlCrate) (v6 : Ipv6Addr) :
    isPrivateHost (crate.hostText (.ipv6 v6)) = false := by
  have hp : parseIp (crate.hostText (.ipv6 v6)) = none :=
    parseIp_bracket (by rw [UrlCrate.hostText, String.toList_ofList])
  have hl : (Text.toAsciiLowercase (crate.hostText (.ipv6 v6))).toList.getLast? = some ']' := by
    simp [Text.toAsciiLowercase, UrlCrate.hostText, List.getLast?_cons]
  have he : ∀ suffix c, suffix.toList.getLast? = some c → c ≠ ']' →
      Text.endsWith (Text.toAsciiLowercase (crate.hostText (.ipv6 v6))) suffix = false := by
    intro suffix c hc hne
    rw [← Bool.not_eq_true]
    intro h
    have hs := Text.getLast?_of_endsWith hc h
    rw [hl, Option.some.injEq] at hs
    exact hne hs.symm
  have hn : (Text.toAsciiLowercase (crate.hostText (.ipv6 v6)) == "localhost") = false := by
    rw [← Bool.not_eq_true, beq_iff_eq]
    intro h
    rw [h] at hl
    exact absurd hl (by decide)
  simp only [isPrivateHost, hp, hn, he ".local" 'l' rfl (by decide),
    he ".internal" 'l' rfl (by decide), he ".localhost" 't' rfl (by decide),
    Bool.or_self, Bool.false_eq_true, if_false]

end Uptrakit.Net
