import Uptrakit.Net.Headers
import Uptrakit.Net.Egress

/-!
# Requests behind a reverse proxy

The two layers that every request of the web API passes: `resolve_ip`, which decides whether the
peer is a trusted proxy, and `resolve_proxy_headers`
(`crates/ui/web-api/src/middleware/{resolve_ip,resolve_proxy_headers}.rs`), which reads the
forwarded headers of a trusted proxy and removes those of any other peer.

What an untrusted peer writes into these headers is to have no effect.  That holds for a
connection without a client certificate, since the headers are removed
(`resolveProxyHeaders_strips`).  On a connection with one nothing is removed, and the next layer
sees them (`resolveProxyHeaders_keeps`).
-/

namespace Uptrakit.Net

structure ServiceIdentity where
  serviceId : Nat
  certSerial : String

/-- The readers of a forwarded client certificate, given the headers and the configured name:
`try_info_header` for the fields of a certificate, `try_pem_header` for a whole one.  They
serve trusted proxies only. -/
structure Readers where
  tryInfoHeader : HeaderMap → Option String → Option ServiceIdentity
  tryPemHeader : HeaderMap → Option String → Option ServiceIdentity

/-- `ipnet::IpNet`, by the addresses it contains. -/
structure IpNet where
  contains : IpAddr → Bool

/-- What the layers read of the `NetworkSettings`. -/
structure NetworkSettings where
  trustedProxies : List IpNet
  realIpHeader : String
  forwardedClientCertInfoHeader : Option String
  forwardedClientCertPemHeader : Option String

/-- `http::Uri`: what is read of it. -/
structure Uri where
  scheme : Option String
  authority : Option String

structure Request where
  headers : HeaderMap
  uri : Uri
  /-- `ConnectInfo`: the peer of the connection. -/
  connectInfo : Option SocketAddr
  clientIp : Option IpAddr
  proxyIp : Option IpAddr
  serviceIdentity : Option ServiceIdentity
  externalBaseUrl : Option String

/-! ## The address of the client -/

def canonicalize : IpAddr → IpAddr
  | .v6 v6 => (v6.toIpv4Mapped.map IpAddr.v4).getD (.v6 v6)
  | .v4 v4 => .v4 v4

variable (clientIp : String → HeaderMap → Option IpAddr) (headers : HeaderMap)

/-- The client address in the configured header.  `clientIp` is the `client_ip` crate, for the
headers it knows. -/
def extractRealIp (headerName : String) : Option IpAddr :=
  let name := Text.toAsciiLowercase headerName
  if name ∈ ["forwarded", "x-forwarded-for", "x-real-ip", "cf-connecting-ip", "true-client-ip"] then
    clientIp name headers
  else do
    let value ← headers.getStr name
    (value.toList.splitOn ',').reverse.findSome? fun s => parseIp (Text.trim (String.ofList s))

variable (network : NetworkSettings)

def NetworkSettings.trusts (peer : IpAddr) : Bool :=
  network.trustedProxies.any (·.contains peer)

def resolveClientIp (peerIp : Option IpAddr) (headers : HeaderMap) (network : NetworkSettings) :
    Option IpAddr × Option IpAddr :=
  match peerIp with
  | none => (none, none)
  | some peer =>
    if network.trusts peer then
      match extractRealIp clientIp headers network.realIpHeader with
      | some realIp => (some (canonicalize realIp), some peer)
      | none => (some peer, some peer)
    else (some peer, none)

def Request.peerIp (req : Request) : Option IpAddr := req.connectInfo.map (canonicalize ·.ip)

/-- The layer `resolve_ip`: the request that the next layer is given. -/
def resolveIp (req : Request) : Request :=
  let resolved := resolveClientIp clientIp req.peerIp req.headers network
  { req with
    clientIp := resolved.1 <|> req.clientIp
    proxyIp := resolved.2 <|> req.proxyIp }

/-! ## The forwarded headers -/

/-- The headers that an untrusted peer cannot set, in the order of their removal. -/
def NetworkSettings.proxyHeaders : List String :=
  network.forwardedClientCertInfoHeader.toList ++ network.forwardedClientCertPemHeader.toList ++
    ["x-forwarded-proto", "x-forwarded-host", "x-tenant-id", "origin"]

def stripProxyHeaders : HeaderMap :=
  network.proxyHeaders.foldl HeaderMap.remove headers

/-- `str::trim_end_matches('/')`. -/
def trimEndSlashes (s : String) : String := String.ofList (s.toList.rdropWhile (· == '/'))

/-- The base URL from the `Host` header. -/
def hostBaseUrl : Option String :=
  (headers.getStr "host").map fun host => "https://" ++ trimEndSlashes host

/-- The external base URL from the headers.  `Origin` and the forwarded headers count only from a
trusted proxy. -/
def resolveExternalBaseUrl (fromTrustedProxy : Bool) : Option String :=
  if fromTrustedProxy then
    match (headers.getStr "origin").map trimEndSlashes |>.filter (· ≠ "") with
    | some origin => some origin
    | none =>
      match headers.getStr "x-forwarded-proto" with
      | none => hostBaseUrl headers
      | some proto =>
        match headers.getStr "x-forwarded-host" with
        | some host => some (proto ++ "://" ++ trimEndSlashes host)
        | none =>
          match headers.getStr "host" with
          | some host => some (proto ++ "://" ++ trimEndSlashes host)
          | none => hostBaseUrl headers
  else hostBaseUrl headers

/-- The base URL from the authority of an HTTP/2 request without a proxy. -/
def baseUrlFromH2Uri (uri : Uri) (fromTrustedProxy : Bool) : Option String :=
  if fromTrustedProxy then none
  else uri.authority.map fun authority =>
    uri.scheme.getD "https" ++ "://" ++ trimEndSlashes authority

section Layers

variable (readers : Readers) (network : NetworkSettings)

/-- Part A of `resolve_proxy_headers`: the identity of the service. -/
def resolveIdentity (req : Request) : Request :=
  match req.serviceIdentity with
  | some _ => req
  | none =>
    if req.proxyIp.isSome then
      { req with
        serviceIdentity :=
          readers.tryInfoHeader req.headers network.forwardedClientCertInfoHeader <|>
            readers.tryPemHeader req.headers network.forwardedClientCertPemHeader }
    else { req with headers := stripProxyHeaders req.headers network }

/-- Part B of `resolve_proxy_headers`: the external base URL. -/
def resolveBaseUrl (req : Request) : Request :=
  { req with
    externalBaseUrl :=
      (resolveExternalBaseUrl req.headers req.proxyIp.isSome <|>
        baseUrlFromH2Uri req.uri req.proxyIp.isSome) <|> req.externalBaseUrl }

/-- The layer `resolve_proxy_headers`: the request that the next layer is given. -/
def resolveProxyHeaders (req : Request) : Request :=
  resolveBaseUrl (resolveIdentity readers network req)

variable (clientIp : String → HeaderMap → Option IpAddr)

/-- A request as the listener hands it over: the TLS acceptor has put in the peer, and the
identity of the client certificate if there is one. -/
structure Incoming where
  headers : HeaderMap
  uri : Uri
  connectInfo : Option SocketAddr
  mtlsIdentity : Option ServiceIdentity

def Incoming.request (incoming : Incoming) : Request where
  headers := incoming.headers
  uri := incoming.uri
  connectInfo := incoming.connectInfo
  clientIp := none
  proxyIp := none
  serviceIdentity := incoming.mtlsIdentity
  externalBaseUrl := none

def Incoming.resolved (incoming : Incoming) : Request :=
  resolveProxyHeaders readers network (resolveIp clientIp network incoming.request)

/-! ## Untrusted peers -/

/-- The peer is not a trusted proxy. -/
def Incoming.Untrusted (incoming : Incoming) : Prop :=
  ∀ peer, incoming.request.peerIp = some peer → network.trusts peer = false

/-- The requests are equal except for the headers of a proxy. -/
structure Incoming.AgreeOutsideProxyHeaders (incoming incoming' : Incoming) : Prop where
  connectInfo : incoming.connectInfo = incoming'.connectInfo
  mtlsIdentity : incoming.mtlsIdentity = incoming'.mtlsIdentity
  uri : incoming.uri = incoming'.uri
  headers : ∀ name, ¬HeaderMap.Denotes network.proxyHeaders name →
    incoming.headers.values name = incoming'.headers.values name

variable {readers network clientIp} {incoming : Incoming}

variable (h : incoming.Untrusted network)

include h

theorem resolveIp_of_untrusted :
    resolveIp clientIp network incoming.request =
      { incoming.request with clientIp := incoming.request.peerIp } := by
  unfold resolveIp resolveClientIp
  cases hp : incoming.request.peerIp with
  | none => rfl
  | some peer =>
    simp only [h peer hp]
    rfl

/-- Without a client certificate the headers of a proxy are removed, and the base URL is resolved
from the others. -/
theorem resolveProxyHeaders_strips (hm : incoming.mtlsIdentity = none) :
    incoming.resolved readers network clientIp =
      { incoming.request with
        clientIp := incoming.request.peerIp
        headers := stripProxyHeaders incoming.headers network
        externalBaseUrl :=
          hostBaseUrl (stripProxyHeaders incoming.headers network) <|>
            baseUrlFromH2Uri incoming.uri false } := by
  rw [Incoming.resolved, resolveIp_of_untrusted h]
  simp [resolveProxyHeaders, resolveBaseUrl, resolveIdentity, resolveExternalBaseUrl,
    Incoming.request, hm]

/-- With a client certificate all headers are kept. -/
theorem resolveProxyHeaders_keeps {identity} (hm : incoming.mtlsIdentity = some identity) :
    incoming.resolved readers network clientIp =
      { incoming.request with
        clientIp := incoming.request.peerIp
        externalBaseUrl :=
          hostBaseUrl incoming.headers <|> baseUrlFromH2Uri incoming.uri false } := by
  rw [Incoming.resolved, resolveIp_of_untrusted h]
  simp [resolveProxyHeaders, resolveBaseUrl, resolveIdentity, resolveExternalBaseUrl,
    Incoming.request, hm]

omit h

def Request.proxyDerived (req : Request) :
    Option ServiceIdentity × Option String × HeaderMap :=
  (req.serviceIdentity, req.externalBaseUrl, req.headers)

variable (readers clientIp)

/-- Two requests of an untrusted peer that differ only in the headers of a proxy look the same to
the next layer exactly when the connection has no client certificate, or the requests agree on
those headers too. -/
theorem proxyDerived_eq_iff {incoming incoming' : Incoming}
    (hu : incoming.Untrusted network)
    (ha : incoming.AgreeOutsideProxyHeaders network incoming') :
    (incoming.resolved readers network clientIp).proxyDerived =
        (incoming'.resolved readers network clientIp).proxyDerived ↔
      incoming.mtlsIdentity = none ∨ incoming.headers = incoming'.headers := by
  have hu' : incoming'.Untrusted network := by
    intro peer hp
    refine hu peer ?_
    rw [← hp, Request.peerIp, Request.peerIp, Incoming.request, Incoming.request, ha.connectInfo]
  cases hm : incoming.mtlsIdentity with
  | none =>
    have hs : stripProxyHeaders incoming.headers network =
        stripProxyHeaders incoming'.headers network :=
      HeaderMap.foldl_remove_eq ha.headers
    rw [resolveProxyHeaders_strips hu hm, resolveProxyHeaders_strips hu' (ha.mtlsIdentity ▸ hm)]
    simp only [Request.proxyDerived, Incoming.request, ha.mtlsIdentity, ha.uri, hs, true_or]
  | some =>
    rw [resolveProxyHeaders_keeps hu hm, resolveProxyHeaders_keeps hu' (ha.mtlsIdentity ▸ hm)]
    simp only [Request.proxyDerived, Incoming.request, ha.mtlsIdentity, ha.uri,
      Prod.mk.injEq, reduceCtorEq, false_or, true_and]
    constructor
    · exact fun h => h.2
    · intro hh
      exact ⟨by rw [hh], hh⟩

end Layers

/-! ## A direct connection -/

def directNetwork : NetworkSettings := ⟨[], "x-forwarded-for", none, none⟩

def noReaders : Readers := ⟨fun _ _ => none, fun _ _ => none⟩

/-- A request of `10.0.0.1` with the given `Origin` headers. -/
def directRequest (origins : List HeaderValue) (mtlsIdentity : Option ServiceIdentity) :
    Incoming where
  headers := ⟨fun name => if name.text = "origin" then origins else []⟩
  uri := ⟨none, none⟩
  connectInfo := some ⟨.v4 ⟨10, 0, 0, 1⟩, 40000⟩
  mtlsIdentity := mtlsIdentity

theorem directRequest_untrusted (origins mtlsIdentity) :
    (directRequest origins mtlsIdentity).Untrusted directNetwork := by
  intro peer _
  rfl

theorem directRequest_agree (origins origins' mtlsIdentity) :
    (directRequest origins mtlsIdentity).AgreeOutsideProxyHeaders directNetwork
      (directRequest origins' mtlsIdentity) := by
  refine ⟨rfl, rfl, rfl, ?_⟩
  intro name hn
  have ht : name.text ≠ "origin" := by
    intro ht
    refine hn ⟨"origin", by simp [NetworkSettings.proxyHeaders], ?_⟩
    obtain ⟨_, _⟩ := name
    subst ht
    rfl
  simp only [directRequest, ht, if_false]

/-- Without a client certificate an `Origin` header has no effect. -/
theorem proxyDerived_eq_directRequest :
    ((directRequest [[97]] none).resolved noReaders directNetwork
        fun _ _ => none).proxyDerived =
      ((directRequest [] none).resolved noReaders directNetwork
        fun _ _ => none).proxyDerived :=
  (proxyDerived_eq_iff noReaders (fun _ _ => none) (directRequest_untrusted _ _)
    (directRequest_agree _ _ _)).mpr (.inl rfl)

/-- With a client certificate an `Origin` header of an untrusted peer reaches the next layer. -/
theorem proxyDerived_ne_mtlsRequest :
    (directRequest [[97]] (some ⟨1, "01"⟩)).Untrusted directNetwork ∧
      (directRequest [[97]] (some ⟨1, "01"⟩)).AgreeOutsideProxyHeaders directNetwork
        (directRequest [] (some ⟨1, "01"⟩)) ∧
      ((directRequest [[97]] (some ⟨1, "01"⟩)).resolved noReaders directNetwork
          fun _ _ => none).proxyDerived ≠
        ((directRequest [] (some ⟨1, "01"⟩)).resolved noReaders directNetwork
          fun _ _ => none).proxyDerived := by
  refine ⟨directRequest_untrusted _ _, directRequest_agree _ _ _, ?_⟩
  intro heq
  have hh : (directRequest [[97]] (some ⟨1, "01"⟩)).headers =
      (directRequest [] (some ⟨1, "01"⟩)).headers := congrArg (·.2.2) heq
  have hv := congrArg (HeaderMap.values · ⟨"origin", by decide⟩) hh
  simp [directRequest] at hv

end Uptrakit.Net
