import Uptrakit.Concurrent.Run
import Uptrakit.Update.History

/-!
# Renewal of a service certificate

`CertificateRenewalHandler` renews the certificate of a service over its connection
(`crates/shared/service-sdk/src/cert_handler.rs`).  A renewal begins when the timer fires
or the controller asks for it: a new key is generated, kept as the pending one, and a
request for a certificate of its public key is sent.  The certificate that arrives is
stored together with the pending key.

The certificate and the private key that are stored always belong together as long as no
renewal begins while a request is unanswered (`stored_pair`).  A second renewal replaces
the pending key, and the certificate for the first one is stored with it
(`certificate_with_other_key`).

Private keys are any type, with a function to public keys; a certificate is its public key
and its end.
-/

namespace Uptrakit.Pki.CertRenewal

open Update (Uuid)
open Concurrent

/-- A certificate.  `notAfter` is what `parse_cert_not_after` reads from it, in
nanoseconds. -/
structure Certificate (P : Type*) where
  publicKey : P
  notAfter : Option Int
  deriving DecidableEq

/-! ## Identity of a service -/

/-- `service.json`. -/
structure ServiceState where
  serviceId : Uuid
  enrollmentSecret : String
  tenantId : Option Uuid
  deriving DecidableEq

structure ServiceIdentityState (K P : Type*) where
  serviceId : Option Uuid
  tenantId : Option Uuid
  enrollmentSecret : Option String
  keypair : Option K
  certificatePem : Option (Certificate P)
  /-- `service.json` -/
  stateFile : Option ServiceState
  /-- `service.key` -/
  keyFile : Option K
  /-- `service.crt` -/
  certificateFile : Option (Certificate P)
  deriving DecidableEq

/-- What the environment makes of the steps of `handle_certificate`: which files can be
written, whether the key is parsed and a certified key is built, and the time. -/
structure Environment where
  writesCertificate : Bool := true
  writesState : Bool := true
  parsesKey : Bool := true
  writesKey : Bool := true
  buildsCertifiedKey : Bool := true
  now : Int := 0
  deriving DecidableEq

/-- Once the certificate is written, the rest is written, too. -/
def Environment.savesAll (env : Environment) : Bool :=
  !env.writesCertificate || env.writesState && env.parsesKey && env.writesKey

inductive SaveError
  | io
  | keypairGeneration
  deriving DecidableEq

namespace ServiceIdentityState

variable {K P : Type*}

def saveCertificate (env : Environment) (identity : ServiceIdentityState K P)
    (cert : Certificate P) : Except SaveError Unit × ServiceIdentityState K P :=
  if !env.writesCertificate then (.error .io, identity)
  else
    let identity := { identity with certificateFile := some cert, certificatePem := some cert }
    match identity.serviceId with
    | none => (.ok (), { identity with enrollmentSecret := none })
    | some serviceId =>
      if !env.writesState then (.error .io, identity)
      else
        (.ok (),
          { identity with
            stateFile := some ⟨serviceId, "", identity.tenantId⟩
            enrollmentSecret := none })

def savePrivateKey (env : Environment) (identity : ServiceIdentityState K P) (key : K) :
    Except SaveError Unit × ServiceIdentityState K P :=
  if !env.parsesKey then (.error .keypairGeneration, identity)
  else if !env.writesKey then (.error .io, identity)
  else (.ok (), { identity with keyFile := some key, keypair := some key })

end ServiceIdentityState

/-! ## The handler -/

inductive LoopOutcome
  | shutdown | reconnect | disconnected | restart
  deriving DecidableEq

/-- The handler of a connection.  `certResolver` is the certificate and key that the TLS
connector uses, if there is a resolver. -/
structure CertificateRenewalHandler (K P : Type*) where
  pendingRenewalKey : Option K
  certResolver : Option (Certificate P × K)
  certLifetimeHours : Nat
  trustDomain : String
  deriving DecidableEq

/-- Threshold: the larger of 60 seconds and a fiftieth of the lifetime. -/
def shouldForceReconnect (notAfter now : Int) (certLifetimeSecs : Nat) : Bool :=
  let windowSecs := max 60 (certLifetimeSecs / 50)
  let untilExpiry := (notAfter - now).tdiv 1000000000
  decide (untilExpiry ≤ 0) || decide (untilExpiry ≤ (windowSecs : Int))

def maxTrustDomainLen : Nat := 255

/-- The grammar of SPIFFE trust domains; the empty text means none. -/
def validTrustDomain (trustDomain : String) : Bool :=
  trustDomain.isEmpty || decide (trustDomain.utf8ByteSize ≤ maxTrustDomainLen) &&
    trustDomain.toList.all fun c =>
      'a' ≤ c && c ≤ 'z' || '0' ≤ c && c ≤ '9' || c == '.' || c == '-'

inductive RenewalError
  | notEnrolled
  | invalidTrustDomain (domain : String)
  | csrGeneration

namespace CertificateRenewalHandler

variable {K P : Type*} (publicOf : K → P)

def new (certResolver : Option (Certificate P × K)) : CertificateRenewalHandler K P :=
  ⟨none, certResolver, 168, ""⟩

/-- Generates a key and a request for a certificate of its public key.  `generated` is the
key, if it can be generated. -/
def initiateRenewal (h : CertificateRenewalHandler K P) (identity : ServiceIdentityState K P)
    (generated : Option K) : Except RenewalError (P × CertificateRenewalHandler K P) :=
  match identity.serviceId with
  | none => .error .notEnrolled
  | some _ =>
    if !validTrustDomain h.trustDomain then .error (.invalidTrustDomain h.trustDomain)
    else
      match generated with
      | none => .error .csrGeneration
      | some key => .ok (publicOf key, { h with pendingRenewalKey := some key })

def swapResolver (env : Environment) (h : CertificateRenewalHandler K P)
    (cert : Certificate P) (key : K) : CertificateRenewalHandler K P :=
  if env.buildsCertifiedKey then { h with certResolver := h.certResolver.map fun _ => (cert, key) }
  else h

/-- The end of `handle_certificate`, when certificate and key are stored. -/
def applyCertificate (env : Environment) (h : CertificateRenewalHandler K P)
    (cert : Certificate P) (key : K) : Option LoopOutcome × CertificateRenewalHandler K P :=
  match cert.notAfter with
  | none => (some .reconnect, h.swapResolver env cert key)
  | some notAfter =>
    if h.certResolver.isSome && !env.buildsCertifiedKey then (some .reconnect, h)
    else
      let h := h.swapResolver env cert key
      if shouldForceReconnect notAfter env.now (h.certLifetimeHours * 3600) then
        (some .reconnect, h)
      else (none, h)

def handleCertificate (env : Environment) (h : CertificateRenewalHandler K P)
    (identity : ServiceIdentityState K P) (cert : Certificate P) :
    Except SaveError (Option LoopOutcome) × CertificateRenewalHandler K P ×
      ServiceIdentityState K P :=
  match h.pendingRenewalKey with
  | none => (.ok (some .disconnected), h, identity)
  | some key =>
    let h := { h with pendingRenewalKey := none }
    match identity.saveCertificate env cert with
    | (.error e, identity) => (.error e, h, identity)
    | (.ok _, identity) =>
      match identity.savePrivateKey env key with
      | (.error e, identity) => (.error e, h, identity)
      | (.ok _, identity) =>
        let applied := h.applyCertificate env cert key
        (.ok applied.1, applied.2, identity)

end CertificateRenewalHandler

/-! ## A connection -/

/-- A connection of the service: its identity and handler, the requests that the controller
has not answered yet, and how the event loop has ended. -/
structure Connection (K P : Type*) where
  identity : ServiceIdentityState K P
  handler : CertificateRenewalHandler K P
  requests : List P
  outcome : Option (Except SaveError LoopOutcome)

/-- What the event loop handles.  A renewal comes with the key that is generated for it, and
whether the request can be sent. -/
inductive Event (K : Type*)
  | renewalTimer (generated : Option K) (sent : Bool)
  | requestCertRenewal (generated : Option K) (sent : Bool)
  /-- The controller answers the first request, with a certificate for its public key. -/
  | certificate (notAfter : Option Int) (env : Environment)
  | serviceSettings (trustDomain : String)

namespace Connection

variable {K P : Type*} (publicOf : K → P)

def connect (identity : ServiceIdentityState K P) (certResolver : Option (Certificate P × K)) :
    Connection K P :=
  ⟨identity, .new certResolver, [], none⟩

/-- `handle_renewal_timer` and `handle_request_cert_renewal`. -/
def renew (c : Connection K P) (generated : Option K) (sent : Bool) : Connection K P :=
  match c.handler.initiateRenewal publicOf c.identity generated with
  | .error _ => { c with outcome := some (.ok .disconnected) }
  | .ok (csr, handler) =>
    if sent then { c with handler := handler, requests := c.requests ++ [csr] }
    else { c with handler := handler, outcome := some (.ok .disconnected) }

def receiveCertificate (c : Connection K P) (env : Environment) (cert : Certificate P) :
    Connection K P :=
  match c.handler.handleCertificate env c.identity cert with
  | (.error e, handler, identity) =>
    { c with handler := handler, identity := identity, outcome := some (.error e) }
  | (.ok outcome, handler, identity) =>
    { c with handler := handler, identity := identity, outcome := outcome.map .ok }

def handle (c : Connection K P) (event : Event K) : Connection K P :=
  match c.outcome, event with
  | some _, _ => c
  | none, .renewalTimer generated sent => c.renew publicOf generated sent
  | none, .requestCertRenewal generated sent => c.renew publicOf generated sent
  | none, .certificate notAfter env =>
    match c.requests with
    | [] => c
    | csr :: requests =>
      { c with requests := requests }.receiveCertificate env ⟨csr, notAfter⟩
  | none, .serviceSettings trustDomain =>
    if trustDomain.isEmpty then c
    else { c with handler := { c.handler with trustDomain := trustDomain } }

/-- A renewal begins only when all requests are answered, and a certificate is stored
completely. -/
def inTurn (c : Connection K P) : Event K → Bool
  | .renewalTimer _ _ | .requestCertRenewal _ _ => c.requests.isEmpty
  | .certificate _ env => env.savesAll
  | .serviceSettings _ => true

end Connection

/-! ## Pairs -/

section Pairs

variable {K P : Type*} (publicOf : K → P)

/-- The certificate is one for the key. -/
def Pair (cert : Option (Certificate P)) (key : Option K) : Prop :=
  ∃ c k, cert = some c ∧ key = some k ∧ c.publicKey = publicOf k

/-- The certificate and the key in memory belong together, and so do those on disk. -/
structure ServiceIdentityState.Paired (identity : ServiceIdentityState K P) : Prop where
  memory : Pair publicOf identity.certificatePem identity.keypair
  files : Pair publicOf identity.certificateFile identity.keyFile

/-- The request that is not answered yet is one for the pending key. -/
def Connection.Awaits (c : Connection K P) : Prop :=
  c.requests = [] ∨
    ∃ key, c.handler.pendingRenewalKey = some key ∧ c.requests = [publicOf key]

variable {publicOf} {env : Environment} {identity : ServiceIdentityState K P}
  {cert : Certificate P} {key : K}

theorem pair_some (h : cert.publicKey = publicOf key) : Pair publicOf (some cert) (some key) :=
  ⟨cert, key, rfl, rfl, h⟩

/-- A certificate for the pending key is stored with it, or nothing is stored. -/
theorem ServiceIdentityState.Paired.handleCertificate (h : identity.Paired publicOf)
    {handler : CertificateRenewalHandler K P} (hpe : handler.pendingRenewalKey = some key)
    (hke : cert.publicKey = publicOf key) (hsa : env.savesAll = true) :
    (handler.handleCertificate env identity cert).2.2.Paired publicOf := by
  simp only [CertificateRenewalHandler.handleCertificate, hpe]
  cases hw : env.writesCertificate with
  | false => simpa only [saveCertificate, hw, Bool.not_false, if_true] using h
  | true =>
    simp only [Environment.savesAll, hw, Bool.not_true, Bool.false_or, Bool.and_eq_true] at hsa
    obtain ⟨⟨hst, hp⟩, hk⟩ := hsa
    cases hs : identity.serviceId with
    | none =>
      simp only [saveCertificate, savePrivateKey, hw, hp, hk, hs]
      exact ⟨pair_some hke, pair_some hke⟩
    | some =>
      simp only [saveCertificate, savePrivateKey, hw, hst, hp, hk, hs]
      exact ⟨pair_some hke, pair_some hke⟩

namespace Connection

variable {c : Connection K P}

/-- The pending key of a renewal that begins when all requests are answered is the one of its
request. -/
theorem awaits_renew (hr : c.requests = []) (generated : Option K) (sent) :
    (c.renew publicOf generated sent).Awaits publicOf := by
  fun_cases renew publicOf c generated sent with
  | case1 | case3 => exact .inl hr
  | case2 csr handler hi =>
    revert hi
    fun_cases CertificateRenewalHandler.initiateRenewal publicOf c.handler c.identity generated with
    | case4 _ _ _ key =>
      rintro ⟨⟩
      refine .inr ⟨key, rfl, ?_⟩
      rw [hr, List.nil_append]
    | _ => exact nofun

/-- The identity is a pair, and what is awaited will be one. -/
structure Sound (publicOf : K → P) (c : Connection K P) : Prop where
  paired : c.identity.Paired publicOf
  awaits : c.Awaits publicOf

theorem Sound.renew (h : Sound publicOf c) (hr : c.requests.isEmpty = true)
    (generated : Option K) (sent : Bool) : Sound publicOf (c.renew publicOf generated sent) where
  paired := by
    fun_cases Connection.renew publicOf c generated sent <;> exact h.paired
  awaits := awaits_renew (List.isEmpty_iff.1 hr) generated sent

theorem Sound.certificate (h : Sound publicOf c) {csr : P} {requests : List P}
    (hr : c.requests = csr :: requests) (notAfter : Option Int)
    (hs : env.savesAll = true) :
    Sound publicOf (receiveCertificate { c with requests := requests } env ⟨csr, notAfter⟩) := by
  rcases h.awaits with hn | ⟨key, hpe, hk⟩
  · rw [hr] at hn
    cases hn
  · rw [hr] at hk
    obtain ⟨rfl, rfl⟩ := List.cons.inj hk
    have hk : Certificate.publicKey ⟨publicOf key, notAfter⟩ = publicOf key := rfl
    have hp := h.paired.handleCertificate hpe hk hs
    unfold Connection.receiveCertificate
    split <;> rename_i heq <;> rw [heq] at hp <;> exact ⟨hp, .inl rfl⟩

theorem Sound.handle (h : Sound publicOf c) {event : Event K} (ht : c.inTurn event = true) :
    Sound publicOf (c.handle publicOf event) := by
  fun_cases Connection.handle publicOf c event with
  | case2 | case3 => exact h.renew ht _ _
  | case5 _ _ _ _ _ hr => exact h.certificate hr _ ht
  | case7 => exact ⟨h.paired, h.awaits⟩
  | _ => exact h

/-- In every run in which a renewal begins only when all requests are answered, the certificate
and the private key that are stored belong together. -/
theorem stored_pair {identity : ServiceIdentityState K P} (hp : identity.Paired publicOf)
    (certResolver : Option (Certificate P × K)) {events : List (Event K)}
    (hm : Meets (handle publicOf) (fun c event => c.inTurn event = true)
      (connect identity certResolver) events) :
    (events.foldl (handle publicOf) (connect identity certResolver)).identity.Paired publicOf := by
  have hs : Sound publicOf (events.foldl (handle publicOf) (connect identity certResolver)) :=
    foldl_invariant_of_meets (fun _ _ h ht => h.handle ht) ⟨hp, .inl rfl⟩ hm
  exact hs.paired

end Connection

/-! ## Two requests -/

/-- A service with key 0; the public key of a key is the key itself. -/
def certified : ServiceIdentityState Nat Nat where
  serviceId := some 7
  tenantId := none
  enrollmentSecret := none
  keypair := some 0
  certificatePem := some ⟨0, some 0⟩
  stateFile := some ⟨7, "", none⟩
  keyFile := some 0
  certificateFile := some ⟨0, some 0⟩

theorem paired_certified : certified.Paired id :=
  ⟨⟨_, _, rfl, rfl, rfl⟩, ⟨_, _, rfl, rfl, rfl⟩⟩

/-- The timer fires and the controller asks for a renewal, then the first answer arrives. -/
def bothAsked : List (Event Nat) :=
  [.renewalTimer (some 1) true, .requestCertRenewal (some 2) true, .certificate none {}]

/-- The certificate for key 1 is stored with key 2. -/
theorem certificate_with_other_key :
    certified.Paired id ∧
    (let stored := (bothAsked.foldl (Connection.handle id) (.connect certified none)).identity
     stored.certificatePem = some ⟨1, none⟩ ∧ stored.keypair = some 2 ∧ ¬ stored.Paired id) := by
  refine ⟨paired_certified, rfl, rfl, ?_⟩
  rintro ⟨⟨_, _, ⟨⟩, ⟨⟩, hk⟩, -⟩
  cases hk

/-- One renewal after the other. -/
def oneAfterTheOther : List (Event Nat) :=
  [.serviceSettings "example.org", .renewalTimer (some 1) true,
    .certificate (some 1000000000000000000) {}, .requestCertRenewal (some 2) true,
    .certificate none {}]

theorem stored_pair_twice :
    let stored := (oneAfterTheOther.foldl (Connection.handle id) (.connect certified none)).identity
    stored.keypair = some 2 ∧ stored.Paired id := by
  have hm : Meets (Connection.handle id) (fun c event => c.inTurn event = true)
      (.connect certified none) oneAfterTheOther := by
    decide
  exact ⟨by decide, Connection.stored_pair paired_certified none hm⟩

end Pairs

end Uptrakit.Pki.CertRenewal
