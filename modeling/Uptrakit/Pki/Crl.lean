import Mathlib.Algebra.Group.Int.Defs
import Mathlib.Algebra.Group.Nat.Defs
import Uptrakit.Concurrent.Calls
import Uptrakit.Pki.Rotation

/-!
# Certificate revocation lists

A revoked service certificate is a row with `revoked_at`.  The controllers turn these
rows into CRLs, one for each trusted CA, and give them to the verifier of client
certificates.  `swap_verifier` reads the rows, installs a new verifier and writes the
CRLs to `crl_cache`; a controller that starts takes the CRLs of that table, as long
as they are fresh, and signs new ones otherwise.

A call is cut where it awaits the database: one step executes the statement, with the
times that were taken before, and the next one goes on with what it has found.  Any
number of controllers share the tables; a controller that stops is one whose calls take
no more steps.
-/

namespace Uptrakit.Pki.Crl

open Concurrent

/-! ## Certificates -/

inductive RevocationReason
  | certificateRenewed
  | serviceDeactivated
  | serviceMerged
  deriving DecidableEq

inductive CrlReason
  | superseded
  | cessationOfOperation
  deriving DecidableEq

def mapReason : RevocationReason → CrlReason
  | .certificateRenewed => .superseded
  | .serviceDeactivated | .serviceMerged => .cessationOfOperation

/-- A row of `service_certificates`. -/
structure ServiceCertificate where
  caFingerprint : String
  serialNumber : String
  serviceId : Nat
  notAfter : Int
  revokedAt : Option Int
  revocationReason : Option RevocationReason
  deriving DecidableEq

def hexDigit (c : Char) : Option Nat :=
  if '0' ≤ c ∧ c ≤ '9' then some (c.toNat - 48)
  else if 'a' ≤ c ∧ c ≤ 'f' then some (c.toNat - 87)
  else if 'A' ≤ c ∧ c ≤ 'F' then some (c.toNat - 55)
  else none

/-- `u8::from_str_radix(_, 16)`, which allows a plus sign. -/
def byteFromHex (digits : List Char) : Option Nat :=
  let parse (digits : List Char) : Option Nat :=
    digits.foldlM (fun value c =>
      (hexDigit c).bind fun digit =>
        if value * 16 + digit < 256 then some (value * 16 + digit) else none) 0
  match digits with
  | [] => none
  | ['+'] => none
  | '+' :: digits => parse digits
  | digits => parse digits

/-- A serial number such as `00:ab:cd`, as bytes. -/
def parseSerialString (serial : String) : Option (List Nat) :=
  (serial.toList.splitOn ':').mapM byteFromHex

example : parseSerialString "00:ab:cd" = some [0, 171, 205] := by decide
example : parseSerialString "zz:00" = none := by decide

/-! ## CRLs -/

structure RevokedCertParams where
  serialNumber : List Nat
  revocationTime : Int
  reasonCode : Option CrlReason
  deriving DecidableEq

structure SignedCrl where
  issuer : String
  thisUpdate : Int
  nextUpdate : Int
  crlNumber : Nat
  revokedCerts : List RevokedCertParams
  deriving DecidableEq

def SignedCrl.lists (crl : SignedCrl) (serial : List Nat) : Bool :=
  crl.revokedCerts.any (·.serialNumber == serial)

def hours (n : Int) : Int := n * 3600

def signCrlWithTimes (issuer : String) (revoked : List RevokedCertParams) (crlNumber : Nat)
    (now : Int) : SignedCrl where
  issuer := issuer
  thisUpdate := now
  nextUpdate := now + hours 24
  crlNumber := crlNumber
  revokedCerts := revoked

/-- Certificates stay in the CRL for a day after they have expired. -/
def queryRevokedCertsForCa (now : Int) (certificates : List ServiceCertificate)
    (caFingerprint : String) : List RevokedCertParams :=
  let found := certificates.filter fun cert =>
    cert.caFingerprint == caFingerprint && cert.revokedAt.isSome &&
      decide (now - hours 24 < cert.notAfter)
  found.filterMap fun cert =>
    (parseSerialString cert.serialNumber).map fun serial =>
      ⟨serial, cert.revokedAt.getD now, cert.revocationReason.map mapReason⟩

/-- The text of a CRL: what is written can be read. -/
structure PemCodec (π : Type) where
  encode : SignedCrl → π
  decode : π → Option SignedCrl
  decode_encode : ∀ crl, decode (encode crl) = some crl

def plainPem : PemCodec SignedCrl := ⟨id, some, fun _ => rfl⟩

/-- A row of `crl_cache`. -/
structure CrlCache (π : Type) where
  caFingerprint : String
  crlPem : π
  crlNumber : Int
  thisUpdate : Int
  nextUpdate : Int
  updatedAt : Int
  deriving DecidableEq

/-- The conversions between `u64` and `i64`. -/
def asI64 (n : Nat) : Int := (n + 2 ^ 63 : Int) % 2 ^ 64 - 2 ^ 63

def asU64 (n : Int) : Nat := (n % 2 ^ 64).toNat

/-! ## Controllers -/

/-- `WebPkiClientVerifier`: the roots and the CRLs. -/
structure Verifier where
  roots : List String
  crls : List SignedCrl
  deriving DecidableEq

/-- A certificate is refused when its CA is not trusted; and, where there are CRLs, when
there is none of its CA, or the first one lists the serial number. -/
def Verifier.refuses (verifier : Verifier) (caFingerprint : String) (serial : List Nat) : Bool :=
  !verifier.roots.contains caFingerprint ||
    (!verifier.crls.isEmpty &&
      match verifier.crls.find? (·.issuer == caFingerprint) with
      | none => true
      | some crl => crl.lists serial)

/-- The fingerprints of the trusted CAs, of which there is at least one. -/
structure Issuers where
  first : String
  others : List String
  deriving DecidableEq

structure CaSnapshot where
  trustedCas : List String
  trustedCaKeys : List String
  bundle : List String
  deriving DecidableEq

def CaSnapshot.issuers (snapshot : CaSnapshot) : Except PkiError Issuers :=
  match snapshot.trustedCas with
  | [] => .error (.caValidation "no trusted CA material available")
  | first :: others =>
    match (first :: others).find? fun ca => !snapshot.trustedCaKeys.contains ca with
    | some ca => .error (.caValidation ("missing key for CA fingerprint " ++ ca))
    | none => .ok ⟨first, others⟩

/-- The `CrlManager` of a controller, with the verifier it has installed. -/
structure Manager (π : Type) where
  issuers : Issuers
  bundle : List String
  crlNumber : Nat
  verifier : Verifier
  crlPem : List π
  deriving DecidableEq

structure World (π : Type) where
  now : Int
  certificates : List ServiceCertificate
  crlCache : List (CrlCache π)
  managers : List (Manager π)

/-- What `build_initial_crls` has built so far, and returns. -/
structure InitialCrls (π : Type) where
  crls : List SignedCrl
  pem : List π
  startingCrlNumber : Nat
  deriving DecidableEq

/-! ## The calls -/

inductive RevocationTarget
  | certificate (caFingerprint serialNumber : String)
  | service (serviceId : Nat)
  deriving DecidableEq

def RevocationTarget.covers (cert : ServiceCertificate) : RevocationTarget → Bool
  | certificate caFingerprint serialNumber =>
    cert.caFingerprint == caFingerprint && cert.serialNumber == serialNumber
  | service serviceId => cert.serviceId == serviceId

inductive Operation
  | revoke (target : RevocationTarget) (reason : RevocationReason)
  | issue (caFingerprint serialNumber : String) (serviceId : Nat) (notAfter : Int)
  | updateCa (controller : Nat) (snapshot : CaSnapshot)
  | swapVerifier (controller : Nat)
  | buildInitialCrls (snapshot : CaSnapshot)
  deriving DecidableEq

inductive Answer (π : Type)
  | done
  | initialCrls (build : InitialCrls π)
  | failed (error : PkiError)
  deriving DecidableEq

inductive Frame (π : Type)
  | enter (operation : Operation)
  | revokeCommit (target : RevocationTarget) (reason : RevocationReason) (now : Int)
  | swapQuery (controller crlNumber : Nat) (ca : String) (rest : List String)
      (crls : List SignedCrl) (now : Int)
  | swapSign (controller crlNumber : Nat) (ca : String) (rest : List String)
      (crls : List SignedCrl) (revoked : List RevokedCertParams)
  | swapPersist (controller : Nat) (crls : List SignedCrl)
  | swapInsert (controller : Nat) (crl : SignedCrl) (crls : List SignedCrl) (now : Int)
  | swapUpdate (controller : Nat) (crl : SignedCrl) (crls : List SignedCrl) (now : Int)
  | bootLoad (snapshot : CaSnapshot) (rest : List String) (build : InitialCrls π)
  | bootLoaded (snapshot : CaSnapshot) (ca : String) (rest : List String)
      (build : InitialCrls π) (cached : Option (CrlCache π))
  | bootQuery (snapshot : CaSnapshot) (ca : String) (rest : List String)
      (build : InitialCrls π) (now : Int)
  | bootSign (snapshot : CaSnapshot) (ca : String) (rest : List String)
      (build : InitialCrls π) (revoked : List RevokedCertParams)
  | bootInsert (snapshot : CaSnapshot) (rest : List String) (build : InitialCrls π)
      (crl : SignedCrl) (now : Int)
  | bootUpdate (snapshot : CaSnapshot) (rest : List String) (build : InitialCrls π)
      (crl : SignedCrl) (now : Int)
  | returned (operation : Operation) (answer : Answer π)
  deriving DecidableEq

structure Choice where
  elapsed : Nat := 0
  fails : Bool := false

section Calls

variable {π : Type} (codec : PemCodec π)

def SignedCrl.row (crl : SignedCrl) (now : Int) : CrlCache π where
  caFingerprint := crl.issuer
  crlPem := codec.encode crl
  crlNumber := asI64 crl.crlNumber
  thisUpdate := crl.thisUpdate
  nextUpdate := crl.nextUpdate
  updatedAt := now

/-- The `INSERT` of `persist_crl_to_db`, which a row of the CA makes fail. -/
def persistInsert (crl : SignedCrl) (now : Int) (s : World π) : Option (World π) :=
  if s.crlCache.any (·.caFingerprint == crl.issuer) then none
  else some { s with crlCache := s.crlCache ++ [crl.row codec now] }

/-- The `UPDATE` of `persist_crl_to_db`. -/
def persistUpdate (crl : SignedCrl) (now : Int) (s : World π) : World π :=
  { s with
    crlCache := s.crlCache.map fun row =>
      if row.caFingerprint == crl.issuer then crl.row codec now else row }

/-- `try_load_crl_from_db`, with the row it has found. -/
def tryLoadCrlFromDb (now : Int) (ca : String) :
    Option (CrlCache π) → Except PkiError (Option (SignedCrl × CrlCache π))
  | none => .ok none
  | some row =>
    if row.nextUpdate ≤ now + hours 1 then .ok none
    else
      match codec.decode row.crlPem with
      | none => .error (.caValidation ("failed to parse cached CRL PEM for CA " ++ ca))
      | some crl => .ok (some (crl, row))

def InitialCrls.push (build : InitialCrls π) (crl : SignedCrl) (pem : π) : InitialCrls π :=
  { build with crls := build.crls ++ [crl], pem := build.pem ++ [pem] }

/-- A CRL of the cache, whose number the next ones have to exceed. -/
def InitialCrls.load (build : InitialCrls π) (crl : SignedCrl) (row : CrlCache π) :
    InitialCrls π :=
  { build.push crl row.crlPem with
    startingCrlNumber := max build.startingCrlNumber ((asU64 row.crlNumber + 1) % 2 ^ 64) }

def setManager (s : World π) (controller : Nat) (manager : Manager π) : World π :=
  { s with managers := s.managers.set controller manager }

def enter (s : World π) : Operation → World π × Frame π
  | .revoke target reason => (s, .revokeCommit target reason s.now)
  | .issue caFingerprint serialNumber serviceId notAfter =>
    let clash := s.certificates.any fun cert =>
      cert.caFingerprint == caFingerprint && cert.serialNumber == serialNumber
    let operation : Operation := .issue caFingerprint serialNumber serviceId notAfter
    if clash then (s, .returned operation (.failed .database))
    else
      ({ s with
          certificates := s.certificates ++
            [⟨caFingerprint, serialNumber, serviceId, notAfter, none, none⟩] },
        .returned operation .done)
  | .updateCa controller snapshot =>
    match s.managers[controller]? with
    | none => (s, .returned (.updateCa controller snapshot) (.failed .database))
    | some manager =>
      match snapshot.issuers with
      | .error error => (s, .returned (.updateCa controller snapshot) (.failed error))
      | .ok issuers =>
        (setManager s controller
          { manager with issuers := issuers, bundle := snapshot.bundle },
          .returned (.updateCa controller snapshot) .done)
  | .swapVerifier controller =>
    match s.managers[controller]? with
    | none => (s, .returned (.swapVerifier controller) (.failed .database))
    | some manager =>
      (setManager s controller
        { manager with crlNumber := (manager.crlNumber + 1) % 2 ^ 64 },
        .swapQuery controller manager.crlNumber manager.issuers.first
          manager.issuers.others [] s.now)
  | .buildInitialCrls snapshot =>
    if snapshot.trustedCas.isEmpty then
      (s, .returned (.buildInitialCrls snapshot)
        (.failed (.caValidation "no trusted CA material available")))
    else (s, .bootLoad snapshot snapshot.trustedCas ⟨[], [], 1⟩)

def execute (s : World π) : Frame π → World π × Frame π
  | .enter operation => enter s operation
  | .revokeCommit target reason now =>
    ({ s with
        certificates := s.certificates.map fun cert =>
          if target.covers cert && cert.revokedAt.isNone then
            { cert with revokedAt := some now, revocationReason := some reason }
          else cert },
      .returned (.revoke target reason) .done)
  | .swapQuery controller crlNumber ca rest crls now =>
    (s, .swapSign controller crlNumber ca rest crls
      (queryRevokedCertsForCa now s.certificates ca))
  | .swapSign controller crlNumber ca rest crls revoked =>
    let crls := crls ++ [signCrlWithTimes ca revoked crlNumber s.now]
    match rest with
    | next :: rest => (s, .swapQuery controller crlNumber next rest crls s.now)
    | [] =>
      -- The bundle is read here, not when the issuers are.
      match s.managers[controller]? with
      | none => (s, .returned (.swapVerifier controller) (.failed .database))
      | some manager =>
        (setManager s controller
          { manager with
            verifier := ⟨manager.bundle, crls⟩, crlPem := crls.map codec.encode },
          .swapPersist controller crls)
  | .swapPersist controller [] => (s, .returned (.swapVerifier controller) .done)
  | .swapPersist controller (crl :: crls) => (s, .swapInsert controller crl crls s.now)
  | .swapInsert controller crl crls now =>
    match persistInsert codec crl now s with
    | some s => (s, .swapPersist controller crls)
    | none => (s, .swapUpdate controller crl crls now)
  | .swapUpdate controller crl crls now =>
    (persistUpdate codec crl now s, .swapPersist controller crls)
  | .bootLoad snapshot [] build =>
    match snapshot.issuers with
    | .error error => (s, .returned (.buildInitialCrls snapshot) (.failed error))
    | .ok issuers =>
      ({ s with
          managers := s.managers ++
            [⟨issuers, snapshot.bundle, build.startingCrlNumber,
              ⟨snapshot.bundle, build.crls⟩, build.pem⟩] },
        .returned (.buildInitialCrls snapshot) (.initialCrls build))
  | .bootLoad snapshot (ca :: rest) build =>
    (s, .bootLoaded snapshot ca rest build (s.crlCache.find? (·.caFingerprint == ca)))
  | .bootLoaded snapshot ca rest build cached =>
    match tryLoadCrlFromDb codec s.now ca cached with
    | .error error => (s, .returned (.buildInitialCrls snapshot) (.failed error))
    | .ok (some (crl, row)) => (s, .bootLoad snapshot rest (build.load crl row))
    | .ok none =>
      if snapshot.trustedCaKeys.contains ca then (s, .bootQuery snapshot ca rest build s.now)
      else
        (s, .returned (.buildInitialCrls snapshot)
          (.failed (.caValidation ("missing key for CA fingerprint " ++ ca))))
  | .bootQuery snapshot ca rest build now =>
    (s, .bootSign snapshot ca rest build (queryRevokedCertsForCa now s.certificates ca))
  | .bootSign snapshot ca rest build revoked =>
    (s, .bootInsert snapshot rest build
      (signCrlWithTimes ca revoked build.startingCrlNumber s.now) s.now)
  | .bootInsert snapshot rest build crl now =>
    match persistInsert codec crl now s with
    | some s => (s, .bootLoad snapshot rest (build.push crl (codec.encode crl)))
    | none => (s, .bootUpdate snapshot rest build crl now)
  | .bootUpdate snapshot rest build crl now =>
    (persistUpdate codec crl now s,
      .bootLoad snapshot rest (build.push crl (codec.encode crl)))
  | .returned operation answer => (s, .returned operation answer)

/-- Where a call goes on when its step fails.  A CRL that cannot be written is only
reported. -/
def Frame.failed : Frame π → Frame π
  | enter operation => .returned operation (.failed .database)
  | revokeCommit target reason _ => .returned (.revoke target reason) (.failed .database)
  | swapQuery controller _ _ _ _ _ | swapSign controller _ _ _ _ _ =>
    .returned (.swapVerifier controller) (.failed .database)
  | swapPersist controller crls => .swapPersist controller crls
  | swapInsert controller crl crls now => .swapUpdate controller crl crls now
  | swapUpdate controller _ crls _ => .swapPersist controller crls
  | bootLoad snapshot _ _ | bootLoaded snapshot _ _ _ _ | bootQuery snapshot _ _ _ _
  | bootSign snapshot _ _ _ _ => .returned (.buildInitialCrls snapshot) (.failed .database)
  | bootInsert snapshot rest build crl now => .bootUpdate snapshot rest build crl now
  | bootUpdate snapshot rest build crl _ =>
    .bootLoad snapshot rest (build.push crl (codec.encode crl))
  | returned operation answer => .returned operation answer

def World.wait (s : World π) (elapsed : Nat) : World π := { s with now := s.now + elapsed }

def step (choice : Choice) (s : World π) (f : Frame π) : World π × Frame π :=
  if choice.fails then (s.wait choice.elapsed, f.failed codec)
  else execute codec (s.wait choice.elapsed) f

def controllers : Calls Operation Choice (World π) (Frame π) where
  enter := .enter
  step := step codec

end Calls

end Uptrakit.Pki.Crl
