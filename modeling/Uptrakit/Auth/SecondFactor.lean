import Uptrakit.Auth.Denylist
import Uptrakit.Concurrent.Keys

/-!
# Second factors

`mfa_verify` answers a challenge with a TOTP code, a code sent by email or a
recovery code; `re_auth_ok` asks for a password or a TOTP code again.  Both read a
row, compare the code that was submitted, and write the row back, in a transaction
that reads committed data.  The writes are addressed by primary key, without a
condition on what has been read.

The model has one step for each SQL statement and one for each comparison, which
runs outside of the database.  A statement may fail, which ends the call and rolls
its transaction back.
-/

namespace Uptrakit.Auth.SecondFactor

open Concurrent

/-- A row of `mfa_challenges`. -/
structure MfaChallenge where
  id : Uuid
  userId : Uuid
  tokenHash : String
  emailCodeHash : Option String
  attemptCount : Int
  expiresAt : Int
  consumedAt : Option Int
  deriving DecidableEq

/-- A row of `user_totp`. -/
structure UserTotp where
  id : Uuid
  userId : Uuid
  secret : String
  isActive : Bool
  lastUsedStep : Option Int
  deriving DecidableEq

/-- A row of `user_recovery_codes`. -/
structure UserRecoveryCode where
  id : Uuid
  userId : Uuid
  codeHash : String
  usedAt : Option Int
  deriving DecidableEq

/-- A row of `users`. -/
structure User where
  id : Uuid
  isActive : Bool
  passwordHash : Option String
  deriving DecidableEq

inductive Row
  | challenge (challenge : MfaChallenge)
  | totp (totp : UserTotp)
  | recoveryCode (code : UserRecoveryCode)
  | user (user : User)
  deriving DecidableEq

def Row.clash : Row → Row → Bool
  | .challenge a, .challenge b => a.id == b.id || a.tokenHash == b.tokenHash
  | .totp a, .totp b => a.id == b.id || a.userId == b.userId
  | .recoveryCode a, .recoveryCode b => a.id == b.id
  | .user a, .user b => a.id == b.id
  | _, _ => false

def Row.challenge? : Row → Option MfaChallenge
  | .challenge row => some row
  | _ => none

def Row.totp? : Row → Option UserTotp
  | .totp row => some row
  | _ => none

def Row.recoveryCode? : Row → Option UserRecoveryCode
  | .recoveryCode row => some row
  | _ => none

def Row.user? : Row → Option User
  | .user row => some row
  | _ => none

/-- The cryptography that the calls use.  `verifyTotpCode` returns the time step that
the code belongs to at a time; `none` of the other checks is an error. -/
structure Crypto where
  hashToken : String → String
  verifyTotpCode (now : Int) (secret code : String) : Option Int
  verifyEmailOtp (code hash : String) : Option Bool
  verifyRecoveryCode (code hash : String) : Bool
  verifyPassword (password hash : String) : Option Bool

inductive MfaMethod
  | totp
  | email
  | recoveryCode
  | unsupported
  deriving DecidableEq

structure MfaVerifyRequest where
  mfaToken : String
  method : MfaMethod
  code : String
  deriving DecidableEq

inductive Operation
  | mfaVerify (req : MfaVerifyRequest)
  | reAuth (userId : Uuid) (password totpCode : Option String)
  deriving DecidableEq

inductive Factor
  | totp (totpId : Uuid) (step : Int)
  | recoveryCode (codeId : Uuid)
  | email
  deriving DecidableEq

inductive StatusCode
  | badRequest
  | unauthorized
  | internalServerError
  deriving DecidableEq

/-- What a call returns.  An error of `mfa_verify` says which factor had been accepted
when it occurred; `reAuth` says which factor stands behind a `true`. -/
inductive Answer
  | session (factor : Factor)
  | invalid (exhausted : Bool)
  | error (accepted : Option Factor) (status : StatusCode) (message : String)
  | reAuth (ok : Bool) (accepted : Option Factor)
  deriving DecidableEq

/-- The points at which a call stands between two statements, with its local
variables. -/
inductive Frame
  | load (req : MfaVerifyRequest)
  | loadTotp (req : MfaVerifyRequest) (ch : MfaChallenge)
  | compareTotp (req : MfaVerifyRequest) (ch : MfaChallenge) (totp : UserTotp)
  | writeTotp (req : MfaVerifyRequest) (ch : MfaChallenge) (totp : UserTotp) (step : Int)
  | compareEmail (req : MfaVerifyRequest) (ch : MfaChallenge) (hash : String)
  | loadCodes (req : MfaVerifyRequest) (ch : MfaChallenge)
  | compareCodes (req : MfaVerifyRequest) (ch : MfaChallenge) (codes : List UserRecoveryCode)
  | writeCode (req : MfaVerifyRequest) (ch : MfaChallenge) (codeId : Uuid)
  | recordFailure (req : MfaVerifyRequest) (ch : MfaChallenge)
  | commitFailure (req : MfaVerifyRequest) (ch : MfaChallenge) (exhausted : Bool)
  | consume (req : MfaVerifyRequest) (ch : MfaChallenge) (factor : Factor)
  | commitSuccess (req : MfaVerifyRequest) (ch : MfaChallenge) (factor : Factor)
  | loadUser (req : MfaVerifyRequest) (ch : MfaChallenge) (factor : Factor)
  | buildSession (req : MfaVerifyRequest) (ch : MfaChallenge) (factor : Factor)
  | reAuthUser (userId : Uuid) (password : String) (totpCode : Option String)
  | reAuthPassword (userId : Uuid) (password : String) (totpCode : Option String) (hash : String)
  | reAuthLoad (userId : Uuid) (code : String)
  | reAuthCompare (userId : Uuid) (code : String) (totp : UserTotp)
  | reAuthWrite (userId : Uuid) (code : String) (totp : UserTotp) (step : Int)
  | reAuthCommit (userId : Uuid) (code : String) (factor : Factor)
  | returned (operation : Operation) (answer : Answer)
  deriving DecidableEq

structure Choice where
  fails : Bool := false
  now : Int := 0

def Operation.enter : Operation → Frame
  | mfaVerify req => .load req
  | reAuth userId (some password) totpCode => .reAuthUser userId password totpCode
  | reAuth userId none (some code) => .reAuthLoad userId code
  | reAuth userId none none => .returned (.reAuth userId none none) (.reAuth false none)

def maxMfaAttempts : Int := 5

/-- `load_valid_challenge`, from the row it has loaded: the message of the error. -/
def checkChallenge (now : Int) : Option MfaChallenge → Except String MfaChallenge
  | none => .error "Invalid or expired MFA token"
  | some challenge =>
    if challenge.consumedAt.isSome then .error "Invalid or expired MFA token"
    else if challenge.expiresAt ≤ now then .error "MFA token has expired"
    else if maxMfaAttempts ≤ challenge.attemptCount then .error "Too many failed attempts"
    else .ok challenge

/-- The columns that `record_failed_attempt` writes, from the count it has read. -/
def recordFailedAttempt (now : Int) (read : MfaChallenge) (row : MfaChallenge) : MfaChallenge :=
  { row with
    attemptCount := read.attemptCount + 1
    consumedAt :=
      if maxMfaAttempts ≤ read.attemptCount + 1 then some now else row.consumedAt }

def findMatchingRecoveryCode (crypto : Crypto) (codes : List UserRecoveryCode)
    (plaintext : String) : Option Uuid :=
  ((codes.filter (·.usedAt.isNone)).find?
    fun code => crypto.verifyRecoveryCode plaintext code.codeHash).map (·.id)

section Calls

variable (crypto : Crypto) (choice : Choice) (rows : List (Option Row))

/-- `mfa_verify` with the challenge it has loaded. -/
def selectMethod (req : MfaVerifyRequest) (ch : MfaChallenge) : Act Row Frame :=
  match req.method with
  | .totp => .next (.loadTotp req ch)
  | .email =>
    match ch.emailCodeHash with
    | some hash => .next (.compareEmail req ch hash)
    | none =>
      .rollback (.returned (.mfaVerify req)
        (.error none .unauthorized "No email OTP issued for this challenge"))
  | .recoveryCode => .next (.loadCodes req ch)
  | .unsupported =>
    .rollback (.returned (.mfaVerify req) (.error none .badRequest "Unsupported MFA method"))

def findTotp (userId : Uuid) : Option (Nat × UserTotp) :=
  selectOne (tableWhere Row.totp? fun totp => totp.userId == userId && totp.isActive) rows

/-- The step that a code is accepted for: a step must not be used again. -/
def acceptedStep (totp : UserTotp) (code : String) : Option Int :=
  (crypto.verifyTotpCode choice.now totp.secret code).filter
    fun step => !totp.lastUsedStep.any fun last => step ≤ last

/-- The update of `last_used_step`, which fails when the row is gone. -/
def updateTotp (totp : UserTotp) (step : Int) (done gone : Frame) : Act Row Frame :=
  match selectOne (tableWhere Row.totp? (·.id == totp.id)) rows with
  | none => .rollback gone
  | some (i, row) => .write i (some (.totp { row with lastUsedStep := some step })) done

/-- The update of a challenge, which fails when the row is gone. -/
def updateChallenge (ch : MfaChallenge) (change : MfaChallenge → MfaChallenge)
    (done gone : Frame) : Act Row Frame :=
  match selectOne (tableWhere Row.challenge? (·.id == ch.id)) rows with
  | none => .rollback gone
  | some (i, row) => .write i (some (.challenge (change row))) done

def execute : Frame → Act Row Frame
  | .load req =>
    let tokenHash := crypto.hashToken req.mfaToken
    let found := selectOne (tableWhere Row.challenge? (·.tokenHash == tokenHash)) rows
    match checkChallenge choice.now (found.map Prod.snd) with
    | .error message =>
      .rollback (.returned (.mfaVerify req) (.error none .unauthorized message))
    | .ok ch => selectMethod req ch
  | .loadTotp req ch =>
    match findTotp rows ch.userId with
    | none =>
      .rollback (.returned (.mfaVerify req) (.error none .unauthorized "TOTP not enrolled"))
    | some (_, totp) => .next (.compareTotp req ch totp)
  | .compareTotp req ch totp =>
    match acceptedStep crypto choice totp req.code with
    | none => .next (.recordFailure req ch)
    | some step => .next (.writeTotp req ch totp step)
  | .writeTotp req ch totp step =>
    updateTotp rows totp step (.consume req ch (.totp totp.id step))
      (.returned (.mfaVerify req) (.error none .internalServerError "Internal server error"))
  | .compareEmail req ch hash =>
    match crypto.verifyEmailOtp req.code hash with
    | none =>
      .rollback (.returned (.mfaVerify req)
        (.error none .internalServerError "Internal server error"))
    | some true => .next (.consume req ch .email)
    | some false => .next (.recordFailure req ch)
  | .loadCodes req ch =>
    let codes := select (tableWhere Row.recoveryCode? (·.userId == ch.userId)) rows
    .next (.compareCodes req ch (codes.map Prod.snd))
  | .compareCodes req ch codes =>
    match findMatchingRecoveryCode crypto codes req.code with
    | none => .next (.recordFailure req ch)
    | some codeId => .next (.writeCode req ch codeId)
  | .writeCode req ch codeId =>
    -- `consume_recovery_code` does not look at the number of rows it has updated.
    match selectOne (tableWhere Row.recoveryCode? (·.id == codeId)) rows with
    | none => .next (.consume req ch (.recoveryCode codeId))
    | some (i, row) =>
      .write i (some (.recoveryCode { row with usedAt := some choice.now }))
        (.consume req ch (.recoveryCode codeId))
  | .recordFailure req ch =>
    updateChallenge rows ch (recordFailedAttempt choice.now ch)
      (.commitFailure req ch (decide (maxMfaAttempts ≤ ch.attemptCount + 1)))
      (.returned (.mfaVerify req) (.error none .internalServerError "Internal server error"))
  | .commitFailure req _ exhausted =>
    .commit (.returned (.mfaVerify req) (.invalid exhausted))
  | .consume req ch factor =>
    updateChallenge rows ch (fun row => { row with consumedAt := some choice.now })
      (.commitSuccess req ch factor)
      (.returned (.mfaVerify req) (.error none .internalServerError "Internal server error"))
  | .commitSuccess req ch factor => .commit (.loadUser req ch factor)
  | .loadUser req ch factor =>
    match selectOne (tableWhere Row.user? (·.id == ch.userId)) rows with
    | none =>
      .next (.returned (.mfaVerify req)
        (.error (some factor) .unauthorized "User not found"))
    | some (_, user) =>
      if user.isActive then .next (.buildSession req ch factor)
      else
        .next (.returned (.mfaVerify req)
          (.error (some factor) .unauthorized "Invalid credentials"))
  | .buildSession req _ factor => .next (.returned (.mfaVerify req) (.session factor))
  | .reAuthUser userId password totpCode =>
    let rejected : Frame :=
      .returned (.reAuth userId (some password) totpCode) (.reAuth false none)
    match (selectOne (tableWhere Row.user? (·.id == userId)) rows).bind (·.2.passwordHash) with
    | none => .next rejected
    | some hash => .next (.reAuthPassword userId password totpCode hash)
  | .reAuthPassword userId password totpCode hash =>
    .next (.returned (.reAuth userId (some password) totpCode)
      (.reAuth ((crypto.verifyPassword password hash).getD false) none))
  | .reAuthLoad userId code =>
    match findTotp rows userId with
    | none => .rollback (.returned (.reAuth userId none (some code)) (.reAuth false none))
    | some (_, totp) => .next (.reAuthCompare userId code totp)
  | .reAuthCompare userId code totp =>
    match acceptedStep crypto choice totp code with
    | none => .rollback (.returned (.reAuth userId none (some code)) (.reAuth false none))
    | some step => .next (.reAuthWrite userId code totp step)
  | .reAuthWrite userId code totp step =>
    updateTotp rows totp step (.reAuthCommit userId code (.totp totp.id step))
      (.returned (.reAuth userId none (some code)) (.reAuth false none))
  | .reAuthCommit userId code factor =>
    .commit (.returned (.reAuth userId none (some code)) (.reAuth true (some factor)))
  | .returned operation answer => .next (.returned operation answer)

end Calls

/-- How a call ends when its step fails.  A failed attempt is answered as such also when
its commit fails. -/
def Frame.failed : Frame → Frame
  | load req | loadTotp req _ | compareTotp req _ _ | writeTotp req _ _ _ =>
    .returned (.mfaVerify req) (.error none .internalServerError "Internal server error")
  | compareEmail req _ _ | loadCodes req _ | compareCodes req _ _ | writeCode req _ _ =>
    .returned (.mfaVerify req) (.error none .internalServerError "Internal server error")
  | recordFailure req _ | consume req _ _ | commitSuccess req _ _ =>
    .returned (.mfaVerify req) (.error none .internalServerError "Internal server error")
  | commitFailure req _ exhausted => .returned (.mfaVerify req) (.invalid exhausted)
  | loadUser req _ factor | buildSession req _ factor =>
    .returned (.mfaVerify req)
      (.error (some factor) .internalServerError "Internal server error")
  | reAuthUser userId password totpCode | reAuthPassword userId password totpCode _ =>
    .returned (.reAuth userId (some password) totpCode) (.reAuth false none)
  | reAuthLoad userId code | reAuthCompare userId code _ =>
    .returned (.reAuth userId none (some code)) (.reAuth false none)
  | reAuthWrite userId code _ _ | reAuthCommit userId code _ =>
    .returned (.reAuth userId none (some code)) (.reAuth false none)
  | returned operation answer => .returned operation answer

def step (crypto : Crypto) (choice : Choice) (rows : List (Option Row)) (f : Frame) :
    Act Row Frame :=
  match f with
  | .returned operation answer => .next (.returned operation answer)
  | f => if choice.fails then .rollback f.failed else execute crypto choice rows f

def secondFactors (crypto : Crypto) : Transactions Operation Choice Row Frame where
  enter := Operation.enter
  step := step crypto
  clash := Row.clash

end Uptrakit.Auth.SecondFactor
