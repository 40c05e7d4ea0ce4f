import Uptrakit.Concurrent.Keys
import Uptrakit.Text.Basic

/-!
# Refresh tokens

A refresh token is a row with the hash of the token
(`crates/ui/web-api/src/oauth/services/refresh_token.rs`).  The tokens that come from one
another by rotation are a family.  `rotate` inserts a successor of the row of the token it is
given and sets `rotated_at`, in one transaction that reads committed data.  For a token that was
rotated or revoked before it revokes the family instead, with one `UPDATE` of several rows: it
looks the rows up when it begins, and reaches them one by one, waiting for the transactions that
have written them.

The model has one step for each SQL statement, and one for each row that the `UPDATE` of a family
reaches.  A statement may fail, which ends the call and rolls its transaction back.  Times are
Unix times in seconds.
-/

namespace Uptrakit.Oauth.RefreshToken

open Concurrent

open Text (isWhitespace)

abbrev Uuid := Nat

/-- A row of `oauth_refresh_tokens`. -/
structure Token where
  id : Uuid
  familyId : Uuid
  parentId : Option Uuid
  tokenHash : String
  clientId : String
  userId : Uuid
  consentId : Uuid
  scope : String
  resource : String
  issuedAt : Int
  expiresAt : Int
  familyExpiresAt : Int
  rotatedAt : Option Int
  revokedAt : Option Int
  deriving DecidableEq

def Token.clash (a b : Token) : Bool := a.id == b.id || a.tokenHash == b.tokenHash

inductive OAuthRefreshError
  | invalidGrant (reason : String)
  | invalidTarget
  | invalidScope
  | consentRevoked
  | jwt
  | database
  deriving DecidableEq

structure McpAccessTokenClaims where
  iss : String
  sub : Uuid
  aud : String
  clientId : String
  scope : String
  jti : Uuid
  iat : Int
  nbf : Int
  exp : Int
  tenantId : Uuid

/-- The fields of `OAuthRefreshTokenService`, and `hash_token`. -/
structure Service where
  hashToken : String → String
  /-- `signer.mint`. -/
  sign : McpAccessTokenClaims → Option String
  issuer : String
  accessTokenTtlSecs : Int
  refreshTokenTtlSecs : Int
  refreshFamilyMaxTtlSecs : Int

structure RotationOutcome where
  accessToken : String
  refreshToken : String
  expiresIn : Int
  refreshExpiresIn : Int
  scope : String
  deriving DecidableEq

/-- The arguments of `mint`, and what it generates. -/
structure Mint where
  clientId : String
  userId : Uuid
  consentId : Uuid
  scope : String
  resource : String
  id : Uuid
  familyId : Uuid
  token : String

/-- The row that `mint` inserts. -/
def Mint.row (service : Service) (now : Int) (mint : Mint) : Token where
  id := mint.id
  familyId := mint.familyId
  parentId := none
  tokenHash := service.hashToken mint.token
  clientId := mint.clientId
  userId := mint.userId
  consentId := mint.consentId
  scope := mint.scope
  resource := mint.resource
  issuedAt := now
  expiresAt := now + service.refreshTokenTtlSecs
  familyExpiresAt := now + service.refreshFamilyMaxTtlSecs
  rotatedAt := none
  revokedAt := none

/-- The arguments of `rotate`, and what it generates. -/
structure Rotation where
  refreshToken : String
  clientId : String
  requestedScope : Option String
  resource : String
  newId : Uuid
  newToken : String
  jti : Uuid
  deriving DecidableEq

inductive Answer
  | rotated (outcome : RotationOutcome)
  | error (error : OAuthRefreshError)
  deriving DecidableEq

/-- The points at which a call stands between two statements, with its local variables. -/
inductive Frame
  | begin (call : Rotation)
  | find (call : Rotation) (now : Int)
  | revokeScan (call : Rotation) (now : Int) (row : Token)
  | revokeRows (call : Rotation) (now : Int) (row : Token) (todo : List Nat)
  | consent (call : Rotation) (now : Int) (row : Token) (scope : String)
  | insert (call : Rotation) (now : Int) (row : Token) (scope : String)
  | mark (call : Rotation) (now : Int) (row : Token) (scope : String)
  | tenant (call : Rotation) (now : Int) (row : Token) (scope : String)
  | commit (call : Rotation) (now : Int) (row : Token) (scope : String) (tenantId : Uuid)
  | sign (call : Rotation) (now : Int) (row : Token) (scope : String) (tenantId : Uuid)
  | abort (call : Rotation) (error : OAuthRefreshError)
  | returned (call : Rotation) (answer : Answer)
  deriving DecidableEq

/-- What a step cannot know: whether it fails, the clock, and what is in the other tables, the
consent if it is active and the tenant of the user. -/
structure Choice where
  fails : Bool := false
  now : Int := 0
  consentActive : Bool := true
  tenantId : Option Uuid := some 0

def Frame.call : Frame → Rotation
  | begin call | find call _ | revokeScan call _ _ | revokeRows call _ _ _ | consent call _ _ _ =>
    call
  | insert call _ _ _ | mark call _ _ _ | tenant call _ _ _ | commit call _ _ _ _ => call
  | sign call _ _ _ _ | abort call _ | returned call _ => call

def splitWhitespace (s : String) : List String :=
  ((s.toList.splitOnP isWhitespace).filter (· ≠ [])).map String.ofList

def effectiveScope (bound : String) : Option String → Except OAuthRefreshError String
  | some requested =>
    if requested = "" then .ok bound
    else if (splitWhitespace requested).all ((splitWhitespace bound).contains ·) then
      .ok requested
    else .error .invalidScope
  | none => .ok bound

/-- The checks of `rotate` on a live row. -/
def check (call : Rotation) (now : Int) (row : Token) : Except OAuthRefreshError String :=
  if row.expiresAt ≤ now then .error (.invalidGrant "refresh_token_expired")
  else if row.familyExpiresAt ≤ now then .error (.invalidGrant "family_expired")
  else if row.clientId ≠ call.clientId then .error (.invalidGrant "client_mismatch")
  else if row.resource ≠ call.resource then .error .invalidTarget
  else effectiveScope row.scope call.requestedScope

section Calls

variable (service : Service)

def newExpiresAt (now : Int) (row : Token) : Int :=
  min (now + service.refreshTokenTtlSecs) row.familyExpiresAt

/-- The row that `rotate` inserts. -/
def successor (call : Rotation) (now : Int) (row : Token) (scope : String) : Token where
  id := call.newId
  familyId := row.familyId
  parentId := some row.id
  tokenHash := service.hashToken call.newToken
  clientId := row.clientId
  userId := row.userId
  consentId := row.consentId
  scope := scope
  resource := row.resource
  issuedAt := now
  expiresAt := newExpiresAt service now row
  familyExpiresAt := row.familyExpiresAt
  rotatedAt := none
  revokedAt := none

def mintAccessToken (call : Rotation) (now : Int) (row : Token) (scope : String)
    (tenantId : Uuid) : Option String :=
  service.sign ⟨service.issuer, row.userId, call.resource, row.clientId, scope, call.jti, now, now,
    now + service.accessTokenTtlSecs, tenantId⟩

/-- `revoke_family` is about the row. -/
def Token.active (familyId : Uuid) (row : Token) : Bool :=
  row.familyId == familyId && row.revokedAt.isNone

def execute (choice : Choice) (rows : List (Option Token)) : Frame → Act Token Frame
  | .begin call => .next (.find call choice.now)
  | .find call now =>
    let tokenHash := service.hashToken call.refreshToken
    match selectOne (tableWhere some (·.tokenHash == tokenHash)) rows with
    | none => .rollback (.returned call (.error (.invalidGrant "token_not_found")))
    | some (_, row) =>
      if row.revokedAt.isSome || row.rotatedAt.isSome then .next (.revokeScan call now row)
      else
        match check call now row with
        | .error error => .rollback (.returned call (.error error))
        | .ok scope => .next (.consent call now row scope)
  | .revokeScan call now row =>
    .next (.revokeRows call now row
      ((select (tableWhere some (Token.active row.familyId)) rows).map Prod.fst))
  | .revokeRows call _ _ [] =>
    .commit (.returned call (.error (.invalidGrant "replay_detected")))
  | .revokeRows call now row (i :: todo) =>
    -- The condition is looked at again, on the version that is there now.
    match (rows[i]?).join with
    | none => .next (.revokeRows call now row todo)
    | some current =>
      if current.active row.familyId then
        .write i (some { current with revokedAt := some now }) (.revokeRows call now row todo)
      else .next (.revokeRows call now row todo)
  | .consent call now row scope =>
    if choice.consentActive then .next (.insert call now row scope)
    else .rollback (.returned call (.error .consentRevoked))
  | .insert call now row scope =>
    .insert (successor service call now row scope) (.mark call now row scope)
      (.abort call .database)
  | .mark call now row scope =>
    match selectOne (tableWhere some (·.id == row.id)) rows with
    | none => .rollback (.returned call (.error .database))
    | some (i, current) =>
      .write i (some { current with rotatedAt := some now }) (.tenant call now row scope)
  | .tenant call now row scope =>
    match choice.tenantId with
    | none => .rollback (.returned call (.error .database))
    | some tenantId => .next (.commit call now row scope tenantId)
  | .commit call now row scope tenantId => .commit (.sign call now row scope tenantId)
  | .sign call now row scope tenantId =>
    match mintAccessToken service call now row scope tenantId with
    | none => .next (.returned call (.error .jwt))
    | some accessToken =>
      .next (.returned call (.rotated ⟨accessToken, call.newToken, service.accessTokenTtlSecs,
        newExpiresAt service now row - now, scope⟩))
  | .abort call error => .rollback (.returned call (.error error))
  | .returned call answer => .next (.returned call answer)

/-- A call that has committed does not execute statements any more. -/
def Frame.committed : Frame → Bool
  | sign .. | returned .. => true
  | _ => false

def step (choice : Choice) (rows : List (Option Token)) (f : Frame) : Act Token Frame :=
  if choice.fails && !f.committed then .rollback (.returned f.call (.error .database))
  else execute service choice rows f

/-- The calls of `rotate`. -/
def rotations : Transactions Rotation Choice Token Frame where
  enter := .begin
  step := step service
  clash := Token.clash

end Calls

end Uptrakit.Oauth.RefreshToken
