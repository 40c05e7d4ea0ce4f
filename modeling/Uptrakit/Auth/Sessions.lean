import Uptrakit.Auth.Denylist
import Uptrakit.Concurrent.Keys

/-!
# Web sessions

A session is a row with the hash of a refresh token.  `rotate_refresh_token` revokes
the row of the token it is given and inserts a successor with a new token, in one
transaction that reads committed data.  `delete_user_sessions` is one statement; it
deletes the rows that it has seen when it began, and waits for the transactions that
have written one of them.

The model has one step for each SQL statement, and one for each row that a `DELETE`
reaches.  A statement may fail, which ends the call and rolls its transaction back.
-/

namespace Uptrakit.Auth.Sessions

open Concurrent

inductive AuthMethod
  | password
  | oidc (providerId : Uuid)
  | apiToken
  deriving DecidableEq

def AuthMethod.fromSession (kind : String) (oidcProviderId : Option Uuid) : Option AuthMethod :=
  if kind = "password" then some .password
  else if kind = "oidc" then oidcProviderId.map .oidc
  else if kind = "api_token" then some .apiToken
  else none

/-- The column `auth_method`. -/
def AuthMethod.kind : AuthMethod → String
  | .password => "password"
  | .oidc _ => "oidc"
  | .apiToken => "api_token"

/-- The column `oidc_provider_id`. -/
def AuthMethod.oidcProviderId : AuthMethod → Option Uuid
  | .oidc providerId => some providerId
  | _ => none

/-- A row of `sessions`. -/
structure Session where
  id : Uuid
  userId : Uuid
  refreshTokenHash : String
  authMethod : String
  oidcProviderId : Option Uuid
  createdAt : Int
  expiresAt : Int
  revokedAt : Option Int
  userAgent : Option String
  ipAddress : Option String
  deriving DecidableEq

def Session.clash (a b : Session) : Bool :=
  a.id == b.id || a.refreshTokenHash == b.refreshTokenHash

structure VerifiedSession where
  userId : Uuid
  authMethod : AuthMethod
  deriving DecidableEq

inductive AuthError
  | invalidRefreshToken
  | refreshTokenRevoked
  | refreshTokenExpired
  | invalidSession
  | tokenGeneration
  | database
  deriving DecidableEq

/-- The lifetime of a refresh token in seconds: `REFRESH_TOKEN_EXPIRY_DAYS` is 7. -/
def refreshTokenExpiry : Int := 7 * 24 * 60 * 60

/-- What `generate_uuid` and `generate_secure_token` return in a call. -/
structure Draw where
  id : Uuid
  token : Option String
  deriving DecidableEq

/-- The arguments of `create_refresh_token`. -/
structure Login where
  userId : Uuid
  authMethod : AuthMethod
  userAgent : Option String
  ipAddress : Option String
  deriving DecidableEq

/-- The rows that a `DELETE` is about: `delete_user_sessions`,
`delete_user_sessions_except` and `cleanup_expired_sessions`. -/
inductive Scope
  | user (userId : Uuid)
  | userExcept (userId exceptSessionId : Uuid)
  | expired (now : Int)
  deriving DecidableEq

def Scope.covers (session : Session) : Scope → Bool
  | user userId => session.userId == userId
  | userExcept userId exceptSessionId =>
    session.userId == userId && session.id != exceptSessionId
  | expired now => decide (session.expiresAt < now)

inductive Operation
  | create (login : Login) (draw : Draw)
  | verify (token : String)
  | rotate (token : String) (draw : Draw)
  | revoke (token : String)
  | delete (scope : Scope)
  deriving DecidableEq

inductive Answer
  | created (token : String)
  | verified (session : VerifiedSession)
  | rotated (session : VerifiedSession) (token : String)
  | revoked
  | deleted (rowsAffected : Nat)
  | error (error : AuthError)
  deriving DecidableEq

/-- The points at which a call stands between two statements, with its local
variables. -/
inductive Frame
  | createInsert (login : Login) (draw : Draw)
  | createCommit (login : Login) (draw : Draw) (token : String)
  | verifyFind (token : String)
  | rotateFind (token : String) (draw : Draw)
  | rotateRevoke (token : String) (draw : Draw) (session : Session) (now : Int)
  | rotateInsert (token : String) (draw : Draw) (session : Session) (now : Int)
  | rotateCommit (token : String) (draw : Draw) (session : Session) (verified : VerifiedSession)
      (newToken : String)
  | revokeFind (token : String)
  | revokeUpdate (token : String) (session : Session) (now : Int)
  | revokeCommit (token : String)
  | deleteScan (scope : Scope)
  | deleteRows (scope : Scope) (todo : List Nat) (deleted : Nat)
  | abort (operation : Operation) (error : AuthError)
  | returned (operation : Operation) (answer : Answer)
  deriving DecidableEq

structure Choice where
  fails : Bool := false
  now : Int := 0

def Operation.enter : Operation → Frame
  | create login draw => .createInsert login draw
  | verify token => .verifyFind token
  | rotate token draw => .rotateFind token draw
  | revoke token => .revokeFind token
  | delete scope => .deleteScan scope

def Frame.operation : Frame → Operation
  | createInsert login draw | createCommit login draw _ => .create login draw
  | verifyFind token => .verify token
  | rotateFind token draw | rotateRevoke token draw _ _ => .rotate token draw
  | rotateInsert token draw _ _ | rotateCommit token draw _ _ _ => .rotate token draw
  | revokeFind token | revokeUpdate token _ _ | revokeCommit token => .revoke token
  | deleteScan scope | deleteRows scope _ _ => .delete scope
  | abort operation _ | returned operation _ => operation

/-- The checks of `verify_refresh_token` and `rotate_refresh_token` on the row they have
found. -/
def checkSession (now : Int) : Option Session → Except AuthError Session
  | none => .error .invalidRefreshToken
  | some session =>
    if session.revokedAt.isSome then .error .refreshTokenRevoked
    else if session.expiresAt ≤ now then .error .refreshTokenExpired
    else .ok session

/-- The row that `create_refresh_token` inserts. -/
def Login.session (login : Login) (id : Uuid) (tokenHash : String) (now : Int) : Session where
  id := id
  userId := login.userId
  refreshTokenHash := tokenHash
  authMethod := login.authMethod.kind
  oidcProviderId := login.authMethod.oidcProviderId
  createdAt := now
  expiresAt := now + refreshTokenExpiry
  revokedAt := none
  userAgent := login.userAgent
  ipAddress := login.ipAddress

/-- The row that `rotate_refresh_token` inserts. -/
def Session.successor (session : Session) (id : Uuid) (tokenHash : String) (now : Int) :
    Session where
  id := id
  userId := session.userId
  refreshTokenHash := tokenHash
  authMethod := session.authMethod
  oidcProviderId := session.oidcProviderId
  createdAt := now
  expiresAt := now + refreshTokenExpiry
  revokedAt := none
  userAgent := session.userAgent
  ipAddress := session.ipAddress

section Calls

variable (hashToken : String → String) (choice : Choice) (rows : List (Option Session))

def findByToken (token : String) : Option (Nat × Session) :=
  selectOne (tableWhere some (·.refreshTokenHash == hashToken token)) rows

/-- The update of `revoked_at`, by primary key, which fails when the row is gone. -/
def updateRevokedAt (session : Session) (now : Int) (done gone : Frame) : Act Session Frame :=
  match selectOne (tableWhere some (·.id == session.id)) rows with
  | none => .rollback gone
  | some (i, row) => .write i (some { row with revokedAt := some now }) done

def execute : Frame → Act Session Frame
  | .createInsert login draw =>
    match draw.token with
    | none => .next (.returned (.create login draw) (.error .tokenGeneration))
    | some token =>
      .insert (login.session draw.id (hashToken token) choice.now)
        (.createCommit login draw token) (.abort (.create login draw) .database)
  | .createCommit login draw token => .commit (.returned (.create login draw) (.created token))
  | .verifyFind token =>
    match checkSession choice.now ((findByToken hashToken rows token).map Prod.snd) with
    | .error error => .next (.returned (.verify token) (.error error))
    | .ok session =>
      match AuthMethod.fromSession session.authMethod session.oidcProviderId with
      | none => .next (.returned (.verify token) (.error .invalidSession))
      | some authMethod =>
        .next (.returned (.verify token) (.verified ⟨session.userId, authMethod⟩))
  | .rotateFind token draw =>
    match checkSession choice.now ((findByToken hashToken rows token).map Prod.snd) with
    | .error error => .rollback (.returned (.rotate token draw) (.error error))
    | .ok session => .next (.rotateRevoke token draw session choice.now)
  | .rotateRevoke token draw session now =>
    updateRevokedAt rows session now (.rotateInsert token draw session now)
      (.returned (.rotate token draw) (.error .database))
  | .rotateInsert token draw session now =>
    match AuthMethod.fromSession session.authMethod session.oidcProviderId with
    | none => .rollback (.returned (.rotate token draw) (.error .invalidSession))
    | some authMethod =>
      match draw.token with
      | none => .rollback (.returned (.rotate token draw) (.error .tokenGeneration))
      | some newToken =>
        .insert (session.successor draw.id (hashToken newToken) now)
          (.rotateCommit token draw session ⟨session.userId, authMethod⟩ newToken)
          (.abort (.rotate token draw) .database)
  | .rotateCommit token draw _ verified newToken =>
    .commit (.returned (.rotate token draw) (.rotated verified newToken))
  | .revokeFind token =>
    match findByToken hashToken rows token with
    | none => .next (.returned (.revoke token) .revoked)
    | some (_, session) => .next (.revokeUpdate token session choice.now)
  | .revokeUpdate token session now =>
    updateRevokedAt rows session now (.revokeCommit token)
      (.returned (.revoke token) (.error .database))
  | .revokeCommit token => .commit (.returned (.revoke token) .revoked)
  | .deleteScan scope =>
    .next (.deleteRows scope
      ((select (tableWhere some (scope.covers ·)) rows).map Prod.fst) 0)
  | .deleteRows scope [] deleted => .commit (.returned (.delete scope) (.deleted deleted))
  | .deleteRows scope (i :: todo) deleted =>
    -- The condition is looked at again, on the version that is there now.
    match (rows[i]?).join with
    | none => .next (.deleteRows scope todo deleted)
    | some session =>
      if scope.covers session then .write i none (.deleteRows scope todo (deleted + 1))
      else .next (.deleteRows scope todo deleted)
  | .abort operation error => .rollback (.returned operation (.error error))
  | .returned operation answer => .next (.returned operation answer)

end Calls

def step (hashToken : String → String) (choice : Choice) (rows : List (Option Session))
    (f : Frame) : Act Session Frame :=
  match f with
  | .returned operation answer => .next (.returned operation answer)
  | f =>
    if choice.fails then .rollback (.returned f.operation (.error .database))
    else execute hashToken choice rows f

def sessions (hashToken : String → String) : Transactions Operation Choice Session Frame where
  enter := Operation.enter
  step := step hashToken
  clash := Session.clash

end Uptrakit.Auth.Sessions
