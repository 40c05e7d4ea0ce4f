import Uptrakit.Auth.Denylist
import Uptrakit.Concurrent.ReadCommitted

/-!
# Device flows

A device asks for a login and polls for its outcome; a user approves or denies it
by its user code.  The three operations meet in one row of `pending_device_flows`.
Each of them reads the row first, in a statement of its own, and decides by a
conditional write: `approve` and `deny` move the row out of `Pending`, and `poll`
deletes an `Authorized` row before it issues the token.

The model has one step for each SQL statement.  A statement may fail, which ends
the call and rolls its transaction back.
-/

namespace Uptrakit.Auth.DeviceFlow

open Concurrent

inductive DeviceAuthStatus
  | pending
  | authorized
  | expired
  | denied
  deriving DecidableEq

/-- A row of `pending_device_flows`.  Times are in nanoseconds. -/
structure PendingDeviceFlow where
  id : Uuid
  deviceCodeHash : String
  userCode : String
  status : DeviceAuthStatus
  userId : Option Uuid
  deniedBy : Option Uuid
  clientName : Option String
  interval : Int
  lastPolledAt : Option Int
  expiresAt : Int
  deriving DecidableEq

/-- A row of `api_tokens`. -/
structure ApiToken where
  id : Uuid
  userId : Uuid
  name : String
  tokenHash : String
  deriving DecidableEq

inductive Row
  | flow (flow : PendingDeviceFlow)
  | apiToken (token : ApiToken)

inductive PollOutcome
  | authorized (token tokenName : String)
  | pending
  | slowDown (bumpedInterval : Int)
  | denied
  | expired
  | unknown
  | malformedDeviceCode
  deriving DecidableEq

inductive DeviceFlowError
  | notFound
  | alreadyAuthorized
  | database
  deriving DecidableEq

/-- A call.  The user code of `approve` and `deny` is the normalized one. -/
inductive Operation
  | poll (deviceCode : String) (now : Int)
  | approve (userCode : String) (userId : Uuid)
  | deny (userCode : String) (deniedBy : Uuid)
  deriving DecidableEq

inductive Answer
  | polled (outcome : PollOutcome)
  | approved
  | denied
  | error (error : DeviceFlowError)
  deriving DecidableEq

/-- The points at which a call stands between two statements, with its local
variables. -/
inductive Frame
  | pollLoad (deviceCode : String) (now : Int)
  | pollDelete (deviceCode : String) (now : Int) (flowId userId : Uuid) (tokenName : String)
  | pollIssue (deviceCode : String) (now : Int) (userId : Uuid) (tokenName : String)
  | pollIssued (deviceCode : String) (now : Int) (token tokenName : String)
  | pollTouch (deviceCode : String) (now : Int) (flowId : Uuid) (bumped : Option Int)
  | pollTouched (deviceCode : String) (now : Int) (bumped : Option Int)
  | approveLoad (userCode : String) (userId : Uuid)
  | approveWrite (userCode : String) (userId : Uuid) (flowId : Uuid) (now : Int)
  | approveCommit (userCode : String) (userId : Uuid)
  | denyLoad (userCode : String) (deniedBy : Uuid)
  | denyWrite (userCode : String) (deniedBy : Uuid) (flowId : Uuid) (now : Int)
  | denyCommit (userCode : String) (deniedBy : Uuid)
  | dropped (operation : Operation) (error : DeviceFlowError)
  | returned (operation : Operation) (answer : Answer)
  deriving DecidableEq

/-- What a step cannot know: whether its statement fails, the clock, and the random
token with its id. -/
structure Choice where
  fails : Bool := false
  now : Int := 0
  raw : String := ""
  tokenId : Uuid := 0

def Operation.enter : Operation → Frame
  | poll deviceCode now => .pollLoad deviceCode now
  | approve userCode userId => .approveLoad userCode userId
  | deny userCode deniedBy => .denyLoad userCode deniedBy

def Frame.operation : Frame → Operation
  | pollLoad deviceCode now | pollDelete deviceCode now _ _ _ => .poll deviceCode now
  | pollIssue deviceCode now _ _ | pollIssued deviceCode now _ _ => .poll deviceCode now
  | pollTouch deviceCode now _ _ | pollTouched deviceCode now _ => .poll deviceCode now
  | approveLoad userCode userId | approveWrite userCode userId _ _ => .approve userCode userId
  | approveCommit userCode userId => .approve userCode userId
  | denyLoad userCode deniedBy | denyWrite userCode deniedBy _ _ => .deny userCode deniedBy
  | denyCommit userCode deniedBy => .deny userCode deniedBy
  | dropped operation _ | returned operation _ => operation

/-- `whole_seconds` of a duration in nanoseconds. -/
def wholeSeconds (duration : Int) : Int := duration.tdiv 1000000000

/-- `interval.saturating_add(POLL_INTERVAL_BUMP_SECONDS)` on `i32`. -/
def bumpInterval (interval : Int) : Int := min (interval + 5) 2147483647

/-- `SELECT … FROM pending_device_flows WHERE p`. -/
def Row.flowWhere (p : PendingDeviceFlow → Bool) : Row → Option PendingDeviceFlow
  | .flow row => if p row then some row else none
  | .apiToken _ => none

def tooFast (flow : PendingDeviceFlow) (now : Int) : Bool :=
  flow.lastPolledAt.any fun prev => wholeSeconds (now - prev) < flow.interval

/-- `poll`, from the row it has loaded. -/
def pollFlow (deviceCode : String) (now : Int) (flow : PendingDeviceFlow) : Act Row Frame :=
  let answer (outcome : PollOutcome) : Frame := .returned (.poll deviceCode now) (.polled outcome)
  if flow.expiresAt ≤ now then .commit (answer .expired)
  else
    match flow.status with
    | .authorized =>
      match flow.userId with
      | some userId =>
        .next (.pollDelete deviceCode now flow.id userId (flow.clientName.getD "cli"))
      | none => .rollback (.returned (.poll deviceCode now) (.error .notFound))
    | .denied => .commit (answer .denied)
    | .expired => .commit (answer .expired)
    | .pending =>
      let bumped := if tooFast flow now then some (bumpInterval flow.interval) else none
      .next (.pollTouch deviceCode now flow.id bumped)

def touch (now : Int) (bumped : Option Int) (flow : PendingDeviceFlow) : PendingDeviceFlow :=
  { flow with interval := bumped.getD flow.interval, lastPolledAt := some now }

variable (hashToken : String → String)

/-- `issue_access_token`: the row it inserts and the token it returns. -/
def issueAccessToken (choice : Choice) (userId : Uuid) (tokenName : String) : ApiToken × String :=
  let plaintext := "upk_" ++ choice.raw
  (⟨choice.tokenId, userId, tokenName, hashToken plaintext⟩, plaintext)

def execute (choice : Choice) (rows : List (Option Row)) : Frame → Act Row Frame
  | .pollLoad deviceCode now =>
    let answer (outcome : PollOutcome) : Frame :=
      .returned (.poll deviceCode now) (.polled outcome)
    if deviceCode = "" then .next (answer .malformedDeviceCode)
    else
      match selectOne (Row.flowWhere (·.deviceCodeHash == hashToken deviceCode)) rows with
      | none => .commit (answer .unknown)
      | some (_, flow) => pollFlow deviceCode now flow
  | .pollDelete deviceCode now flowId userId tokenName =>
    match selectOne (Row.flowWhere fun flow =>
        flow.id == flowId && flow.status == .authorized) rows with
    | none => .commit (.returned (.poll deviceCode now) (.polled .unknown))
    | some (i, _) => .write i none (.pollIssue deviceCode now userId tokenName)
  | .pollIssue deviceCode now userId tokenName =>
    let (row, token) := issueAccessToken hashToken choice userId tokenName
    .insert (.apiToken row) (.pollIssued deviceCode now token tokenName)
      (.dropped (.poll deviceCode now) .database)
  | .pollIssued deviceCode now token tokenName =>
    .commit (.returned (.poll deviceCode now) (.polled (.authorized token tokenName)))
  | .pollTouch deviceCode now flowId bumped =>
    match selectOne (Row.flowWhere (·.id == flowId)) rows with
    | none => .next (.pollTouched deviceCode now bumped)
    | some (i, flow) =>
      .write i (some (.flow (touch now bumped flow))) (.pollTouched deviceCode now bumped)
  | .pollTouched deviceCode now bumped =>
    .commit (.returned (.poll deviceCode now)
      (.polled (bumped.elim .pending .slowDown)))
  | .approveLoad userCode userId =>
    let error (e : DeviceFlowError) : Frame := .returned (.approve userCode userId) (.error e)
    match selectOne (Row.flowWhere (·.userCode == userCode)) rows with
    | none => .rollback (error .notFound)
    | some (_, flow) =>
      if flow.expiresAt ≤ choice.now then .rollback (error .notFound)
      else if flow.status = .authorized then .rollback (error .alreadyAuthorized)
      else .next (.approveWrite userCode userId flow.id choice.now)
  | .approveWrite userCode userId flowId now =>
    match selectOne (Row.flowWhere fun flow =>
        flow.id == flowId && flow.status == .pending && decide (now < flow.expiresAt)) rows with
    | none => .rollback (.returned (.approve userCode userId) (.error .alreadyAuthorized))
    | some (i, flow) =>
      .write i (some (.flow { flow with status := .authorized, userId := some userId }))
        (.approveCommit userCode userId)
  | .approveCommit userCode userId => .commit (.returned (.approve userCode userId) .approved)
  | .denyLoad userCode deniedBy =>
    let error (e : DeviceFlowError) : Frame := .returned (.deny userCode deniedBy) (.error e)
    match selectOne (Row.flowWhere (·.userCode == userCode)) rows with
    | none => .commit (error .notFound)
    | some (_, flow) =>
      if flow.expiresAt ≤ choice.now then .commit (error .notFound)
      else if flow.status ≠ .pending then .commit (error .alreadyAuthorized)
      else .next (.denyWrite userCode deniedBy flow.id choice.now)
  | .denyWrite userCode deniedBy flowId now =>
    match selectOne (Row.flowWhere fun flow =>
        flow.id == flowId && flow.status == .pending && decide (now < flow.expiresAt)) rows with
    | none => .commit (.returned (.deny userCode deniedBy) (.error .alreadyAuthorized))
    | some (i, flow) =>
      .write i (some (.flow { flow with status := .denied, deniedBy := some deniedBy }))
        (.denyCommit userCode deniedBy)
  | .denyCommit userCode deniedBy => .commit (.returned (.deny userCode deniedBy) .denied)
  | .dropped operation error => .rollback (.returned operation (.error error))
  | .returned operation answer => .next (.returned operation answer)

/-- One statement of a call.  A failed statement ends the call. -/
def step (choice : Choice) (rows : List (Option Row)) (f : Frame) : Act Row Frame :=
  match f with
  | .returned operation answer => .next (.returned operation answer)
  | f =>
    if choice.fails then .rollback (.returned f.operation (.error .database))
    else execute hashToken choice rows f

def Row.clash : Row → Row → Bool
  | .flow a, .flow b =>
    a.id == b.id || a.deviceCodeHash == b.deviceCodeHash || a.userCode == b.userCode
  | .apiToken a, .apiToken b => a.id == b.id || a.tokenHash == b.tokenHash
  | _, _ => false

def deviceFlows : Transactions Operation Choice Row Frame where
  enter := Operation.enter
  step := step hashToken
  clash := Row.clash

end Uptrakit.Auth.DeviceFlow
