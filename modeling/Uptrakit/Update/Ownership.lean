import Uptrakit.Concurrent.Calls
import Uptrakit.Update.History

/-!
# The owner of an execution

An agent that reports the start of an update claims its row, and only the owner may append
output or report a result
(`crates/ui/web-api-queries/src/queries/update_batches/dispatch.rs`).  The claim reads the
row first and then sets the owner where none is set; the other functions test the owner in
the update itself.  Their calls for one row are interleaved, statement by statement, with
each other, with the recovery of a reconnecting service and with every other statement of
the update pipeline.

The owner is set once, and every append and every result that takes effect is the owner's
(`ownership_exclusive`).
-/

namespace Uptrakit.Update

open Concurrent Text List Option

/-! ## Owners -/

structure Executor where
  serviceId : Uuid
  runtimeInstanceId : Option Uuid
  deriving DecidableEq

def Row.owner (r : Row) : Option Executor :=
  r.executionOwnerServiceId.map fun serviceId => ⟨serviceId, r.executionOwnerInstanceId⟩

variable {r : Row} {e : Executor}

theorem Row.owner_eq_none : r.owner = none ↔ r.executionOwnerServiceId = none :=
  map_eq_none_iff

theorem Row.owner_eq_some :
    r.owner = some e ↔ r.executionOwnerServiceId = some e.serviceId ∧
      r.executionOwnerInstanceId = e.runtimeInstanceId := by
  obtain ⟨_, _⟩ := e
  simp [owner]

theorem ownedStatusCondition_iff {statuses} :
    ownedStatusCondition e.serviceId e.runtimeInstanceId statuses r = true ↔
      r.status ∈ statuses ∧ r.owner = some e := by
  simp [ownedStatusCondition, Row.owner_eq_some, and_assoc]

/-- A row that has an owner has left the queue. -/
def Row.LeftQueue (r : Row) : Prop :=
  r.owner ≠ none → r.status ≠ .queued ∧ r.status ≠ .pending

instance : DecidablePred Row.LeftQueue := fun _ => inferInstanceAs (Decidable (_ → _))

/-! ## Output -/

inductive OutputStreamType
  | stdout | stderr | preHook | postHook | system
  deriving DecidableEq

structure PersistedUpdateOutputLine where
  id : Uuid
  stream : OutputStreamType
  output : String
  createdAt : Time
  deriving DecidableEq

def updateOutputBytesCap : Int := 52428800

def outputTruncationNotice : String :=
  "\n[Output truncated: this update produced more than 50 MB of output. " ++
    "Only the first 50 MB is stored.]\n"

/-- The characters at the front that fit into the given number of bytes. -/
def takeBytes : Nat → List Char → List Char
  | _, [] => []
  | n, c :: chars => if c.utf8Size ≤ n then c :: takeBytes (n - c.utf8Size) chars else []

/-- `truncate_to_char_boundary`: the prefix up to the last boundary of characters. -/
def truncateToCharBoundary (output : String) (maxBytes : Nat) : String :=
  if len output ≤ maxBytes then output else String.ofList (takeBytes maxBytes output.toList)

def remainingBytes (record : Row) : Int :=
  if record.outputBytes ≥ updateOutputBytesCap then 0
  else updateOutputBytesCap - record.outputBytes

def appendLineUpdate (id : Uuid) (e : Executor) (output : String) : Concurrent.Update Row where
  guard r := r.id == id && ownedInProgressCondition e.serviceId e.runtimeInstanceId r &&
    r.outputTruncated == false
  set r := { r with outputBytes := r.outputBytes + len output }

/-- Account for the prefix of a line that does not fit, and take no more output. -/
def markTruncatedUpdate (e : Executor) (record : Row) (storedPrefix : String) :
    Concurrent.Update Row where
  guard r := r.id == record.id && ownedInProgressCondition e.serviceId e.runtimeInstanceId r &&
    r.outputTruncated == false
  set r := { r with outputBytes := record.outputBytes + len storedPrefix, outputTruncated := true }

/-! ## Calls -/

structure ClaimExecutionInfo where
  batchId : Option Uuid
  hostId : Uuid
  softwareItemId : Uuid
  tenantId : Uuid
  deriving DecidableEq

def claimExecutionInfo (record : Row) : ClaimExecutionInfo where
  batchId := record.batchId
  hostId := record.hostId
  softwareItemId := record.softwareItemId
  tenantId := record.tenantId

inductive ClaimExecutionOutcome
  | claimed (info : ClaimExecutionInfo)
  | replay (info : ClaimExecutionInfo)
  | rejected

inductive AppendUpdateOutputOutcome
  | ignored
  | appended (line : PersistedUpdateOutputLine)
  | truncationNotice (notice : PersistedUpdateOutputLine)
  | appendedWithTruncation (line notice : PersistedUpdateOutputLine)
  deriving DecidableEq

/-- The statements that no executor issues for itself: promotion and dispatch, protection,
recovery and the reapers. -/
def Write.impersonal : Write → Bool
  | claimPending .. | claimInProgress .. | finalizeUpdateResultIfOwned ..
  | finalizeBatchItemIfOwned .. => false
  | _ => true

def FinalizeArgs.executor (args : FinalizeArgs) : Executor :=
  ⟨args.serviceId, args.runtimeInstanceId⟩

namespace Execution

structure Store where
  row : Row
  lines : List PersistedUpdateOutputLine := []

inductive Operation
  | claimOrReplayUpdateStart (e : Executor) (interactive : Bool)
  | appendUpdateOutputIfOwned (e : Executor) (stream : OutputStreamType) (output : String)
  | finalizeUpdateResultIfOwned (args : FinalizeArgs)
  | finalizeBatchItemIfOwned (args : FinalizeArgs)
  /-- Recovery when a service connects, with the hosts that are linked to it. -/
  | recoverOwnedUpdatesOnConnect (e : Executor) (hostIds : List Uuid)
  | statement (w : Write) (h : w.impersonal = true)

/-- The statement that a call is about to execute, or what it has answered. -/
inductive Frame
  | findRecord (e : Executor) (interactive : Bool)
  | claimPending (e : Executor) (interactive : Bool) (record : Row)
  | claimInProgress (e : Executor) (interactive : Bool) (record : Row)
  | claimAnswered (e : Executor) (outcome : ClaimExecutionOutcome)
  | findOwned (e : Executor) (stream : OutputStreamType) (output : String)
  | appendLine (e : Executor) (stream : OutputStreamType) (output : String)
  | markTruncated (e : Executor) (stream : OutputStreamType) (output : String) (record : Row)
  | appendAnswered (e : Executor) (outcome : AppendUpdateOutputOutcome)
  | finalizeUpdateResult (args : FinalizeArgs)
  | finalizeBatchItem (args : FinalizeArgs)
  | finalizeAnswered (e : Executor) (rowsAffected : Nat)
  | loadOwnedReconnectCandidates (e : Executor) (hostIds : List Uuid)
  | interruptOwned (e : Executor) (hostIds : List Uuid)
  | failOrchestrated (hostIds : List Uuid)
  | statement (w : Write) (h : w.impersonal = true)
  | finished
  | failed

structure Choice where
  fails : Bool := false
  now : Time := 0
  lineId : Uuid := 0
  noticeId : Uuid := 0

def Operation.enter : Operation → Frame
  | claimOrReplayUpdateStart e interactive => .findRecord e interactive
  | appendUpdateOutputIfOwned e stream output => .findOwned e stream output
  | finalizeUpdateResultIfOwned args => .finalizeUpdateResult args
  | finalizeBatchItemIfOwned args => .finalizeBatchItem args
  | recoverOwnedUpdatesOnConnect e hostIds => .loadOwnedReconnectCandidates e hostIds
  | statement w h => .statement w h

namespace Frame

def returned : Frame → Bool
  | claimAnswered .. | appendAnswered .. | finalizeAnswered .. | finished | failed => true
  | _ => false

/-- The executor that got the answer `Claimed`. -/
def claimedBy : Frame → Option Executor
  | claimAnswered e (.claimed _) => some e
  | _ => none

/-- The executor whose append or result took effect. -/
def effectBy : Frame → Option Executor
  | appendAnswered e outcome => if outcome = .ignored then none else some e
  | finalizeAnswered e rowsAffected => if rowsAffected = 0 then none else some e
  | _ => none

end Frame

/-- `claim_or_replay_update_start_db`, from the row it has read. -/
def claimOrReplay (e : Executor) (interactive : Bool) (record : Row) : Frame :=
  if record.status = .pending ∧ record.executionOwnerServiceId = none ∧
      record.executionOwnerInstanceId = none then
    .claimPending e interactive record
  else if record.status = .inProgress ∧ record.executionOwnerServiceId = none then
    .claimInProgress e interactive record
  else if record.status = .inProgress ∧ record.executionOwnerServiceId = some e.serviceId ∧
      record.executionOwnerInstanceId = e.runtimeInstanceId then
    .claimAnswered e (.replay (claimExecutionInfo record))
  else
    .claimAnswered e .rejected

/-- `append_update_output_if_owned`, from the row it has read. -/
def appendOwned (e : Executor) (stream : OutputStreamType) (output : String) (record : Row) :
    Frame :=
  if ownedInProgressCondition e.serviceId e.runtimeInstanceId record = false then
    .appendAnswered e .ignored
  else if record.outputTruncated then
    .appendAnswered e .ignored
  else if remainingBytes record > 0 ∧ (len output : Int) ≤ remainingBytes record then
    .appendLine e stream output
  else
    .markTruncated e stream output record

/-- Execute a conditional update; a row that it affects is answered for by the first frame. -/
def conditional (u : Concurrent.Update Row) (s : Store) (lines : List PersistedUpdateOutputLine)
    (hit miss : Frame) : Store × Frame :=
  if u.guard s.row then (⟨u.set s.row, lines⟩, hit) else (s, miss)

/-- The lines that are stored for output that does not fit. -/
def truncatedLines (ω : Choice) (stream : OutputStreamType) (storedPrefix : String) :
    AppendUpdateOutputOutcome × List PersistedUpdateOutputLine :=
  let notice : PersistedUpdateOutputLine := ⟨ω.noticeId, .system, outputTruncationNotice, ω.now⟩
  if storedPrefix = "" then (.truncationNotice notice, [notice])
  else
    let line : PersistedUpdateOutputLine := ⟨ω.lineId, stream, storedPrefix, ω.now⟩
    (.appendedWithTruncation line notice, [line, notice])

/-- Execute the statement of a call.  A transaction whose first statement is the conditional
update takes effect as a whole, or is rolled back. -/
def execute (ω : Choice) (s : Store) : Frame → Store × Frame
  | .findRecord e interactive => (s, claimOrReplay e interactive s.row)
  | .claimPending e interactive record =>
    conditional
      (Write.claimPending record.id e.serviceId e.runtimeInstanceId interactive ω.now).toUpdate
      s [] (.claimAnswered e (.claimed (claimExecutionInfo record))) (.claimAnswered e .rejected)
  | .claimInProgress e interactive record =>
    conditional
      (Write.claimInProgress record.id e.serviceId e.runtimeInstanceId interactive).toUpdate
      s s.lines (.claimAnswered e (.claimed (claimExecutionInfo record)))
      (.claimAnswered e .rejected)
  | .findOwned e stream output => (s, appendOwned e stream output s.row)
  | .appendLine e stream output =>
    let line : PersistedUpdateOutputLine := ⟨ω.lineId, stream, output, ω.now⟩
    conditional (appendLineUpdate s.row.id e output) s (s.lines ++ [line])
      (.appendAnswered e (.appended line)) (.appendAnswered e .ignored)
  | .markTruncated e stream output record =>
    let storedPrefix := truncateToCharBoundary output (remainingBytes record).toNat
    let stored := truncatedLines ω stream storedPrefix
    conditional (markTruncatedUpdate e record storedPrefix) s (s.lines ++ stored.2)
      (.appendAnswered e stored.1) (.appendAnswered e .ignored)
  | .finalizeUpdateResult args =>
    conditional (Write.finalizeUpdateResultIfOwned s.row.id args ω.now).toUpdate s s.lines
      (.finalizeAnswered args.executor 1) (.finalizeAnswered args.executor 0)
  | .finalizeBatchItem args =>
    conditional (Write.finalizeBatchItemIfOwned s.row.id args ω.now).toUpdate s s.lines
      (.finalizeAnswered args.executor 1) (.finalizeAnswered args.executor 0)
  | .loadOwnedReconnectCandidates e hostIds =>
    (s, if orphanedCondition e.serviceId e.runtimeInstanceId s.row then .interruptOwned e hostIds
      else .failOrchestrated hostIds)
  | .interruptOwned e hostIds =>
    conditional
      (Write.markOwnedInProgressAsInterruptedOnReconnect [s.row.id] e.serviceId
        e.runtimeInstanceId ω.now).toUpdate
      s [] (.failOrchestrated hostIds) (.failOrchestrated hostIds)
  | .failOrchestrated hostIds =>
    conditional (Write.markOrchestratorInprogressAsFailedOnReconnect hostIds ω.now).toUpdate
      s s.lines .finished .finished
  | .statement w _ => conditional w.toUpdate s s.lines .finished .finished
  | f => (s, f)

/-- One step of a call.  A statement that fails changes nothing and ends the call. -/
def step (ω : Choice) (s : Store) (f : Frame) : Store × Frame :=
  if f.returned then (s, f) else if ω.fails then (s, .failed) else execute ω s f

def executions : Calls Operation Choice Store Frame := ⟨Operation.enter, step⟩

/-! ## What a step can do -/

/-- The frame answers neither a claim nor an append or a result that took effect. -/
def Frame.Silent (f : Frame) : Prop := f.claimedBy = none ∧ f.effectBy = none

/-- What a step of a call does to the row, and what the call answers. -/
inductive Effect (s : Store) (f : Frame) : Store → Frame → Prop
  /-- The call has returned before. -/
  | stay : Effect s f s f
  /-- A read, a statement that affects nothing, or a failure. -/
  | idle {f' : Frame} (silent : f'.Silent) : Effect s f s f'
  | claim {r : Row} {lines} (e info) (free : s.row.owner = none) (owner : r.owner = some e)
      (status : r.status = .inProgress) : Effect s f ⟨r, lines⟩ (.claimAnswered e (.claimed info))
  | act {r : Row} {lines} {f' : Frame} (e) (held : s.row.owner = some e) (owner : r.owner = some e)
      (status : r.status ≠ .queued ∧ r.status ≠ .pending) (claimedBy : f'.claimedBy = none)
      (effectBy : f'.effectBy = some e) : Effect s f ⟨r, lines⟩ f'
  | upkeep {lines} {f' : Frame} (w : Write) (impersonal : w.impersonal = true)
      (guard : w.guard s.row = true) (silent : f'.Silent) : Effect s f ⟨w.set s.row, lines⟩ f'

variable {u : Concurrent.Update Row} {s : Store} {f hit miss : Frame}
  {lines : List PersistedUpdateOutputLine} {w : Write}

/-- A conditional update that misses does nothing. -/
theorem effect_conditional (hm : miss.Silent)
    (hh : u.guard s.row = true → Effect s f ⟨u.set s.row, lines⟩ hit) :
    Effect s f (conditional u s lines hit miss).1 (conditional u s lines hit miss).2 := by
  unfold conditional
  split
  · rename_i hg
    exact hh hg
  · exact .idle hm

/-- An append by the owner keeps the columns of the owner and the status. -/
theorem effect_append {outcome}
    (hg : ownedInProgressCondition e.serviceId e.runtimeInstanceId s.row = true)
    (how : (u.set s.row).owner = s.row.owner) (hst : (u.set s.row).status = s.row.status)
    (hou : outcome ≠ .ignored) :
    Effect s f ⟨u.set s.row, lines⟩ (.appendAnswered e outcome) := by
  obtain ⟨hs, ho⟩ := ownedStatusCondition_iff.1 hg
  rw [mem_singleton] at hs
  refine .act e ho (how.trans ho) ?_ rfl (if_neg hou)
  rw [hst, hs]
  constructor <;> rintro ⟨⟩

/-- An impersonal statement, after which the call goes on in the same way. -/
theorem effect_upkeep {f' : Frame} (w : Write) (hw : w.impersonal = true) (hs : f'.Silent) :
    Effect s f (conditional w.toUpdate s lines f' f').1 (conditional w.toUpdate s lines f' f').2 :=
  effect_conditional hs fun hg => .upkeep w hw hg hs

theorem effect_execute (ω s f) : Effect s f (execute ω s f).1 (execute ω s f).2 := by
  cases f with
  | findRecord e interactive =>
    refine .idle (?_ : (claimOrReplay e interactive s.row).Silent)
    fun_cases claimOrReplay e interactive s.row <;> exact ⟨rfl, rfl⟩
  | claimPending e =>
    refine effect_conditional ⟨rfl, rfl⟩ ?_
    intro hg
    refine .claim e _ ?_ (Row.owner_eq_some.2 ⟨rfl, rfl⟩) rfl
    simp only [Write.toUpdate, Write.guard, unownedCondition, Bool.and_eq_true, beq_iff_eq] at hg
    exact Row.owner_eq_none.2 hg.2.1
  | claimInProgress e =>
    refine effect_conditional ⟨rfl, rfl⟩ ?_
    intro hg
    simp only [Write.toUpdate, Write.guard, Bool.and_eq_true, beq_iff_eq] at hg
    exact .claim e _ (Row.owner_eq_none.2 hg.2) (Row.owner_eq_some.2 ⟨rfl, rfl⟩) hg.1.2
  | findOwned e stream output =>
    refine .idle (?_ : (appendOwned e stream output s.row).Silent)
    fun_cases appendOwned e stream output s.row <;> exact ⟨rfl, rfl⟩
  | appendLine =>
    refine effect_conditional ⟨rfl, rfl⟩ ?_
    intro hg
    simp only [appendLineUpdate, Bool.and_eq_true] at hg
    refine effect_append hg.1.2 rfl rfl ?_
    rintro ⟨⟩
  | markTruncated =>
    refine effect_conditional ⟨rfl, rfl⟩ ?_
    intro hg
    simp only [markTruncatedUpdate, Bool.and_eq_true] at hg
    refine effect_append hg.1.2 rfl rfl ?_
    unfold truncatedLines
    split_ifs <;> rintro ⟨⟩
  | finalizeUpdateResult args | finalizeBatchItem args =>
    refine effect_conditional ⟨rfl, rfl⟩ ?_
    intro hg
    simp only [Write.toUpdate, Write.guard, Bool.and_eq_true] at hg
    have ho : s.row.owner = some args.executor :=
      (ownedStatusCondition_iff (e := args.executor).1 hg.2).2
    refine .act args.executor ho ho ?_ rfl rfl
    show args.status.toStatus ≠ .queued ∧ args.status.toStatus ≠ .pending
    cases args.status <;> constructor <;> rintro ⟨⟩
  | loadOwnedReconnectCandidates =>
    refine .idle ?_
    dsimp only [execute]
    split_ifs <;> exact ⟨rfl, rfl⟩
  | interruptOwned =>
    exact effect_upkeep (.markOwnedInProgressAsInterruptedOnReconnect _ _ _ _) rfl ⟨rfl, rfl⟩
  | failOrchestrated =>
    exact effect_upkeep (.markOrchestratorInprogressAsFailedOnReconnect _ _) rfl ⟨rfl, rfl⟩
  | statement w h => exact effect_upkeep w h ⟨rfl, rfl⟩
  | claimAnswered | appendAnswered | finalizeAnswered | finished | failed => exact .stay

theorem effect_step (ω s f) : Effect s f (step ω s f).1 (step ω s f).2 := by
  fun_cases step ω s f
  · exact .stay
  · exact .idle ⟨rfl, rfl⟩
  · exact effect_execute ω s f

/-! ## The owner -/

/-- An impersonal statement takes a row from its owner only while it is pending, and puts it into
the queue only from there. -/
theorem impersonal_cases (hw : w.impersonal = true) (hg : w.guard r = true) :
    (w.set r).owner = none ∧ r.status = .pending ∨ (w.set r).owner = r.owner ∧
      (r.status = .queued ∨ (w.set r).status = r.status ∨
        (w.set r).status ≠ .queued ∧ (w.set r).status ≠ .pending) := by
  cases w
  case claimPending | claimInProgress | finalizeUpdateResultIfOwned | finalizeBatchItemIfOwned =>
    cases hw
  case setInprogressForOrchestrator =>
    simp only [Write.guard, Bool.and_eq_true, beq_iff_eq] at hg
    exact .inl ⟨rfl, hg.2⟩
  case promote =>
    simp only [Write.guard, Bool.and_eq_true, beq_iff_eq] at hg
    exact .inr ⟨rfl, .inl hg.2⟩
  all_goals
    refine .inr ⟨rfl, .inr ?_⟩
    first | exact .inl rfl | right; constructor <;> rintro ⟨⟩

namespace Effect

variable {s s' : Store} {f f' : Frame} {e : Executor}

variable (h : Effect s f s' f')

include h

theorem leftQueue (hs : s.row.LeftQueue) : s'.row.LeftQueue := by
  cases h with
  | stay | idle => exact hs
  | claim _ _ _ _ status =>
    intro _
    rw [status]
    constructor <;> rintro ⟨⟩
  | act _ _ _ status => exact fun _ => status
  | upkeep _ impersonal guard =>
    intro ho
    obtain ⟨hn, -⟩ | ⟨hsa, hq | hst | hst⟩ := impersonal_cases impersonal guard
    · exact absurd hn ho
    · exact absurd hq (hs (hsa ▸ ho)).1
    · exact hst ▸ hs (hsa ▸ ho)
    · exact hst

/-- The owner of a row is not replaced. -/
theorem owner (hs : s.row.LeftQueue) (ho : s.row.owner = some e) : s'.row.owner = some e := by
  cases h with
  | stay | idle => exact ho
  | claim _ _ free =>
    rw [free] at ho
    cases ho
  | act _ held owner => rwa [owner, ← held]
  | upkeep _ impersonal guard =>
    obtain ⟨-, hp⟩ | ⟨hsa, -⟩ := impersonal_cases impersonal guard
    · exact absurd hp (hs (ho ▸ some_ne_none e)).2
    · exact hsa.trans ho

/-- A row gets its owner by a claim. -/
theorem owner_or_claimedBy (ho : s'.row.owner = some e) :
    s.row.owner = some e ∨ f'.claimedBy = some e := by
  cases h with
  | stay | idle => exact .inl ho
  | claim _ _ _ owner => exact .inr (owner.symm.trans ho)
  | act _ held owner => exact .inl (held.trans (owner.symm.trans ho))
  | upkeep _ impersonal guard =>
    obtain ⟨hn, -⟩ | ⟨hs, -⟩ := impersonal_cases impersonal guard
    · cases hn.symm.trans ho
    · exact .inl (hs.symm.trans ho)

/-- What a call answers, it has done as the owner. -/
theorem answered :
    f' = f ∨ ∀ e, f'.claimedBy = some e ∨ f'.effectBy = some e → s'.row.owner = some e := by
  have silent : ∀ {f' : Frame}, f'.Silent → ∀ {e : Executor} {p : Prop},
      f'.claimedBy = some e ∨ f'.effectBy = some e → p := by
    rintro f' ⟨hc, hef⟩ e p (he | he)
    · exact nomatch hc.symm.trans he
    · exact nomatch hef.symm.trans he
  cases h with
  | stay => exact .inl rfl
  | idle hs | upkeep _ _ _ hs => exact .inr fun e he => silent hs he
  | claim _ _ _ owner =>
    refine .inr ?_
    rintro e' (he | he)
    · exact owner.trans he
    · cases he
  | act _ _ owner _ hc hef =>
    refine .inr ?_
    rintro e' (he | he)
    · exact nomatch hc.symm.trans he
    · exact owner.trans (hef.symm.trans he)

end Effect

/-- A call that has claimed the row keeps its answer. -/
theorem step_of_claimedBy {ω} (h : f.claimedBy = some e) : (step ω s f).2 = f := by
  have hr : f.returned = true := by
    cases f with
    | claimAnswered => rfl
    | _ => cases h
  rw [step, if_pos hr]

/-! ## Runs -/

/-- The calls have answered as the owner of the row, and a row that had no owner at first has
been claimed by the one it has. -/
structure Owned (first : Option Executor) (s : System Store Frame) : Prop where
  leftQueue : s.shared.row.LeftQueue
  answered : ∀ f ∈ s.calls, ∀ e, f.claimedBy = some e ∨ f.effectBy = some e →
    s.shared.row.owner = some e
  claimed : first = none → ∀ e, s.shared.row.owner = some e → ∃ f ∈ s.calls, f.claimedBy = some e

namespace Owned

variable {first : Option Executor} {s : System Store Frame}

theorem start (h : Owned first s) (operation) :
    Owned first (executions.move s (.start operation)) := by
  refine ⟨h.leftQueue, ?_, ?_⟩
  · refine Calls.forall_calls_start h.answered ?_
    intro e he
    cases operation <;> rcases he with he | he <;> cases he
  · intro hfi e he
    obtain ⟨f, hf, hc⟩ := h.claimed hfi e he
    exact ⟨f, mem_append_left _ hf, hc⟩

theorem step (h : Owned first s) {t} (ω : Choice) (hca : s.calls[t]? = some f) : Owned first
      ⟨(executions.step ω s.shared f).1, s.calls.set t (executions.step ω s.shared f).2⟩ := by
  have hef := effect_step ω s.shared f
  have hm : f ∈ s.calls := mem_of_getElem? hca
  have hlt : t < s.calls.length := (List.getElem?_eq_some_iff.1 hca).1
  refine ⟨hef.leftQueue h.leftQueue, ?_, ?_⟩
  · intro g hg e he
    rcases mem_or_eq_of_mem_set hg with hg | rfl
    · exact hef.owner h.leftQueue (h.answered g hg e he)
    rcases hef.answered with hs | ha
    · -- the call had returned before
      refine hef.owner h.leftQueue (h.answered f hm e ?_)
      rwa [← hs]
    · exact ha e he
  · intro hf e he
    rcases hef.owner_or_claimedBy he with ho | hc
    · obtain ⟨g, hg, hc⟩ := h.claimed hf e ho
      refine ⟨g, ?_, hc⟩
      obtain ⟨i, hi⟩ := mem_iff_getElem?.1 hg
      refine mem_iff_getElem?.2 ⟨i, ?_⟩
      by_cases hit : t = i
      · subst hit
        cases hca.symm.trans hi
        show (s.calls.set t (Execution.step ω s.shared f).2)[t]? = _
        rw [step_of_claimedBy hc, getElem?_set_self hlt]
      · rw [getElem?_set_ne hit]
        exact hi
    · exact ⟨_, mem_set hlt _, hc⟩

end Owned

def begin (store : Store) : System Store Frame := ⟨store, []⟩

/-- Run lemma: once a row has left the queue, calls have answered only as its owner. -/
theorem owned_run {store : Store} (hr : store.row.LeftQueue)
    (moves : List (Move Operation Choice)) :
    Owned store.row.owner (executions.run (begin store) moves) := by
  refine Calls.run_invariant ?_ ?_ ?_ moves
  · intro s operation hs
    exact hs.start operation
  · intro s t ω f hs hc
    exact hs.step ω hc
  · refine ⟨hr, ?_, ?_⟩
    · intro f hf
      cases hf
    · intro hfi e he
      cases hfi.symm.trans he

/-- The row has the owner. -/
structure HeldBy (e : Executor) (s : System Store Frame) : Prop where
  leftQueue : s.shared.row.LeftQueue
  owner : s.shared.row.owner = some e

/-- Run lemma: an execution that owns the row goes on owning it. -/
theorem heldBy_run {s} (hs : HeldBy e s) (moves : List (Move Operation Choice)) :
    HeldBy e (executions.run s moves) := by
  refine Calls.run_invariant ?_ ?_ hs moves
  · intro s operation h
    exact ⟨h.leftQueue, h.owner⟩
  · intro s t ω f h _
    have he := effect_step ω s.shared f
    exact ⟨he.leftQueue h.leftQueue, he.owner h.leftQueue h.owner⟩

/-- In every run of calls for a row, at most one executor is answered `Claimed`, a stored owner
is never replaced, and every append and every result that takes effect is the owner's: of a row
that had no owner at first, the one that was answered `Claimed`. -/
theorem ownership_exclusive (store : Store) (hr : store.row.LeftQueue)
    (moves : List (Move Operation Choice)) :
    (∀ f ∈ (executions.run (begin store) moves).calls,
      ∀ g ∈ (executions.run (begin store) moves).calls, ∀ e e',
        f.claimedBy = some e → g.claimedBy = some e' → e = e') ∧
    (∀ before after, moves = before ++ after → ∀ e,
      (executions.run (begin store) before).shared.row.owner = some e →
        (executions.run (begin store) moves).shared.row.owner = some e) ∧
    ∀ f ∈ (executions.run (begin store) moves).calls, ∀ e, f.effectBy = some e →
      (executions.run (begin store) moves).shared.row.owner = some e ∧
      (∀ g ∈ (executions.run (begin store) moves).calls, ∀ e', g.claimedBy = some e' → e = e') ∧
      (store.row.owner = none →
        ∃ g ∈ (executions.run (begin store) moves).calls, g.claimedBy = some e) := by
  have how := owned_run hr moves
  have heq : ∀ {e e' : Executor},
      (executions.run (begin store) moves).shared.row.owner = some e →
      (executions.run (begin store) moves).shared.row.owner = some e' → e = e' :=
    fun h h' => Option.some.inj (h.symm.trans h')
  refine ⟨?_, ?_, ?_⟩
  · intro f hf g hg e e' he he'
    exact heq (how.answered f hf e (.inl he)) (how.answered g hg e' (.inl he'))
  · rintro before after rfl e he
    rw [Calls.run_append]
    exact (heldBy_run ⟨(owned_run hr before).leftQueue, he⟩ after).owner
  · intro f hf e he
    have ho := how.answered f hf e (.inr he)
    refine ⟨ho, ?_, fun hfi => how.claimed hfi e ho⟩
    intro g hg e' he'
    exact heq ho (how.answered g hg e' (.inl he'))

def created : Store where
  row := CreateUpdateRecordParams.record
    ⟨1, 7, 8, none, "2", some "1", none, .pending, false⟩ 1 0

/-- Two instances of a service have both read the row before either claims it; then both append
output and report a result. -/
def bothClaim : List (Move Operation Choice) :=
  [.start (.claimOrReplayUpdateStart ⟨5, some 1⟩ false),
    .start (.claimOrReplayUpdateStart ⟨5, some 2⟩ false),
    .run 0 {}, .run 1 {}, .run 1 {}, .run 0 {},
    .start (.appendUpdateOutputIfOwned ⟨5, some 1⟩ .stdout "one"), .run 2 {}, .run 2 {},
    .start (.appendUpdateOutputIfOwned ⟨5, some 2⟩ .stdout "two"), .run 3 {}, .run 3 {},
    .start (.finalizeUpdateResultIfOwned ⟨5, some 1, .failed, none, "", none, none⟩), .run 4 {},
    .start (.finalizeUpdateResultIfOwned ⟨5, some 2, .completed, none, "", none, some "2"⟩),
    .run 5 {}]

/-- The second instance claims the row, and only its output and its result are stored. -/
theorem ownership_exclusive_bothClaim :
    (executions.run (begin created) bothClaim).calls.map Frame.claimedBy =
        [none, some ⟨5, some 2⟩, none, none, none, none] ∧
      (executions.run (begin created) bothClaim).calls.map Frame.effectBy =
        [none, none, none, some ⟨5, some 2⟩, none, some ⟨5, some 2⟩] ∧
      (executions.run (begin created) bothClaim).shared.row.owner = some ⟨5, some 2⟩ ∧
      (executions.run (begin created) bothClaim).shared.row.status = .completed := by
  have he := ownership_exclusive created (by decide) bothClaim
  have hl : .finalizeAnswered ⟨5, some 2⟩ 1 ∈ (executions.run (begin created) bothClaim).calls :=
    mem_of_getElem? (i := 5) rfl
  exact ⟨by decide, by decide, (he.2.2 _ hl ⟨5, some 2⟩ rfl).1, by decide⟩

end Execution

end Uptrakit.Update
