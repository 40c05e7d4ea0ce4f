import Uptrakit.Text.Basic

/-!
# Executions of updates

An agent runs an update as a task of its own (`crates/shared/agent-core/src/update.rs`).  The
task streams output and, if the update is resumable, an early result; in the end it gives its
result, or it panics.  What the agent may tell the controller about the outcome is the early
result and the final one.
-/

namespace Uptrakit.Agent

open Text List

abbrev Uuid := Nat

/-! ## Messages -/

/-- `ExecuteUpdatePayload`, without what only the plugins read. -/
structure ExecuteUpdatePayload where
  hostMachineId : String
  updateHistoryId : Uuid
  /-- In seconds. -/
  timeout : Nat
  interactive : Bool
  deriving DecidableEq

inductive UpdateFinalStatus
  | completed | failed
  | other (raw : String)
  deriving DecidableEq

structure UpdateResultPayload where
  updateHistoryId : Uuid
  status : UpdateFinalStatus
  fromVersion : Option String
  toVersion : Option String
  output : String
  error : Option String
  resumable : Option Bool
  deriving DecidableEq

def UpdateResultPayload.failure (updateHistoryId : Uuid) (error : String) :
    UpdateResultPayload :=
  ⟨updateHistoryId, .failed, none, none, "", some error, none⟩

inductive RuntimeAuditEvent
  | machineIdValidate (messageName expected received : String)
  | updateGate (messageName gate : String) (hostMachineId : Option String)
      (cooldownSecs elapsedMs : Option Nat)
  deriving DecidableEq

inductive ServiceMessage
  | register
  | updateStarted (updateHistoryId : Uuid) (interactive : Bool)
  | updateOutput (updateHistoryId : Uuid) (output : String)
  | updateResult (payload : UpdateResultPayload)
  | auditEvent (event : RuntimeAuditEvent)
  deriving DecidableEq

inductive ControllerMessage
  | executeUpdate (payload : ExecuteUpdatePayload)
  | executeBatchUpdate (hostMachineId : String)
  | resetData
  deriving DecidableEq

/-! ## Executions -/

structure Execution where
  updateHistoryId : Uuid
  early : Option UpdateResultPayload
  /-- `Err` is the error of a task that has panicked. -/
  outcome : Except String UpdateResultPayload
  early_id : ∀ p, early = some p → p.updateHistoryId = updateHistoryId
  outcome_id : ∀ p, outcome = .ok p → p.updateHistoryId = updateHistoryId

/-- `send_update_result`: the result of a task, or the report of its panic. -/
def sendUpdateResult (updateHistoryId : Uuid) :
    Except String UpdateResultPayload → UpdateResultPayload
  | .ok result => result
  | .error e => .failure updateHistoryId ("Update task panicked: " ++ e)

namespace Execution

variable (e : Execution)

def final : UpdateResultPayload := sendUpdateResult e.updateHistoryId e.outcome

def results : List UpdateResultPayload := e.early.toList ++ [e.final]

variable {e}

variable {p : UpdateResultPayload}

theorem early_mem_results (h : e.early = some p) : p ∈ e.results := by
  rw [results, h]
  exact mem_cons_self

theorem final_mem_results : e.final ∈ e.results :=
  mem_append_right _ mem_cons_self

theorem updateHistoryId_of_mem_results (h : p ∈ e.results) :
    p.updateHistoryId = e.updateHistoryId := by
  rcases mem_append.1 h with he | hf
  · exact e.early_id p (Option.mem_toList.1 he)
  · cases mem_singleton.1 hf
    unfold final
    cases ho : e.outcome with
    | ok result => exact e.outcome_id result ho
    | error => rfl

end Execution

/-! ## `execute_update` -/

def maxOutputBytes : Nat := 10 * 1024 * 1024

def truncationMarker : String := "\n... [output truncated at 10 MB] ...\n"

/-- `&text[..n]`: it panics unless `n` is a boundary of characters. -/
def sliceTo : Nat → List Char → Option (List Char)
  | 0, _ => some []
  | _ + 1, [] => none
  | n + 1, c :: chars =>
    if c.utf8Size ≤ n + 1 then (sliceTo (n + 1 - c.utf8Size) chars).map (c :: ·) else none

def appendBounded (buffer text : String) (max : Nat) : Option String :=
  if len buffer ≥ max then some buffer
  else if len text ≤ max - len buffer then some (buffer ++ text)
  else
    (sliceTo (max - len buffer) text.toList).map fun chars =>
      buffer ++ String.ofList chars ++ truncationMarker

inductive Pipeline
  | finished (succeeded resumable : Bool) (output : String)
  | elapsed (output : String)
  deriving DecidableEq

inductive Panics
  | never
  | beforeEarly
  | afterEarly
  deriving DecidableEq

structure Course where
  fromVersion : Option String := none
  pipeline : Pipeline
  /-- What the hooks after the update add to the output. -/
  hookMessages : List String := []
  toVersion : Option String := none
  panics : Panics := .never
  /-- The text of the `JoinError` if the task panics. -/
  joinError : String := ""
  deriving DecidableEq

namespace Course

variable (c : Course)

def succeeded : Bool :=
  match c.pipeline with
  | .finished succeeded _ _ => succeeded
  | .elapsed _ => false

def resumableFlag : Bool :=
  match c.pipeline with
  | .finished succeeded resumable _ => succeeded && resumable
  | .elapsed _ => false

def timeoutMsg (timeout : Nat) : String := s!"Update timed out after {timeout}s"

def pipelineOutput (timeout : Nat) : Option String :=
  match c.pipeline with
  | .finished _ _ output => some output
  | .elapsed output =>
    appendBounded output ("[error] " ++ timeoutMsg timeout ++ "\n") maxOutputBytes

/-- The output with the messages of the hooks, which a resumable update does not wait for. -/
def output (timeout : Nat) : Option String := do
  let output ← c.pipelineOutput timeout
  if c.resumableFlag then return output
  c.hookMessages.foldlM (fun output msg => appendBounded output (msg ++ "\n") maxOutputBytes) output

def error (timeout : Nat) : Option String :=
  match c.pipeline with
  | .finished true _ _ => none
  | .finished false _ _ => some "plugin update command failed"
  | .elapsed _ => some (timeoutMsg timeout)

def earlyPayload (payload : ExecuteUpdatePayload) (output : String) : UpdateResultPayload where
  updateHistoryId := payload.updateHistoryId
  status := .completed
  fromVersion := c.fromVersion
  toVersion := none
  output := output
  error := none
  resumable := some true

def result (payload : ExecuteUpdatePayload) (output : String) : UpdateResultPayload where
  updateHistoryId := payload.updateHistoryId
  status := if c.succeeded then .completed else .failed
  fromVersion := c.fromVersion
  toVersion := if c.succeeded && !c.resumableFlag then c.toVersion else none
  output := output
  error := c.error payload.timeout
  resumable := if c.resumableFlag then some true else none

end Course

def executeUpdate (payload : ExecuteUpdatePayload) (c : Course) : Execution where
  updateHistoryId := payload.updateHistoryId
  early :=
    if c.resumableFlag && c.panics != .beforeEarly then
      (c.pipelineOutput payload.timeout).map (c.earlyPayload payload)
    else none
  outcome :=
    if c.panics = .never then
      match c.output payload.timeout with
      | some output => .ok (c.result payload output)
      | none => .error c.joinError
    else .error c.joinError
  early_id p h := by
    split at h
    · obtain ⟨output, -, rfl⟩ := Option.map_eq_some_iff.1 h
      rfl
    · cases h
  outcome_id p h := by
    split at h
    · split at h
      · cases h
        rfl
      · cases h
    · cases h

/-! ## Tasks -/

inductive Stage
  /-- Nothing but output has been sent. -/
  | running
  /-- The early result has been sent. -/
  | emitted
  | done
  deriving DecidableEq

structure UpdateTask where
  execution : Execution
  stage : Stage
  outputRx : List String
  earlyResultRx : List UpdateResultPayload
  early_of_mem : ∀ p ∈ earlyResultRx, execution.early = some p

/-- `spawn_update_task`. -/
def UpdateTask.spawn (execution : Execution) : UpdateTask :=
  ⟨execution, .running, [], [], fun _ h => by cases h⟩

inductive Progress
  | output (line : String)
  | early
  | finish
  deriving DecidableEq

inductive UpdateEvent
  | output (line : String)
  | completed (result : Except String UpdateResultPayload)
  | earlyResult (payload : UpdateResultPayload)

inductive Ready
  | early | output | handle
  deriving DecidableEq

namespace UpdateTask

variable (t : UpdateTask)

def advance : Progress → UpdateTask
  | .output line => { t with outputRx := t.outputRx ++ [line] }
  | .early =>
    match t.stage, h : t.execution.early with
    | .running, some p =>
      { t with
        stage := .emitted
        earlyResultRx := t.earlyResultRx ++ [p]
        early_of_mem := by
          intro p' hp'
          rcases mem_append.1 hp' with hp' | hp'
          · exact t.early_of_mem p' hp'
          · rw [mem_singleton.1 hp', h] }
    | _, _ => t
  | .finish =>
    if t.stage = .running ∧ t.execution.early.isSome then t else { t with stage := .done }

/-- Take an event from a channel.  (The source prefers the early result and the output to the
end of the task.) -/
def poll : Ready → Option (UpdateEvent × UpdateTask)
  | .early =>
    match h : t.earlyResultRx with
    | [] => none
    | p :: rest =>
      some (.earlyResult p,
        { t with
          earlyResultRx := rest
          early_of_mem := fun p' hp' => t.early_of_mem p' (h ▸ mem_cons_of_mem p hp') })
  | .output =>
    match t.outputRx with
    | [] => none
    | line :: rest => some (.output line, { t with outputRx := rest })
  | .handle => if t.stage = .done then some (.completed t.execution.outcome, t) else none

end UpdateTask

def UpdateEvent.completes : UpdateEvent → Bool
  | .completed _ => true
  | _ => false

/-- The event tells the truth about the execution. -/
def UpdateEvent.Of (e : Execution) : UpdateEvent → Prop
  | .output _ => True
  | .completed result => result = e.outcome
  | .earlyResult p => e.early = some p

namespace UpdateTask

variable {t t' : UpdateTask} {event : UpdateEvent} {ready : Ready}

@[simp] theorem execution_advance (t : UpdateTask) (p : Progress) :
    (t.advance p).execution = t.execution := by
  cases p with
  | output => rfl
  | early | finish =>
    simp only [advance]
    split <;> rfl

/-- What is polled is an event of the execution, and the task goes on with it. -/
theorem of_poll (h : t.poll ready = some (event, t')) :
    event.Of t.execution ∧ t'.execution = t.execution := by
  cases ready with
  | early =>
    simp only [poll] at h
    split at h
    · cases h
    · rename_i p rest hrx
      cases h
      exact ⟨t.early_of_mem p (hrx ▸ mem_cons_self), rfl⟩
  | output =>
    simp only [poll] at h
    split at h
    · cases h
    · cases h
      exact ⟨trivial, rfl⟩
  | handle =>
    simp only [poll] at h
    split at h
    · cases h
      exact ⟨rfl, rfl⟩
    · cases h

end UpdateTask

structure Start where
  course : Course
  supportsInteractive : Bool := false
  deriving DecidableEq

/-- `start_update`: the task, and the message that it has been started. -/
def startUpdate (payload : ExecuteUpdatePayload) (start : Start) : UpdateTask × ServiceMessage :=
  (.spawn (executeUpdate payload start.course),
    .updateStarted payload.updateHistoryId (payload.interactive && start.supportsInteractive))

/-- `UPDATE_COOLDOWN`, in milliseconds. -/
def updateCooldown : Nat := 5000

/-! ## The bounded buffer

The buffer is cut at a position of bytes, and a later call sees nothing but its length.  A call
panics if the limit is inside a character, and what follows a buffer that is exactly full is
dropped without a marker (`buffer_honest_iff`). -/

open String (utf8Len utf8Len_cons utf8Len_append utf8Len_le_of_prefix)

variable {n max : Nat} {l m p : List Char}

theorem sliceTo_append_of_ge (h : utf8Len l ≤ n) :
    sliceTo n (l ++ m) = (sliceTo (n - utf8Len l) m).map (l ++ ·) := by
  induction l generalizing n with
  | nil => simp
  | cons c _ ih =>
    have hp := c.utf8Size_pos
    rw [utf8Len_cons] at h
    obtain ⟨k, rfl⟩ := Nat.exists_eq_succ_of_ne_zero (n := n) (by omega)
    rw [cons_append, sliceTo, if_pos (by omega), ih (by omega), Option.map_map, utf8Len_cons,
      Nat.sub_sub, Nat.add_comm (utf8Len _)]
    rfl

theorem sliceTo_eq_some_iff : sliceTo n l = some p ↔ p <+: l ∧ utf8Len p = n := by
  refine ⟨fun h => ?_, ?_⟩
  · fun_induction sliceTo n l generalizing p with
    | case1 => simp_all
    | case2 => cases h
    | case3 n c _ _ ih =>
      obtain ⟨q, hq, rfl⟩ := Option.map_eq_some_iff.mp h
      obtain ⟨hp, _⟩ := ih hq
      exact ⟨(prefix_cons_inj c).mpr hp, by rw [utf8Len_cons]; omega⟩
    | case4 => cases h
  · rintro ⟨⟨q, rfl⟩, rfl⟩
    rw [sliceTo_append_of_ge le_rfl, Nat.sub_self, sliceTo, Option.map_some, append_nil]

def textOf (texts : List String) : List Char := texts.flatMap (·.toList)

variable {texts : List String}

variable (max : Nat) (texts : List String) in
/-- The buffer after the calls: all the text, the texts up to the limit if they meet it, or the
text up to the limit with the marker, unless the limit is inside a character. -/
inductive Appended : Option String → Prop
  | fits {b : String} (hle : utf8Len (textOf texts) ≤ max) (hb : b.toList = textOf texts) :
      Appended (some b)
  | met {b : String} {first : List String} (hlt : max < utf8Len (textOf texts))
      (hfirst : first <+: texts) (hlen : utf8Len (textOf first) = max)
      (hb : b.toList = textOf first) : Appended (some b)
  | cut {b : String} {kept : List Char} (hlt : max < utf8Len (textOf texts))
      (hnot : ∀ first, first <+: texts → utf8Len (textOf first) ≠ max)
      (hkept : kept <+: textOf texts) (hlen : utf8Len kept = max)
      (hb : b.toList = kept ++ truncationMarker.toList) : Appended (some b)
  | panicked (hlt : max < utf8Len (textOf texts))
      (hnot : ∀ p, p <+: textOf texts → utf8Len p ≠ max) : Appended none

theorem textOf_concat (text) : textOf (texts ++ [text]) = textOf texts ++ text.toList := by
  simp [textOf]

theorem appendBounded_of_full {b : String} (h : max ≤ utf8Len b.toList) (text) :
    appendBounded b text max = some b := by
  rw [String.utf8Len_toList] at h
  exact if_pos h

theorem Appended.append {r} (h : Appended max texts r) (text) :
    Appended max (texts ++ [text]) (r.bind (appendBounded · text max)) := by
  have hm : textOf texts <+: textOf (texts ++ [text]) := textOf_concat text ▸ prefix_append _ _
  have hl : utf8Len (textOf (texts ++ [text])) = utf8Len (textOf texts) + utf8Len text.toList := by
    rw [textOf_concat, utf8Len_append]
  -- a limit below the text so far is not met by one text more
  have hn' : max < utf8Len (textOf texts) + utf8Len text.toList →
      (∀ first, first <+: texts → utf8Len (textOf first) ≠ max) →
      ∀ first, first <+: texts ++ [text] → utf8Len (textOf first) ≠ max := by
    intro hlt hn first hf
    obtain rfl | hf := prefix_concat_iff.mp hf
    · omega
    · exact hn first hf
  cases h with
  | @fits b hle hb =>
    rw [Option.bind_some, appendBounded]
    simp only [len, ← String.utf8Len_toList, hb]
    split
    · by_cases he : utf8Len text.toList = 0
      · exact .fits (by omega) (by rw [textOf_concat]; simp_all)
      · exact .met (by omega) (prefix_append _ _) (by omega) hb
    · split
      · exact .fits (by omega) (by rw [textOf_concat, String.toList_append, hb])
      · have hs := @sliceTo_append_of_ge max _ text.toList hle
        rw [← textOf_concat] at hs
        cases hcu : sliceTo (max - utf8Len (textOf texts)) text.toList with
        | none =>
          refine .panicked (by omega) fun p hp hma => ?_
          rw [hcu, sliceTo_eq_some_iff.mpr ⟨hp, hma⟩] at hs
          cases hs
        | some q =>
          rw [hcu] at hs
          obtain ⟨hq, hma⟩ := sliceTo_eq_some_iff.mp hs
          refine .cut (by omega) (hn' (by omega) fun first hf => ?_) hq hma (by simp [hb])
          obtain ⟨_, rfl⟩ := hf
          simp only [textOf, flatMap_append, utf8Len_append] at *
          omega
  | met hlt hf hma hb =>
    rw [Option.bind_some, appendBounded_of_full (by rw [hb, hma])]
    exact .met (by omega) (hf.trans (prefix_append _ _)) hma hb
  | cut hlt hn hp hma hb =>
    rw [Option.bind_some, appendBounded_of_full (by rw [hb, utf8Len_append]; omega)]
    exact .cut (by omega) (hn' (by omega) hn) (hp.trans hm) hma hb
  | panicked hlt hn =>
    refine .panicked (by omega) fun p hp hma => hn p ?_ hma
    have hc := prefix_or_prefix_of_prefix hp hm
    refine hc.resolve_right fun hle => ?_
    have := utf8Len_le_of_prefix hle
    omega

theorem appended_foldlM (max texts) :
    Appended max texts (texts.foldlM (appendBounded · · max) "") := by
  induction texts using reverseRecOn with
  | nil => exact .fits (Nat.zero_le max) rfl
  | append_singleton _ text ih =>
    simpa using ih.append text

/-- No call panics, and the buffer is the front of the text, with a marker if and only if some text
was dropped. -/
def BufferHonest (max : Nat) (texts : List String) : Prop :=
  ∃ b kept, texts.foldlM (appendBounded · · max) "" = some b ∧ kept <+: textOf texts ∧
    b.toList = kept ++ (if kept = textOf texts then [] else truncationMarker.toList) ∧
    len b ≤ max + len truncationMarker

/-- All the text fits; or the limit is between two characters of the text and not where one of the
texts ends, unless the text itself has the marker there. -/
def Cuttable (max : Nat) (texts : List String) : Prop :=
  utf8Len (textOf texts) ≤ max ∨ ∃ kept, kept <+: textOf texts ∧ utf8Len kept = max ∧
    (truncationMarker.toList <:+ kept ∨
      ∀ first, first <+: texts → utf8Len (textOf first) ≠ max)

/-- The buffer is honest exactly for the texts that can be cut at the limit. -/
theorem buffer_honest_iff (max : Nat) (texts : List String) :
    BufferHonest max texts ↔ Cuttable max texts := by
  have ha := appended_foldlM max texts
  unfold BufferHonest Cuttable
  generalize texts.foldlM (appendBounded · · max) "" = r at ha
  cases ha with
  | fits hle hb =>
    refine iff_of_true ⟨_, _, rfl, prefix_rfl, by rw [if_pos rfl, append_nil, hb], ?_⟩ (.inl hle)
    rw [len, ← String.utf8Len_toList, hb]
    omega
  | @met b first hlt hf hm hb =>
    have hp : textOf first <+: textOf texts := by
      obtain ⟨rest, rfl⟩ := hf
      simp [textOf]
    constructor
    · rintro ⟨_, kept, ⟨⟩, hk, heq, -⟩
      rw [hb] at heq
      split at heq
      · simp_all
      · exact .inr ⟨_, hp, hm, .inl ⟨kept, heq.symm⟩⟩
    · rintro (hle | ⟨kept, hk, hl, ⟨rest, rfl⟩ | hn⟩)
      · omega
      · have hs := sliceTo_eq_some_iff.mpr ⟨hk, hl⟩
        rw [sliceTo_eq_some_iff.mpr ⟨hp, hm⟩, Option.some.injEq] at hs
        refine ⟨b, rest, rfl, (prefix_append _ _).trans hk, ?_, ?_⟩
        · rw [if_neg, hb, hs]
          rintro rfl
          rw [utf8Len_append] at hl
          omega
        · rw [len, ← String.utf8Len_toList, hb]
          omega
      · exact absurd hm (hn first hf)
  | cut hlt hn hk hm hb =>
    refine iff_of_true ⟨_, _, rfl, hk, ?_, ?_⟩ (.inr ⟨_, hk, hm, .inr hn⟩)
    · rw [if_neg, hb]
      rintro rfl
      omega
    · rw [len, ← String.utf8Len_toList, hb, utf8Len_append, hm, String.utf8Len_toList]
      rfl
  | panicked hlt hn =>
    refine iff_of_false (by simp) ?_
    rintro (hle | ⟨kept, hk, hl, -⟩)
    · omega
    · exact hn kept hk hl

/-- A character of two bytes, and a limit of one. -/
theorem buffer_panics : ¬ BufferHonest 1 ["é"] := by
  rintro ⟨b, _, hb, -⟩
  have hn : ["é"].foldlM (appendBounded · · 1) "" = none := by decide
  rw [hn] at hb
  cases hb

end Uptrakit.Agent
