import Mathlib.Data.List.Pairwise
import Uptrakit.Agent.Execution

/-!
# What an agent reports

A ledger holds the executions that an agent has started and the messages that it has sent.
The ledger is truthful if a result that is sent for an update that has been started is a
result of an execution of that update.  An agent keeps its ledger truthful as long as each
message that it sends is fair: it sends no result for an update that it has started, but one
of an execution (`Truthful.record`).
-/

namespace Uptrakit.Agent

namespace ServiceMessage

def starts : ServiceMessage → Option Uuid
  | .updateStarted id _ => some id
  | _ => none

def result : ServiceMessage → Option UpdateResultPayload
  | .updateResult payload => some payload
  | _ => none

def answers : ServiceMessage → Option Uuid
  | .updateStarted id _ => some id
  | .updateResult payload => some payload.updateHistoryId
  | _ => none

end ServiceMessage

structure Ledger where
  executions : List Execution := []
  sent : List ServiceMessage := []

namespace Ledger

variable (l : Ledger)

/-- The agent has started the update. -/
def Started (id : Uuid) : Prop := ∃ e ∈ l.executions, e.updateHistoryId = id

instance (id : Uuid) : Decidable (l.Started id) :=
  inferInstanceAs (Decidable (∃ e ∈ l.executions, e.updateHistoryId = id))

/-- The result is one of an execution of its update. -/
def Outcome (p : UpdateResultPayload) : Prop :=
  ∃ e ∈ l.executions, e.updateHistoryId = p.updateHistoryId ∧ p ∈ e.results

instance (p : UpdateResultPayload) : Decidable (l.Outcome p) :=
  inferInstanceAs (Decidable (∃ e ∈ l.executions, _ ∧ _))

/-- The ledger after more messages, with an execution that has been started before them. -/
def record (started : Option Execution) (messages : List ServiceMessage) : Ledger :=
  ⟨l.executions ++ started.toList, l.sent ++ messages⟩

/-- The message says nothing false about the executions. -/
structure Fair (m : ServiceMessage) : Prop where
  starts : ∀ id, m.starts = some id → l.Started id
  result : ∀ p, m.result = some p → l.Started p.updateHistoryId → l.Outcome p

/-- Results that are sent after the start of their update are those of executions. -/
structure Truthful : Prop where
  started : ∀ m ∈ l.sent, ∀ id, m.starts = some id → l.Started id
  outcome : l.sent.Pairwise fun m m' =>
    ∀ p, m'.result = some p → m.starts = some p.updateHistoryId → l.Outcome p

variable {l}

theorem truthful_nil : Truthful {} := by
  constructor
  · intro m hm
    cases hm
  · exact .nil

variable {l' : Ledger} {p : UpdateResultPayload} {m : ServiceMessage}

theorem Started.mono {id} (h : l.Started id) (hs : l.executions ⊆ l'.executions) :
    l'.Started id := by
  obtain ⟨e, he, hid⟩ := h
  exact ⟨e, hs he, hid⟩

theorem Outcome.mono (h : l.Outcome p) (hs : l.executions ⊆ l'.executions) : l'.Outcome p := by
  obtain ⟨e, he, hp⟩ := h
  exact ⟨e, hs he, hp⟩

theorem executions_subset_record (started messages) :
    l.executions ⊆ (l.record started messages).executions := by
  intro e he
  exact List.mem_append_left _ he

theorem started_record_none {id messages} : (l.record none messages).Started id ↔ l.Started id := by
  simp [Started, record]

theorem Truthful.record {started messages} (h : l.Truthful)
    (hf : ∀ m ∈ messages, (l.record started messages).Fair m) :
    (l.record started messages).Truthful := by
  have hsu := executions_subset_record (l := l) started messages
  have hst : ∀ m ∈ (l.record started messages).sent, ∀ id, m.starts = some id →
      (l.record started messages).Started id := by
    intro m hm id hid
    rcases List.mem_append.1 hm with hm | hm
    · exact (h.started m hm id hid).mono hsu
    · exact (hf m hm).starts id hid
  refine ⟨hst, List.pairwise_append.2 ⟨?_, ?_, ?_⟩⟩
  · refine h.outcome.imp ?_
    intro m m' hm p hp hs
    exact (hm p hp hs).mono hsu
  · refine List.Pairwise.imp_of_mem ?_ (List.pairwise_of_forall fun _ _ => trivial)
    intro m m' hm hm' _ p hp hs
    exact (hf m' hm').result p hp ((hf m hm).starts _ hs)
  · intro m hm m' hm' p hp hs
    exact (hf m' hm').result p hp (hst m (List.mem_append_left _ hm) _ hs)

theorem Truthful.outcome_of_lt (h : l.Truthful) {i j : Nat} (hij : i < j) (hi : l.sent[i]? = some m)
    (hj : l.sent[j]? = some (.updateResult p)) (hs : m.starts = some p.updateHistoryId) :
    l.Outcome p := by
  obtain ⟨hil, rfl⟩ := List.getElem?_eq_some_iff.1 hi
  obtain ⟨hjl, hg⟩ := List.getElem?_eq_some_iff.1 hj
  refine List.pairwise_iff_getElem.1 h.outcome i j hil hjl hij p ?_ hs
  rw [hg]
  rfl

/-- A message that speaks of no update. -/
theorem fair_of_answers_eq_none (h : m.answers = none) : l.Fair m := by
  constructor
  · intro id hid
    cases m <;> cases hid
    cases h
  · intro p hp
    cases m <;> cases hp
    cases h

theorem fair_updateStarted {id} (h : l.Started id) (interactive : Bool) :
    l.Fair (.updateStarted id interactive) := by
  constructor
  · rintro id ⟨⟩
    exact h
  · rintro p ⟨⟩

theorem fair_updateResult {e} (he : e ∈ l.executions) (hp : p ∈ e.results) :
    l.Fair (.updateResult p) := by
  constructor
  · rintro id ⟨⟩
  · rintro p' ⟨⟩ -
    exact ⟨e, he, (Execution.updateHistoryId_of_mem_results hp).symm, hp⟩

theorem fair_updateResult_of_not_started (h : ¬ l.Started p.updateHistoryId) :
    l.Fair (.updateResult p) := by
  constructor
  · rintro id ⟨⟩
  · rintro p' ⟨⟩ hs
    exact absurd hs h

end Ledger

end Uptrakit.Agent
