import Uptrakit.Concurrent.Run

/-!
# Output at the end of an update

The loop of the agent (`crates/core/agent-runtime/src/lib.rs`) and the forwarder of the SSH agent
(`crates/core/agent-ssh-runtime/src/client.rs`) poll the early results of a task, then its output,
and then its handle.  Lines that the task queues between the last two polls are dropped with the
channel if it finishes there as well (`output_complete`).
-/

namespace Uptrakit.Agent.OutputOrder

open Concurrent List

inductive Item
  | line (text : String)
  | early
  deriving DecidableEq

inductive Event
  | output (line : String)
  | earlyResult
  | completed
  deriving DecidableEq

def Item.line? : Item → Option String
  | line text => some text
  | early => none

def Event.line? : Event → Option String
  | output line => some line
  | _ => none

/-- A task with what it will queue before it finishes, the two channels, and the events that the
loop has passed on. -/
structure State where
  pending : List Item
  earlyResultRx : Nat := 0
  outputRx : List String := []
  finished : Bool := false
  events : List Event := []
  deriving DecidableEq

/-- The task takes steps: an item each, and then its end. -/
def advance (s : State) (steps : Nat) : State :=
  { s with
    pending := s.pending.drop steps
    earlyResultRx := s.earlyResultRx + (s.pending.take steps).count .early
    outputRx := s.outputRx ++ (s.pending.take steps).filterMap Item.line?
    finished := s.finished || decide (s.pending.length < steps) }

inductive Step
  | task (steps : Nat)
  /-- A `select!`, with the steps of the task between the polls of the early results, the output and
  the handle. -/
  | select (before steps : Nat)

def step (s : State) : Step → State
  | .task steps => advance s steps
  | .select before steps =>
    -- The loop ends with the task.
    if .completed ∈ s.events then s
    else if s.earlyResultRx ≠ 0 then
      { s with earlyResultRx := s.earlyResultRx - 1, events := s.events ++ [.earlyResult] }
    else
      let s := advance s before
      match s.outputRx with
      | line :: rest => { s with outputRx := rest, events := s.events ++ [.output line] }
      | [] =>
        let s := advance s steps
        if s.finished then { s with events := s.events ++ [.completed] } else s

def run (items : List Item) (steps : List Step) : State := steps.foldl step { pending := items }

/-- Between the polls of its output and its handle the task does not both queue a line and
finish. -/
def Steady (s : State) : Step → Prop
  | .select before steps =>
    let s := advance s before
    s.pending.filterMap Item.line? = [] ∨ steps ≤ s.pending.length
  | .task _ => True

variable (lines : List String) in
/-- The lines are passed on in order, all of them before the end, and nothing after it. -/
structure Complete (s : State) : Prop where
  lines : s.events.filterMap Event.line? ++ s.outputRx ++ s.pending.filterMap Item.line? = lines
  finished : s.finished = true → s.pending = []
  ended : .completed ∈ s.events → s.finished = true ∧ s.outputRx = []
  last : ∀ handled, handled <+: s.events → .completed ∈ handled → handled = s.events

variable {lines : List String} {s : State}

theorem Complete.advance (h : Complete lines s) (steps) : Complete lines (advance s steps) := by
  refine ⟨?_, ?_, ?_, h.last⟩
  · simp [OutputOrder.advance, ← h.lines, ← filterMap_append]
  · intro hf
    rcases Bool.or_eq_true_iff.1 hf with hs | hs
    · simp [OutputOrder.advance, h.finished hs]
    · exact drop_of_length_le (Nat.le_of_lt (of_decide_eq_true hs))
  · intro hm
    obtain ⟨hf, hrx⟩ := h.ended hm
    simp [OutputOrder.advance, hf, hrx, h.finished hf]

/-- Another event, before the end. -/
theorem last_concat (h : .completed ∉ s.events) (e handled) (hp : handled <+: s.events ++ [e])
    (hm : .completed ∈ handled) : handled = s.events ++ [e] := by
  rcases prefix_concat_iff.1 hp with heq | hp
  · exact heq
  · exact absurd (hp.subset hm) h

theorem Complete.step {m} (h : Complete lines s) (hm : Steady s m) : Complete lines (step s m) := by
  fun_cases OutputOrder.step s m with
  | case1 steps => exact h.advance steps
  | case2 => exact h
  | case3 _ _ hno =>
    refine ⟨?_, h.finished, ?_, last_concat hno _⟩
    · simp [← h.lines, Event.line?]
    · simp [hno]
  | case4 before steps hno _ s' line rest hrx =>
    have hs : Complete lines s' := h.advance before
    refine ⟨?_, hs.finished, ?_, last_concat hno _⟩
    · simp [← hs.lines, hrx, Event.line?]
    · simp [s', OutputOrder.advance, hno]
  | case5 before steps hno _ s' hrx s'' hf =>
    have hs' : Complete lines s' := h.advance before
    have hs : Complete lines s'' := hs'.advance steps
    have he : s''.outputRx = [] := by
      have hn : (s'.pending.take steps).filterMap Item.line? = [] := by
        rcases Bool.or_eq_true_iff.1 hf with hs | hs
        · rw [hs'.finished hs, take_nil, filterMap_nil]
        · have hl := hm.resolve_right (Nat.not_le.2 (of_decide_eq_true hs))
          exact sublist_nil.1 (hl ▸ (take_sublist steps _).filterMap _)
      exact append_eq_nil_iff.2 ⟨hrx, hn⟩
    refine ⟨?_, hs.finished, fun _ => ⟨hf, he⟩, last_concat hno _⟩
    simp only [← hs.lines, filterMap_append, Event.line?, filterMap_cons, filterMap_nil, append_nil]
  | case6 before steps => exact (h.advance before).advance steps

/-- `handled` is what `handle_event` has been given: everything in the local agent, and a part of
the shared channel in the SSH agent. -/
theorem output_complete {items : List Item} {steps : List Step} {handled : List Event}
    (h : Meets step Steady { pending := items } steps)
    (hh : handled <+: (run items steps).events) (hc : .completed ∈ handled) :
    handled.filterMap Event.line? = items.filterMap Item.line? := by
  have hr : Complete (items.filterMap Item.line?) (run items steps) := by
    refine foldl_invariant_of_meets (fun _ _ hs hm => hs.step hm) ⟨rfl, nofun, nofun, ?_⟩ h
    intro _ hp _
    exact prefix_nil.1 hp
  obtain rfl := hr.last handled hh hc
  obtain ⟨hf, hrx⟩ := hr.ended hc
  have hl := hr.lines
  rwa [hrx, hr.finished hf, filterMap_nil, append_nil, append_nil] at hl

/-- The task queues its line and finishes between the last two polls. -/
theorem line_lost : Event.completed ∈ (run [.line "done"] [.select 0 2]).events ∧
    (run [.line "done"] [.select 0 2]).events.filterMap Event.line? ≠ ["done"] := by
  decide

def earlyItems : List Item := [.line "installed", .early, .line "restarting"]

def earlySteps : List Step := [.select 2 0, .select 0 1, .select 1 0, .select 0 1]

theorem output_complete_early :
    (run earlyItems earlySteps).events =
        [.output "installed", .earlyResult, .output "restarting", .completed] ∧
      (run earlyItems earlySteps).events.filterMap Event.line? = ["installed", "restarting"] := by
  have hs : Meets step Steady { pending := earlyItems } earlySteps :=
    ⟨.inr (by decide), .inr (by decide), .inl rfl, .inl rfl, trivial⟩
  exact ⟨by decide, output_complete hs (prefix_refl _) (by decide)⟩

end Uptrakit.Agent.OutputOrder
