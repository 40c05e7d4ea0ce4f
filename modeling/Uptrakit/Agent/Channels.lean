import Uptrakit.Concurrent.Run

/-!
# Channels of an interactive update

`poll_in_flight_update` of the agent (`crates/core/agent-runtime/src/lib.rs`) takes the receivers
out of the update before it waits, and puts them back after it has an event.  The event loop
drops the call, and the receivers with it, when another branch of its `select!` is ready
(`held_iff`).
-/

namespace Uptrakit.Agent.Channels

open Concurrent

structure Ends where
  stdinTx : Nat
  signalTx : Nat
  attentionRx : Nat

structure InFlightUpdate where
  stdinTx : Option Nat := none
  signalTx : Option Nat := none
  attentionRx : Option Nat := none
  channelsRx : Option Nat

structure State where
  update : InFlightUpdate
  resolved : Option (Except Unit Ends) := none

inductive Turn
  /-- The update is not polled. -/
  | skipped
  /-- The poll gives output, an early result or an attention signal. -/
  | event
  /-- The channel receiver resolves. -/
  | resolved (ends : Except Unit Ends)
  /-- The poll is dropped because another branch is ready. -/
  | dropped

/-- `poll_in_flight_update`, and `handle_event` for what it gives. -/
def turn (s : State) (t : Turn) : State :=
  let attentionRx := s.update.attentionRx
  let channelsRx := s.update.channelsRx
  let taken := { s.update with attentionRx := none, channelsRx := none }
  match t, channelsRx with
  | .skipped, _ => s
  | .event, _ => { s with update := { taken with attentionRx, channelsRx } }
  | .resolved (.ok ends), some _ =>
    { update :=
        { taken with
          stdinTx := some ends.stdinTx
          signalTx := some ends.signalTx
          attentionRx := some ends.attentionRx }
      resolved := some (.ok ends) }
  | .resolved (.error e), some _ =>
    { update := { taken with attentionRx }, resolved := some (.error e) }
  -- Without a receiver the branch never resolves.
  | .resolved _, none => s
  | .dropped, _ => { s with update := taken }

def start (rx : Nat) : State := { update := { channelsRx := some rx } }

/-- The channel receiver is held, or has resolved and its channels are stored. -/
def Held (rx : Nat) (s : State) : Prop :=
  match s.resolved with
  | none => s.update.channelsRx = some rx
  | some (.ok ends) =>
    s.update.stdinTx = some ends.stdinTx ∧ s.update.signalTx = some ends.signalTx ∧
      s.update.attentionRx = some ends.attentionRx
  | some (.error _) => True

/-- No poll is dropped before the channel receiver has resolved to an error, which leaves no
receiver to lose. -/
def Keeps (s : State) : Turn → Prop
  | .dropped => s.resolved = some (.error ())
  | _ => True

variable {rx : Nat} {s : State}

theorem held_turn_iff (h : Held rx s) (t) : Held rx (turn s t) ↔ Keeps s t := by
  cases t with
  | skipped | event => exact iff_true_intro h
  | resolved ends =>
    refine iff_true_intro ?_
    unfold turn
    cases s.update.channelsRx with
    | none => cases ends <;> exact h
    | some =>
      cases ends with
      | ok => exact ⟨rfl, rfl, rfl⟩
      | error => trivial
  | dropped =>
    unfold Held turn Keeps
    cases s.resolved with
    | none => exact iff_of_false nofun nofun
    | some ends =>
      cases ends with
      | ok => exact iff_of_false nofun nofun
      | error => exact iff_of_true trivial rfl

/-- After every turn the channels are held, exactly if every turn keeps them. -/
theorem held_iff (rx : Nat) (turns : List Turn) :
    Meets turn (fun s t => Held rx (turn s t)) (start rx) turns ↔
      Meets turn Keeps (start rx) turns := by
  have hs : Held rx (start rx) := rfl
  revert hs
  generalize start rx = s
  intro h
  induction turns generalizing s with
  | nil => exact Iff.rfl
  | cons t turns ih =>
    rw [Meets, held_turn_iff h]
    exact and_congr_right fun hk => ih _ ((held_turn_iff h t).2 hk)

/-- A controller message arrives while the first poll waits. -/
theorem dropped_loses :
    ¬ Meets turn (fun s t => Held 0 (turn s t)) (start 0) [.dropped] :=
  fun h => nomatch h.1

end Uptrakit.Agent.Channels
