import Uptrakit.Agent.Local
import Uptrakit.Agent.Ssh

/-!
# Update requests and their results

What holds of both agents, in every run before shutdown.

* A result for an update that has been started is the early or the final result of one of its
  executions, if no request for such an update finds the agent unable to start it
  (`results_truthful`).  A request that is repeated while its update is running is answered with
  a failure of the running update (`running_update_reported_failed`).
* A request that passes the gates is answered (`requests_answered`).  A request that a gate stops
  is not (`requests_dropped`).
-/

namespace Uptrakit.Agent

open Concurrent List

/-! ## Results -/

/-- In every run in which no request for an update that has been started finds the agent unable
to start it, the results for updates that have been started are those of their executions. -/
theorem results_truthful (moves : List Local.Move) (moves' : List Ssh.Move) :
    (Meets Local.move Local.Steady {} moves →
      ∀ (i j : Nat) (m : ServiceMessage) (p : UpdateResultPayload), i < j →
        (Local.run {} moves).ledger.sent[i]? = some m → m.starts = some p.updateHistoryId →
        (Local.run {} moves).ledger.sent[j]? = some (.updateResult p) →
        (Local.run {} moves).ledger.Outcome p) ∧
      (Meets Ssh.move Ssh.Steady {} moves' →
        ∀ (i j : Nat) (m : ServiceMessage) (p : UpdateResultPayload), i < j →
          (Ssh.run {} moves').ledger.sent[i]? = some m → m.starts = some p.updateHistoryId →
          (Ssh.run {} moves').ledger.sent[j]? = some (.updateResult p) →
          (Ssh.run {} moves').ledger.Outcome p) := by
  constructor
  · intro hm i j m p hij hi hs hj
    exact (Local.truthful_run hm).outcome_of_lt hij hi hj hs
  · intro hm i j m p hij hi hs hj
    exact (Ssh.truthful_run hm).outcome_of_lt hij hi hj hs

section Example

/-- An update of the host `machine`. -/
def request (id : Uuid) : ExecuteUpdatePayload := ⟨"machine", id, 60, false⟩

def success : Start := ⟨{ pipeline := .finished true false "installed" }, false⟩

def ask (id : Uuid) : Local.Move := .receive (.executeUpdate (request id)) success

def online : Local.Move := .connect "machine" false true

def ends : List Local.Move := [.progress .finish, .poll .handle]

def askSsh (id : Uuid) : Ssh.Move := .receive (.executeUpdate (request id)) { start := success }

def onlineSsh : List Ssh.Move := [.connect true, .settings [] true]

def endsSsh : List Ssh.Move := [.progress 0 .finish, .forward 0 .handle, .poll]

def installed : UpdateResultPayload := (executeUpdate (request 1) success.course).final

/-- An update is asked for a second time when it has ended. -/
def repeated : List Local.Move := online :: ask 1 :: ends ++ [.wait 9000, online, ask 1]

def repeatedSsh : List Ssh.Move :=
  onlineSsh ++ askSsh 1 :: endsSsh ++ .wait 9000 :: onlineSsh ++ [askSsh 1]

theorem results_truthful_repeated :
    Meets Local.move Local.Steady {} repeated ∧ Meets Ssh.move Ssh.Steady {} repeatedSsh ∧
      (Local.run {} repeated).ledger.Outcome installed ∧
      (Ssh.run {} repeatedSsh).ledger.Outcome installed := by
  have hl : Meets Local.move Local.Steady {} repeated := by decide +kernel
  have hs : Meets Ssh.move Ssh.Steady {} repeatedSsh := by decide +kernel
  refine ⟨hl, hs, ?_, ?_⟩
  · exact (results_truthful repeated repeatedSsh).1 hl 1 2 (.updateStarted 1 false) installed
      (by decide) (by decide +kernel) (by decide +kernel) (by decide +kernel)
  · exact (results_truthful repeated repeatedSsh).2 hs 1 2 (.updateStarted 1 false) installed
      (by decide) (by decide +kernel) (by decide +kernel) (by decide +kernel)

/-- An update is asked for again after a reconnection, while it is running: the agent reports a
failure, which is not the result of the execution, and afterwards the result. -/
theorem running_update_reported_failed :
    let s := Local.run {} (online :: ask 1 :: .wait 9000 :: online :: ask 1 :: ends)
    let s' := Ssh.run {} (onlineSsh ++ askSsh 1 :: .wait 9000 :: onlineSsh ++ askSsh 1 :: endsSsh)
    let failed := UpdateResultPayload.failure 1 "Another update is already in progress"
    let failed' := UpdateResultPayload.failure 1
      "Another update is already in progress for host 'machine'"
    s.ledger.sent = [.register, .updateStarted 1 false, .register, .updateStarted 1 false,
        .updateResult failed, .updateResult installed] ∧
      ¬ s.ledger.Outcome failed ∧
      s'.ledger.sent = [.register, .updateStarted 1 false, .register, .updateStarted 1 false,
        .updateResult failed', .updateResult installed] ∧
      ¬ s'.ledger.Outcome failed' := by
  decide +kernel

end Example

/-! ## Answers -/

/-- In every state that is reached, a request that passes the gates is answered by the time its
handling returns. -/
theorem requests_answered (moves : List Local.Move) (moves' : List Ssh.Move)
    (payload : ExecuteUpdatePayload) (start : Start) (env : Ssh.Environment) :
    (Local.Admitted (Local.run {} moves) payload.hostMachineId →
      ∃ m ∈ (Local.run {} (moves ++ [.receive (.executeUpdate payload) start])).ledger.sent,
        m.answers = some payload.updateHistoryId) ∧
      (Ssh.Admitted (Ssh.run {} moves') payload.hostMachineId →
        ∃ m ∈ (Ssh.run {} (moves' ++ [.receive (.executeUpdate payload) env])).ledger.sent,
          m.answers = some payload.updateHistoryId) := by
  constructor
  · intro ha
    obtain ⟨m, hm, han⟩ := Local.answered_of_admitted ha start
    refine ⟨m, ?_, han⟩
    rw [Local.run, foldl_append]
    exact mem_append_right _ hm
  · intro ha
    obtain ⟨m, hm, han⟩ := Ssh.answered_of_admitted ha env
    refine ⟨m, ?_, han⟩
    rw [Ssh.run, foldl_append]
    exact mem_append_right _ hm

section Example

/-- An update has ended, and the cooldown is over. -/
def cooled : List Local.Move := online :: ask 1 :: ends ++ [.wait 9000]

def cooledSsh : List Ssh.Move := onlineSsh ++ askSsh 1 :: endsSsh ++ [.wait 9000]

/-- Requests for another update, then. -/
theorem requests_answered_cooled :
    Local.Admitted (Local.run {} cooled) "machine" ∧ Ssh.Admitted (Ssh.run {} cooledSsh) "machine" ∧
      (∃ m ∈ (Local.run {} (cooled ++ [ask 2])).ledger.sent, m.answers = some 2) ∧
      ∃ m ∈ (Ssh.run {} (cooledSsh ++ [askSsh 2])).ledger.sent, m.answers = some 2 := by
  have hl : Local.Admitted (Local.run {} cooled) "machine" := by decide +kernel
  have hs : Ssh.Admitted (Ssh.run {} cooledSsh) "machine" := by decide +kernel
  have ha := requests_answered cooled cooledSsh (request 2) success { start := success }
  exact ⟨hl, hs, ha.1 hl, ha.2 hs⟩

/-- A request right after a short update, one while there is a freeze file, and one for another
host are not answered. -/
theorem requests_dropped :
    (∀ m ∈ (Local.run {} (online :: ask 1 :: ends ++ [.wait 2000, ask 2])).ledger.sent,
        m.answers ≠ some 2) ∧
      (∀ m ∈ (Local.run {} [online, .freeze true, ask 2]).ledger.sent, m.answers ≠ some 2) ∧
      (∀ m ∈ (Local.run {} [.connect "other" false true, ask 2]).ledger.sent, m.answers ≠ some 2) ∧
      (∀ m ∈ (Ssh.run {} (onlineSsh ++ askSsh 1 :: endsSsh ++ [.wait 2000, askSsh 2])).ledger.sent,
        m.answers ≠ some 2) ∧
      ∀ m ∈ (Ssh.run {} (onlineSsh ++ [.freeze true, askSsh 2])).ledger.sent,
        m.answers ≠ some 2 := by
  decide +kernel

end Example

end Uptrakit.Agent
