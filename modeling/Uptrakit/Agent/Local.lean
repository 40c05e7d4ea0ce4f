import Uptrakit.Agent.Reports
import Uptrakit.Concurrent.Run

/-!
# The agent of a host

The agent of a single host (`crates/core/agent-runtime/src/lib.rs`) runs at most one update.
A request passes three gates before it is handled: it must be for this host, there must be no
freeze file, and the last accepted request must be at least five seconds ago.  A request that
a gate stops leaves only an audit event.  A request that passes while an update is running is
rejected with a failure.

The failure is sent for the update of the request.  If that is the update that is running, it
is false, so the results of the agent are truthful only in runs in which a request for an
update that has been started does not find the agent busy (`truthful_run`).
-/

namespace Uptrakit.Agent

open Concurrent List Ledger Option

namespace Local

/-! ## The runtime -/

structure InFlightUpdate where
  task : UpdateTask
  earlySent : Bool

def InFlightUpdate.updateHistoryId (u : InFlightUpdate) : Uuid := u.task.execution.updateHistoryId

structure AgentRuntime where
  machineId : String := ""
  inFlightUpdate : Option InFlightUpdate := none
  lastUpdateAccepted : Option Nat := none

/-- What a handler leaves: the runtime, its messages, and the execution it has started. -/
structure Handled where
  agent : AgentRuntime
  messages : List ServiceMessage := []
  started : Option Execution := none

namespace AgentRuntime

variable (agent : AgentRuntime)

def machineIdMatches (messageName hostMachineId : String) : Except RuntimeAuditEvent Unit :=
  if hostMachineId = agent.machineId then .ok ()
  else .error (.machineIdValidate messageName agent.machineId hostMachineId)

def executionFrozen (frozen : Bool) (messageName : String) : Except RuntimeAuditEvent Unit :=
  if frozen then .error (.updateGate messageName "freeze" none none none) else .ok ()

def acceptUpdateExecution (now : Nat) (messageName : String) :
    Except RuntimeAuditEvent AgentRuntime :=
  match agent.lastUpdateAccepted with
  | some last =>
    if now - last < updateCooldown then
      .error (.updateGate messageName "cooldown" none (some (updateCooldown / 1000))
        (some (now - last)))
    else .ok { agent with lastUpdateAccepted := some now }
  | none => .ok { agent with lastUpdateAccepted := some now }

def gates (now : Nat) (frozen : Bool) (messageName hostMachineId : String) :
    Except RuntimeAuditEvent AgentRuntime := do
  agent.machineIdMatches messageName hostMachineId
  executionFrozen frozen messageName
  agent.acceptUpdateExecution now messageName

def handleExecuteUpdate (payload : ExecuteUpdatePayload) (start : Start) : Handled :=
  match agent.inFlightUpdate with
  | some _ =>
    { agent
      messages := [.updateResult (.failure payload.updateHistoryId
        "Another update is already in progress")] }
  | none =>
    let (task, message) := startUpdate payload start
    { agent := { agent with inFlightUpdate := some ⟨task, false⟩ }
      messages := [message]
      started := some task.execution }

def handleControllerMessage (now : Nat) (frozen : Bool) (msg : ControllerMessage)
    (start : Start) : Handled :=
  match msg with
  | .executeUpdate payload =>
    match agent.gates now frozen "ExecuteUpdate" payload.hostMachineId with
    | .error event => { agent, messages := [.auditEvent event] }
    | .ok agent => agent.handleExecuteUpdate payload start
  | .executeBatchUpdate hostMachineId =>
    match agent.gates now frozen "ExecuteBatchUpdate" hostMachineId with
    | .error event => { agent, messages := [.auditEvent event] }
    | .ok agent => { agent }
  | .resetData => { agent }

/-- Send the early results that are still in the channel, unless one has been sent. -/
def drainEarly : Bool → List UpdateResultPayload → List ServiceMessage × Bool
  | earlySent, [] => ([], earlySent)
  | true, _ :: rest => drainEarly true rest
  | false, early :: rest =>
    let (messages, earlySent) := drainEarly true rest
    (.updateResult early :: messages, earlySent)

def handleEvent (event : UpdateEvent) : Handled :=
  match agent.inFlightUpdate with
  | none => { agent }
  | some update =>
    match event with
    | .output line => { agent, messages := [.updateOutput update.updateHistoryId line] }
    | .completed result =>
      let (messages, earlySent) := drainEarly update.earlySent update.task.earlyResultRx
      { agent := { agent with inFlightUpdate := none }
        messages := messages ++
          if earlySent then []
          else [.updateResult (sendUpdateResult update.updateHistoryId result)] }
    | .earlyResult early =>
      if update.earlySent then { agent }
      else
        { agent := { agent with inFlightUpdate := some { update with earlySent := true } }
          messages := [.updateResult early] }

/-- `poll_event` for the update in flight, and the handling of the event. -/
def poll (ready : Ready) : Handled :=
  match agent.inFlightUpdate with
  | none => { agent }
  | some update =>
    match update.task.poll ready with
    | none => { agent }
    | some (event, task) =>
      handleEvent { agent with inFlightUpdate := some { update with task } } event

/-- `on_connected`; it stops if the registration cannot be sent. -/
def onConnected (machineId : String) (interactive accepted : Bool) : Handled :=
  if accepted then
    { agent := { agent with machineId }
      messages := .register :: agent.inFlightUpdate.toList.map fun update =>
        .updateStarted update.updateHistoryId interactive }
  else { agent, messages := [.register] }

end AgentRuntime

open AgentRuntime

/-! ## Runs -/

structure System where
  agent : AgentRuntime := {}
  now : Nat := 0
  frozen : Bool := false
  ledger : Ledger := {}

inductive Move
  | receive (msg : ControllerMessage) (start : Start)
  /-- The task of the update makes progress. -/
  | progress (p : Progress)
  | poll (ready : Ready)
  | connect (machineId : String) (interactive accepted : Bool)
  | wait (ms : Nat)
  /-- The freeze file is created or removed. -/
  | freeze (frozen : Bool)

def System.record (s : System) (h : Handled) : System :=
  { s with agent := h.agent, ledger := s.ledger.record h.started h.messages }

def move (s : System) : Move → System
  | .receive msg start => s.record (s.agent.handleControllerMessage s.now s.frozen msg start)
  | .progress p =>
    { s with agent.inFlightUpdate :=
        s.agent.inFlightUpdate.map fun update => { update with task := update.task.advance p } }
  | .poll ready => s.record (s.agent.poll ready)
  | .connect machineId interactive accepted =>
    s.record (s.agent.onConnected machineId interactive accepted)
  | .wait ms => { s with now := s.now + ms }
  | .freeze frozen => { s with frozen }

def run (s : System) (moves : List Move) : System := moves.foldl move s

/-! ## Gates -/

/-- A request for the host passes the gates. -/
structure Admitted (s : System) (hostMachineId : String) : Prop where
  machineId : hostMachineId = s.agent.machineId
  frozen : s.frozen = false
  cooldown : ∀ last ∈ s.agent.lastUpdateAccepted, updateCooldown ≤ s.now - last

instance (s : System) (hostMachineId : String) : Decidable (Admitted s hostMachineId) :=
  decidable_of_iff (hostMachineId = s.agent.machineId ∧ s.frozen = false ∧
      ∀ last ∈ s.agent.lastUpdateAccepted, updateCooldown ≤ s.now - last)
    ⟨fun h => ⟨h.1, h.2.1, h.2.2⟩, fun h => ⟨h.machineId, h.frozen, h.cooldown⟩⟩

section Gates

variable {s : System} {messageName hostMachineId : String}

theorem gates_of_admitted (h : Admitted s hostMachineId) :
    s.agent.gates s.now s.frozen messageName hostMachineId =
      .ok { s.agent with lastUpdateAccepted := some s.now } := by
  have ha : s.agent.acceptUpdateExecution s.now messageName =
      .ok { s.agent with lastUpdateAccepted := some s.now } := by
    unfold acceptUpdateExecution
    split
    · rename_i last hl
      rw [if_neg (Nat.not_lt.2 (h.cooldown last hl))]
    · rfl
  simp only [gates, machineIdMatches, h.machineId, h.frozen, ha]
  rfl

theorem gates_of_not_admitted (h : ¬ Admitted s hostMachineId) :
    ∃ event, s.agent.gates s.now s.frozen messageName hostMachineId = .error event := by
  cases hg : s.agent.gates s.now s.frozen messageName hostMachineId with
  | error event => exact ⟨event, rfl⟩
  | ok =>
    unfold gates machineIdMatches executionFrozen acceptUpdateExecution at hg
    split at hg
    · rename_i hid
      split at hg
      · cases hg
      · rename_i hf
        split at hg
        · rename_i last hl
          split at hg
          · cases hg
          · rename_i hge
            refine absurd ⟨hid, by simpa using hf, ?_⟩ h
            simpa [hl] using hge
        · rename_i hl
          exact absurd ⟨hid, by simpa using hf, by simp [hl]⟩ h
    · cases hg

end Gates

/-! ## Truthful results -/

/-- What a handler leaves agrees with the ledger: its messages are fair, and the update in
flight has been started. -/
structure Faithful (l : Ledger) (h : Handled) : Prop where
  fair : ∀ m ∈ h.messages, (l.record h.started h.messages).Fair m
  tracked : ∀ u, h.agent.inFlightUpdate = some u →
    u.task.execution ∈ (l.record h.started h.messages).executions

section Handlers

variable {l : Ledger} {agent : AgentRuntime}

theorem faithful_of_messages {h : Handled}
    (ha : ∀ u, h.agent.inFlightUpdate = some u → u.task.execution ∈ l.executions)
    (hf : ∀ m ∈ h.messages, (l.record h.started h.messages).Fair m) : Faithful l h := by
  refine ⟨hf, ?_⟩
  intro u hu
  exact executions_subset_record _ _ (ha u hu)

/-- A handler that sends nothing about an update. -/
theorem faithful_of_silent {h : Handled}
    (ha : ∀ u, h.agent.inFlightUpdate = some u → u.task.execution ∈ l.executions)
    (hme : ∀ m ∈ h.messages, m.answers = none) : Faithful l h := by
  refine faithful_of_messages ha ?_
  intro m hm
  exact fair_of_answers_eq_none (hme m hm)

theorem mem_drainEarly {earlySent rx m} (h : m ∈ (drainEarly earlySent rx).1) :
    ∃ p ∈ rx, m = .updateResult p := by
  induction rx generalizing earlySent with
  | nil => cases h
  | cons early _ ih =>
    cases earlySent with
    | true =>
      obtain ⟨p, hp, rfl⟩ := ih h
      exact ⟨p, mem_cons_of_mem early hp, rfl⟩
    | false =>
      rcases mem_cons.1 h with rfl | h
      · exact ⟨early, mem_cons_self, rfl⟩
      · obtain ⟨p, hp, rfl⟩ := ih h
        exact ⟨p, mem_cons_of_mem early hp, rfl⟩

variable (htracked : ∀ u, agent.inFlightUpdate = some u → u.task.execution ∈ l.executions)

include htracked

theorem faithful_handleExecuteUpdate {payload : ExecuteUpdatePayload} (start)
    (hi : l.Started payload.updateHistoryId → agent.inFlightUpdate = none) :
    Faithful l (agent.handleExecuteUpdate payload start) := by
  unfold handleExecuteUpdate
  split
  · rename_i u hu
    refine faithful_of_messages htracked ?_
    intro m hm
    cases mem_singleton.1 hm
    apply fair_updateResult_of_not_started
    rw [started_record_none]
    intro hs
    cases hu.symm.trans (hi hs)
  · have hme : executeUpdate payload start.course ∈
        (l.record (some (executeUpdate payload start.course))
          [(startUpdate payload start).2]).executions :=
      mem_append_right _ mem_cons_self
    constructor
    · intro m hm
      cases mem_singleton.1 hm
      exact fair_updateStarted ⟨_, hme, rfl⟩ _
    · rintro u ⟨⟩
      exact hme

theorem faithful_handleEvent {u} {event : UpdateEvent} (hu : agent.inFlightUpdate = some u)
    (he : event.Of u.task.execution) : Faithful l (agent.handleEvent event) := by
  have hme := htracked u hu
  have hr : ∀ messages, u.task.execution ∈ (l.record none messages).executions := by
    intro messages
    exact executions_subset_record _ _ hme
  simp only [handleEvent, hu]
  cases event with
  | output => exact faithful_of_silent htracked (forall_mem_singleton.2 rfl)
  | completed =>
    refine faithful_of_messages ?_ ?_
    · intro u' hu'
      cases hu'
    · intro m hm
      rcases mem_append.1 hm with hm | hm
      · obtain ⟨p, hp, rfl⟩ := mem_drainEarly hm
        have hea := u.task.early_of_mem p hp
        exact fair_updateResult (hr _) (Execution.early_mem_results hea)
      · split at hm
        · cases hm
        · cases mem_singleton.1 hm
          cases he
          exact fair_updateResult (hr _) Execution.final_mem_results
  | earlyResult =>
    dsimp only
    split
    · exact faithful_of_silent htracked (forall_mem_nil _)
    · refine faithful_of_messages ?_ ?_
      · rintro u' ⟨⟩
        exact hme
      · intro m hm
        cases mem_singleton.1 hm
        exact fair_updateResult (hr _) (Execution.early_mem_results he)

theorem faithful_poll (ready : Ready) : Faithful l (agent.poll ready) := by
  fun_cases poll agent ready with
  | case3 u hu event task hp =>
    obtain ⟨hev, he⟩ := UpdateTask.of_poll hp
    refine faithful_handleEvent ?_ rfl ?_
    · rintro _ ⟨⟩
      rw [he]
      exact htracked u hu
    · rwa [he]
  | _ => exact faithful_of_silent htracked (forall_mem_nil _)

theorem faithful_onConnected (machineId interactive accepted) :
    Faithful l (agent.onConnected machineId interactive accepted) := by
  unfold onConnected
  split
  · refine faithful_of_messages htracked ?_
    intro m hm
    rcases mem_cons.1 hm with rfl | hm
    · exact fair_of_answers_eq_none rfl
    · obtain ⟨u, hu, rfl⟩ := mem_map.1 hm
      have hme := htracked u (mem_toList.1 hu)
      exact fair_updateStarted ⟨_, executions_subset_record _ _ hme, rfl⟩ _
  · exact faithful_of_silent htracked (forall_mem_singleton.2 rfl)

end Handlers

/-- A request for an update that has been started and passes the gates finds no update in
flight. -/
def Steady (s : System) : Move → Prop
  | .receive (.executeUpdate payload) _ =>
    Admitted s payload.hostMachineId → s.ledger.Started payload.updateHistoryId →
      s.agent.inFlightUpdate.isNone = true
  | _ => True

instance (s : System) : ∀ m, Decidable (Steady s m)
  | .receive (.executeUpdate payload) _ => inferInstanceAs (Decidable
      (Admitted s payload.hostMachineId → s.ledger.Started payload.updateHistoryId →
        s.agent.inFlightUpdate.isNone = true))
  | .receive (.executeBatchUpdate _) _ | .receive .resetData _ | .progress _ | .poll _
  | .connect .. | .wait _ | .freeze _ => inferInstanceAs (Decidable True)

/-- The ledger is truthful, and the update in flight has been started. -/
structure Sound (s : System) : Prop where
  truthful : s.ledger.Truthful
  tracked : ∀ u, s.agent.inFlightUpdate = some u → u.task.execution ∈ s.ledger.executions

namespace Sound

variable {s : System}

theorem record (h : Sound s) {handled} (hf : Faithful s.ledger handled) :
    Sound (s.record handled) :=
  ⟨h.truthful.record hf.fair, hf.tracked⟩

theorem receive (h : Sound s) {msg start} (hst : Steady s (.receive msg start)) :
    Sound (Local.move s (.receive msg start)) := by
  apply h.record
  cases msg with
  | executeUpdate payload =>
    simp only [handleControllerMessage]
    by_cases ha : Admitted s payload.hostMachineId
    · rw [gates_of_admitted ha]
      refine faithful_handleExecuteUpdate (by exact h.tracked) start ?_
      intro hs
      exact isNone_iff_eq_none.1 (hst ha hs)
    · obtain ⟨event, he⟩ := gates_of_not_admitted ha
      rw [he]
      exact faithful_of_silent h.tracked (forall_mem_singleton.2 rfl)
  | executeBatchUpdate hostMachineId =>
    simp only [handleControllerMessage]
    by_cases ha : Admitted s hostMachineId
    · rw [gates_of_admitted ha]
      exact faithful_of_silent h.tracked (forall_mem_nil _)
    · obtain ⟨event, he⟩ := gates_of_not_admitted ha
      rw [he]
      exact faithful_of_silent h.tracked (forall_mem_singleton.2 rfl)
  | resetData => exact faithful_of_silent h.tracked (forall_mem_nil _)

theorem move (h : Sound s) {m} (hs : Steady s m) : Sound (Local.move s m) := by
  cases m with
  | receive => exact h.receive hs
  | progress =>
    refine ⟨h.truthful, ?_⟩
    intro u hu
    obtain ⟨u', hu', rfl⟩ := map_eq_some_iff.1 hu
    rw [UpdateTask.execution_advance]
    exact h.tracked u' hu'
  | poll ready => exact h.record (faithful_poll h.tracked ready)
  | connect machineId interactive accepted =>
    exact h.record (faithful_onConnected h.tracked machineId interactive accepted)
  | wait | freeze => exact ⟨h.truthful, h.tracked⟩

end Sound

/-- The ledger of an agent that is not asked again for an update while it is busy. -/
theorem truthful_run {moves} (h : Meets move Steady {} moves) : (run {} moves).ledger.Truthful := by
  have hso : Sound (run {} moves) := by
    refine foldl_invariant_of_meets ?_ ⟨truthful_nil, ?_⟩ h
    · intro s m hs hm
      exact hs.move hm
    · intro u hu
      cases hu
  exact hso.truthful

/-! ## Answers -/

variable {payload : ExecuteUpdatePayload}

/-- A request that passes the gates is answered. -/
theorem answered_of_admitted {s} (h : Admitted s payload.hostMachineId) (start) :
    ∃ m ∈ (s.agent.handleControllerMessage s.now s.frozen (.executeUpdate payload) start).messages,
      m.answers = some payload.updateHistoryId := by
  simp only [handleControllerMessage, gates_of_admitted h, handleExecuteUpdate]
  split
  · exact ⟨_, mem_cons_self, rfl⟩
  · exact ⟨_, mem_cons_self, rfl⟩

end Local

end Uptrakit.Agent
