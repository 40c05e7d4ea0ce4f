import Mathlib.Data.List.AList
import Uptrakit.Agent.Reports
import Uptrakit.Concurrent.Indexed
import Uptrakit.Concurrent.Run

/-!
# The SSH agent

The SSH agent (`crates/core/agent-ssh-runtime/src/{lib,client}.rs`) runs updates on many hosts,
one at a time on each.  The task of an update is owned by a forwarder, which passes its events
on to a channel that all forwarders share; the runtime takes an event from the channel and
looks up the update that is in flight on its host.

The event is attributed to the right update because a forwarder sends nothing after the end of
its task, and the next update on the host is started only when that end has been handled.
-/

namespace Uptrakit.Agent.Ssh

open Concurrent List Function Option Ledger

/-! ## The runtime -/

structure SshInFlightUpdate where
  updateHistoryId : Uuid
  earlySent : Bool := false

structure SshAgentRuntime where
  inFlightUpdates : AList fun _ : String => SshInFlightUpdate := ∅
  lastUpdatePerHost : String → Option Nat := fun _ => none
  pendingInitialHostReport : Bool := false

structure Forwarder where
  host : String
  task : UpdateTask

structure Forwarded where
  host : String
  event : UpdateEvent
  execution : Execution
  of : event.Of execution

inductive HostAccess
  | notFound
  | dbError (e : String)
  | connectionFailed (e : String)
  | session
  deriving DecidableEq

structure Environment where
  access : HostAccess := .session
  start : Start
  /-- The result of `handle_reset_data`. -/
  reset : Bool := true
  deriving DecidableEq

/-- What a handler leaves: the runtime, its messages, and the forwarder it has spawned. -/
structure Handled where
  agent : SshAgentRuntime
  messages : List ServiceMessage := []
  spawned : Option Forwarder := none

def Handled.started (h : Handled) : Option Execution := h.spawned.map (·.task.execution)

def makeSshUpdateErrorResponse (updateHistoryId : Uuid) (errorMessage : String) :
    ServiceMessage :=
  .updateResult (.failure updateHistoryId errorMessage)

namespace SshAgentRuntime

variable (agent : SshAgentRuntime)

def isUpdateAllowed (now : Nat) (frozen : Bool) (messageName hostMachineId : String) :
    Except RuntimeAuditEvent Unit :=
  if frozen then .error (.updateGate messageName "freeze" (some hostMachineId) none none)
  else
    match agent.lastUpdatePerHost hostMachineId with
    | some last =>
      if now - last < updateCooldown then
        .error (.updateGate messageName "cooldown" (some hostMachineId)
          (some (updateCooldown / 1000)) (some (now - last)))
      else .ok ()
    | none => .ok ()

def accept (now : Nat) (hostMachineId : String) : SshAgentRuntime :=
  { agent with lastUpdatePerHost :=
      Function.update agent.lastUpdatePerHost hostMachineId (some now) }

def handleExecuteUpdateSsh (payload : ExecuteUpdatePayload) (env : Environment) : Handled :=
  let reject (errorMessage : String) : Handled :=
    { agent, messages := [makeSshUpdateErrorResponse payload.updateHistoryId errorMessage] }
  match env.access with
  | .notFound => reject s!"SSH host with machine_id '{payload.hostMachineId}' not found"
  | .dbError e => reject s!"DB error: {e}"
  | .connectionFailed e => reject s!"SSH connection failed: {e}"
  | .session =>
    if (agent.inFlightUpdates.lookup payload.hostMachineId).isSome then
      reject s!"Another update is already in progress for host '{payload.hostMachineId}'"
    else
      let (task, message) := startUpdate payload env.start
      { agent :=
          { agent with
            inFlightUpdates := agent.inFlightUpdates.insert payload.hostMachineId
              ⟨payload.updateHistoryId, false⟩ }
        messages := [message]
        spawned := some ⟨payload.hostMachineId, task⟩ }

def handleControllerMessage (now : Nat) (frozen : Bool) (msg : ControllerMessage)
    (env : Environment) : Handled :=
  match msg with
  | .executeUpdate payload =>
    match agent.isUpdateAllowed now frozen "ExecuteUpdate" payload.hostMachineId with
    | .error event => { agent, messages := [.auditEvent event] }
    | .ok () => (agent.accept now payload.hostMachineId).handleExecuteUpdateSsh payload env
  | .executeBatchUpdate hostMachineId =>
    match agent.isUpdateAllowed now frozen "ExecuteBatchUpdate" hostMachineId with
    | .error event => { agent, messages := [.auditEvent event] }
    | .ok () => { agent := agent.accept now hostMachineId }
  | .resetData =>
    { agent := if env.reset then { agent with lastUpdatePerHost := fun _ => none } else agent }

/-- `SshAgentRuntime::handle_event` for an event from the shared channel. -/
def handleEvent (host : String) (event : UpdateEvent) : Handled :=
  match agent.inFlightUpdates.lookup host with
  | none => { agent }
  | some update =>
    match event with
    | .output line => { agent, messages := [.updateOutput update.updateHistoryId line] }
    | .completed result =>
      { agent := { agent with inFlightUpdates := agent.inFlightUpdates.erase host }
        messages :=
          if update.earlySent then []
          else [.updateResult (sendUpdateResult update.updateHistoryId result)] }
    | .earlyResult early =>
      if update.earlySent then { agent }
      else
        { agent :=
            { agent with inFlightUpdates :=
                agent.inFlightUpdates.insert host { update with earlySent := true } }
          messages := [.updateResult early] }

def inFlight (host : String) : Option Uuid :=
  (agent.inFlightUpdates.lookup host).map (·.updateHistoryId)

/-- `on_connected`; it stops if the registration cannot be sent. -/
def onConnected (accepted : Bool) : Handled :=
  { agent := if accepted then { agent with pendingInitialHostReport := true } else agent
    messages := [.register] }

/-- `apply_settings`, with the hosts on which the update is interactive; the first time after a
connection it reports the hosts, and stops if they cannot be sent. -/
def applySettings (interactive : List String) (accepted : Bool) : Handled :=
  if agent.pendingInitialHostReport && accepted then
    { agent := { agent with pendingInitialHostReport := false }
      messages := agent.inFlightUpdates.entries.map fun entry =>
        .updateStarted entry.2.updateHistoryId (interactive.contains entry.1) }
  else { agent }

end SshAgentRuntime

open SshAgentRuntime

/-! ## Runs -/

/-- The runtime with its forwarders and the shared channel, the time, whether the freeze file
exists, and the ledger. -/
structure System where
  agent : SshAgentRuntime := {}
  forwarders : List Forwarder := []
  aggregate : List Forwarded := []
  now : Nat := 0
  frozen : Bool := false
  ledger : Ledger := {}

inductive Move
  | receive (msg : ControllerMessage) (env : Environment)
  /-- A task makes progress. -/
  | progress (i : Nat) (p : Progress)
  /-- A forwarder passes an event on. -/
  | forward (i : Nat) (ready : Ready)
  /-- The runtime takes an event from the channel. -/
  | poll
  | connect (accepted : Bool)
  | settings (interactive : List String) (accepted : Bool)
  | wait (ms : Nat)
  | freeze (frozen : Bool)

def System.record (s : System) (h : Handled) : System :=
  { s with
    agent := h.agent
    forwarders := s.forwarders ++ h.spawned.toList
    ledger := s.ledger.record h.started h.messages }

/-- The `i`th forwarder passes an event on; it ends with its task. -/
def System.forward (s : System) (i : Nat) (ready : Ready) : System :=
  match s.forwarders[i]? with
  | none => s
  | some f =>
    match h : f.task.poll ready with
    | none => s
    | some (event, task) =>
      { s with
        forwarders :=
          if event.completes then s.forwarders.eraseIdx i
          else s.forwarders.set i { f with task }
        aggregate := s.aggregate ++
          [⟨f.host, event, f.task.execution, (UpdateTask.of_poll h).1⟩] }

/-- `poll_event` for the shared channel, and the handling of the event. -/
def System.poll (s : System) : System :=
  if s.agent.inFlightUpdates.entries.isEmpty then s
  else
    match s.aggregate with
    | [] => s
    | f :: rest => { s with aggregate := rest }.record (s.agent.handleEvent f.host f.event)

def move (s : System) : Move → System
  | .receive msg env => s.record (s.agent.handleControllerMessage s.now s.frozen msg env)
  | .progress i p =>
    { s with forwarders := s.forwarders.modify i fun f => { f with task := f.task.advance p } }
  | .forward i ready => s.forward i ready
  | .poll => s.poll
  | .connect accepted => s.record (s.agent.onConnected accepted)
  | .settings interactive accepted => s.record (s.agent.applySettings interactive accepted)
  | .wait ms => { s with now := s.now + ms }
  | .freeze frozen => { s with frozen }

def run (s : System) (moves : List Move) : System := moves.foldl move s

/-! ## Gates -/

/-- A request for the host passes the gates. -/
structure Admitted (s : System) (hostMachineId : String) : Prop where
  frozen : s.frozen = false
  cooldown : ∀ last ∈ s.agent.lastUpdatePerHost hostMachineId, updateCooldown ≤ s.now - last

instance (s : System) (hostMachineId : String) : Decidable (Admitted s hostMachineId) :=
  decidable_of_iff (s.frozen = false ∧
      ∀ last ∈ s.agent.lastUpdatePerHost hostMachineId, updateCooldown ≤ s.now - last)
    ⟨fun h => ⟨h.1, h.2⟩, fun h => ⟨h.frozen, h.cooldown⟩⟩

section Gates

variable {s : System} {messageName hostMachineId : String}

theorem isUpdateAllowed_of_admitted (h : Admitted s hostMachineId) :
    s.agent.isUpdateAllowed s.now s.frozen messageName hostMachineId = .ok () := by
  rw [isUpdateAllowed, h.frozen, if_neg Bool.false_ne_true]
  split
  · rename_i last hl
    rw [if_neg (Nat.not_lt.2 (h.cooldown last hl))]
  · rfl

theorem isUpdateAllowed_of_not_admitted (h : ¬ Admitted s hostMachineId) :
    ∃ event, s.agent.isUpdateAllowed s.now s.frozen messageName hostMachineId = .error event := by
  fun_cases isUpdateAllowed s.agent s.now s.frozen messageName hostMachineId with
  | case1 | case2 => exact ⟨_, rfl⟩
  | case3 hf last hl hge =>
    refine absurd ⟨Bool.not_eq_true _ ▸ hf, ?_⟩ h
    rw [hl]
    rintro _ ⟨⟩
    exact Nat.not_lt.1 hge
  | case4 hf hl =>
    refine absurd ⟨Bool.not_eq_true _ ▸ hf, ?_⟩ h
    rw [hl]
    rintro _ ⟨⟩

end Gates

/-! ## Truthful results -/

namespace SshAgentRuntime

variable (agent : SshAgentRuntime) (host : String)

theorem inFlight_insert (update) :
    inFlight { agent with inFlightUpdates := agent.inFlightUpdates.insert host update } =
      Function.update agent.inFlight host (some update.updateHistoryId) := by
  funext host'
  by_cases h : host' = host
  · subst h
    rw [inFlight, AList.lookup_insert, update_self, map_some]
  · rw [inFlight, AList.lookup_insert_ne h, update_of_ne h, inFlight]

theorem inFlight_erase :
    inFlight { agent with inFlightUpdates := agent.inFlightUpdates.erase host } =
      update agent.inFlight host none := by
  funext host'
  by_cases h : host' = host
  · subst h
    rw [inFlight, AList.lookup_erase, update_self, map_none]
  · rw [inFlight, AList.lookup_erase_ne h, update_of_ne h, inFlight]

/-- A request is rejected, or starts an update on an idle host. -/
theorem handleExecuteUpdateSsh_cases (payload env) :
    ((env.access ≠ .session ∨ agent.inFlight payload.hostMachineId ≠ none) ∧
      ∃ errorMessage, agent.handleExecuteUpdateSsh payload env =
        { agent
          messages := [makeSshUpdateErrorResponse payload.updateHistoryId errorMessage] }) ∨
    agent.inFlight payload.hostMachineId = none ∧ agent.handleExecuteUpdateSsh payload env =
      { agent :=
          { agent with inFlightUpdates :=
              agent.inFlightUpdates.insert payload.hostMachineId ⟨payload.updateHistoryId, false⟩ }
        messages := [(startUpdate payload env.start).2]
        spawned := some ⟨payload.hostMachineId, (startUpdate payload env.start).1⟩ } := by
  unfold handleExecuteUpdateSsh
  cases ha : env.access with
  | notFound | dbError | connectionFailed => exact .inl ⟨.inl nofun, _, rfl⟩
  | session =>
    dsimp only
    split
    · rename_i hs
      refine .inl ⟨.inr ?_, _, rfl⟩
      rw [inFlight, Ne, map_eq_none_iff]
      exact isSome_iff_ne_none.1 hs
    · rename_i hn
      refine .inr ⟨?_, rfl⟩
      rw [inFlight, map_eq_none_iff]
      exact not_isSome_iff_eq_none.1 hn

end SshAgentRuntime

/-- A request for an update that has been started and passes the gates finds its host, and no
update in flight on it. -/
def Steady (s : System) : Move → Prop
  | .receive (.executeUpdate payload) env =>
    Admitted s payload.hostMachineId → s.ledger.Started payload.updateHistoryId →
      env.access = .session ∧ s.agent.inFlight payload.hostMachineId = none
  | _ => True

instance (s : System) : ∀ m, Decidable (Steady s m)
  | .receive (.executeUpdate payload) env => inferInstanceAs (Decidable
      (Admitted s payload.hostMachineId → s.ledger.Started payload.updateHistoryId →
        env.access = .session ∧ s.agent.inFlight payload.hostMachineId = none))
  | .receive (.executeBatchUpdate _) _ | .receive .resetData _ | .progress .. | .forward ..
  | .poll | .connect _ | .settings .. | .wait _ | .freeze _ => inferInstanceAs (Decidable True)

/-- The execution has been started, and is in flight on the host. -/
structure Tied (l : Ledger) (agent : SshAgentRuntime) (host : String) (e : Execution) : Prop where
  mem : e ∈ l.executions
  inFlight : agent.inFlight host = some e.updateHistoryId

/-- The ledger is truthful, and every event comes from the update that is in flight on its host.
No event of a forwarder follows the end of its task, and there is one forwarder at most for each
host. -/
structure Sound (s : System) : Prop where
  truthful : s.ledger.Truthful
  started : ∀ host id, s.agent.inFlight host = some id → s.ledger.Started id
  running : ∀ f ∈ s.forwarders, Tied s.ledger s.agent f.host f.task.execution
  forwarded : ∀ f ∈ s.aggregate, Tied s.ledger s.agent f.host f.execution
  distinct : (s.forwarders.map (·.host)).Nodup
  last : s.aggregate.Pairwise fun a b => a.event.completes = true → b.host ≠ a.host
  ended : ∀ a ∈ s.aggregate, a.event.completes = true → ∀ f ∈ s.forwarders, f.host ≠ a.host

/-- A forwarder or an event in the channel is for the host. -/
def Busy (s : System) (host : String) : Prop :=
  (∃ f ∈ s.forwarders, f.host = host) ∨ ∃ f ∈ s.aggregate, f.host = host

namespace Sound

variable {s : System}

variable {handled : Handled} {agent : SshAgentRuntime} {env : Environment} {f : Forwarder}
  {host : String} {i : Nat}

variable (h : Sound s)

include h

theorem not_busy (hi : s.agent.inFlight host = none) : ¬ Busy s host := by
  rintro (⟨f, hf, rfl⟩ | ⟨f, hf, rfl⟩)
  · cases hi.symm.trans (h.running f hf).inFlight
  · cases hi.symm.trans (h.forwarded f hf).inFlight

/-- The rule for handlers: what is in flight changes only on hosts that have no forwarder and no
event in the channel. -/
theorem record
    (hfa : ∀ m ∈ handled.messages, (s.ledger.record handled.started handled.messages).Fair m)
    (hst : ∀ host id, handled.agent.inFlight host = some id →
      (s.ledger.record handled.started handled.messages).Started id)
    (hb : ∀ host, Busy s host → handled.agent.inFlight host = s.agent.inFlight host)
    (hs : ∀ f, handled.spawned = some f →
      handled.agent.inFlight f.host = some f.task.execution.updateHistoryId ∧
        s.agent.inFlight f.host = none) : Sound (s.record handled) := by
  have hsu : s.ledger.executions ⊆ (s.record handled).ledger.executions :=
    executions_subset_record _ _
  have hn : ∀ f, handled.spawned = some f → ¬ Busy s f.host :=
    fun f hf => h.not_busy (hs f hf).2
  refine ⟨h.truthful.record hfa, hst, ?_, ?_, ?_, h.last, ?_⟩
  · intro f hf
    rcases mem_append.1 hf with hf | hf
    · refine ⟨hsu (h.running f hf).mem, ?_⟩
      exact (hb _ (.inl ⟨f, hf, rfl⟩)).trans (h.running f hf).inFlight
    · have hf : handled.spawned = some f := mem_toList.1 hf
      refine ⟨mem_append_right _ ?_, (hs f hf).1⟩
      rw [Handled.started, hf]
      exact mem_cons_self
  · intro f hf
    refine ⟨hsu (h.forwarded f hf).mem, ?_⟩
    exact (hb _ (.inr ⟨f, hf, rfl⟩)).trans (h.forwarded f hf).inFlight
  · show ((s.forwarders ++ handled.spawned.toList).map (·.host)).Nodup
    rw [map_append, nodup_append]
    refine ⟨h.distinct, ?_, ?_⟩
    · cases handled.spawned with
      | none => exact nodup_nil
      | some => exact nodup_singleton _
    · intro host hh host' hh'
      obtain ⟨g, hg, rfl⟩ := mem_map.1 hh
      obtain ⟨f, hf, rfl⟩ := mem_map.1 hh'
      exact fun heq => hn f (mem_toList.1 hf) (.inl ⟨g, hg, heq⟩)
  · intro a ha hc f hf
    rcases mem_append.1 hf with hf | hf
    · exact h.ended a ha hc f hf
    · exact fun heq => hn f (mem_toList.1 hf) (.inr ⟨a, ha, heq.symm⟩)

theorem record_of_inFlight_eq (hs : handled.spawned = none)
    (hinFlight : handled.agent.inFlight = s.agent.inFlight)
    (hfa : ∀ m ∈ handled.messages, (s.ledger.record none handled.messages).Fair m) :
    Sound (s.record handled) := by
  have hst : handled.started = none := by rw [Handled.started, hs, map_none]
  apply h.record
  · rwa [hst]
  · intro host id hid
    rw [hinFlight] at hid
    exact (h.started host id hid).mono (executions_subset_record _ _)
  · intro host _
    rw [hinFlight]
  · intro f hf
    cases hs.symm.trans hf

/-- A handler that sends nothing about an update. -/
theorem record_of_silent (hs : handled.spawned = none)
    (hinFlight : handled.agent.inFlight = s.agent.inFlight)
    (hme : ∀ m ∈ handled.messages, m.answers = none) : Sound (s.record handled) := by
  apply h.record_of_inFlight_eq hs hinFlight
  intro m hm
  exact fair_of_answers_eq_none (hme m hm)

/-! ### Messages of the controller -/

variable (hinFlight : agent.inFlight = s.agent.inFlight)

include hinFlight

/-- A request that is rejected, for an update that has not been started. -/
theorem reject {id} (hid : ¬ s.ledger.Started id) (errorMessage) :
    Sound (s.record { agent, messages := [makeSshUpdateErrorResponse id errorMessage] }) := by
  apply h.record_of_inFlight_eq rfl hinFlight
  intro m hm
  cases mem_singleton.1 hm
  apply fair_updateResult_of_not_started
  rwa [started_record_none]

theorem spawn {payload : ExecuteUpdatePayload} (start)
    (hi : s.agent.inFlight payload.hostMachineId = none) : Sound (s.record
      { agent :=
          { agent with inFlightUpdates :=
              agent.inFlightUpdates.insert payload.hostMachineId ⟨payload.updateHistoryId, false⟩ }
        messages := [(startUpdate payload start).2]
        spawned := some ⟨payload.hostMachineId, (startUpdate payload start).1⟩ }) := by
  have hs : ∀ messages, (s.ledger.record (some (executeUpdate payload start.course))
      messages).Started payload.updateHistoryId := by
    intro messages
    exact ⟨_, mem_append_right _ mem_cons_self, rfl⟩
  apply h.record
  · intro m hm
    cases mem_singleton.1 hm
    exact fair_updateStarted (hs _) _
  · intro host id hid
    rw [inFlight_insert, hinFlight] at hid
    by_cases hh : host = payload.hostMachineId
    · subst hh
      rw [update_self] at hid
      cases hid
      exact hs _
    · rw [update_of_ne hh] at hid
      exact (h.started host id hid).mono (executions_subset_record _ _)
  · intro host hb
    rw [inFlight_insert, hinFlight, update_of_ne]
    rintro rfl
    exact h.not_busy hi hb
  · rintro f ⟨⟩
    refine ⟨?_, hi⟩
    rw [inFlight_insert]
    exact update_self _ _ _

theorem handleExecuteUpdateSsh {payload : ExecuteUpdatePayload}
    (hi : s.ledger.Started payload.updateHistoryId →
      env.access = .session ∧ s.agent.inFlight payload.hostMachineId = none) :
    Sound (s.record (agent.handleExecuteUpdateSsh payload env)) := by
  obtain ⟨hor, errorMessage, heq⟩ | ⟨hn, heq⟩ := agent.handleExecuteUpdateSsh_cases payload env
  · rw [heq]
    refine h.reject hinFlight ?_ errorMessage
    intro hs
    obtain ⟨ha, hn⟩ := hi hs
    exact hor.elim (· ha) (· (by rw [hinFlight, hn]))
  · rw [heq]
    exact h.spawn hinFlight env.start (by rw [← hinFlight, hn])

omit hinFlight

theorem receive {msg} (hs : Steady s (.receive msg env)) :
    Sound (Ssh.move s (.receive msg env)) := by
  simp only [Ssh.move]
  cases msg with
  | executeUpdate payload =>
    simp only [handleControllerMessage]
    by_cases ha : Admitted s payload.hostMachineId
    · rw [isUpdateAllowed_of_admitted ha]
      have hk : (s.agent.accept s.now payload.hostMachineId).inFlight = s.agent.inFlight := rfl
      exact h.handleExecuteUpdateSsh hk (hs ha)
    · obtain ⟨event, he⟩ := isUpdateAllowed_of_not_admitted ha
      rw [he]
      exact h.record_of_silent rfl rfl (forall_mem_singleton.2 rfl)
  | executeBatchUpdate hostMachineId =>
    simp only [handleControllerMessage]
    by_cases ha : Admitted s hostMachineId
    · rw [isUpdateAllowed_of_admitted ha]
      exact h.record_of_silent rfl rfl (forall_mem_nil _)
    · obtain ⟨event, he⟩ := isUpdateAllowed_of_not_admitted ha
      rw [he]
      exact h.record_of_silent rfl rfl (forall_mem_singleton.2 rfl)
  | resetData =>
    refine h.record_of_silent rfl ?_ (forall_mem_nil _)
    simp only [handleControllerMessage]
    split <;> rfl

/-! ### Events -/

/-- The channel without its first event. -/
theorem tail {f rest} (hs : s.aggregate = f :: rest) : Sound { s with aggregate := rest } := by
  have hsu : ∀ a ∈ rest, a ∈ s.aggregate := by
    intro a ha
    rw [hs]
    exact mem_cons_of_mem f ha
  refine ⟨h.truthful, h.started, ?_, ?_, h.distinct, ?_, ?_⟩
  · exact h.running
  · intro a ha
    exact h.forwarded a (hsu a ha)
  · exact (pairwise_cons.1 (hs ▸ h.last)).2
  · intro a ha
    exact h.ended a (hsu a ha)

/-- The end of an update whose forwarder has ended and has no more events in the channel. -/
theorem complete {messages} (hi : ¬ Busy s host)
    (hf : ∀ m ∈ messages, (s.ledger.record none messages).Fair m) : Sound (s.record
      { agent := { s.agent with inFlightUpdates := s.agent.inFlightUpdates.erase host }
        messages }) := by
  apply h.record
  · exact hf
  · intro host' id hid
    rw [inFlight_erase] at hid
    by_cases hh : host' = host
    · subst hh
      rw [update_self] at hid
      cases hid
    · rw [update_of_ne hh] at hid
      exact (h.started host' id hid).mono (executions_subset_record _ _)
  · intro host' hb
    rw [inFlight_erase, update_of_ne]
    rintro rfl
    exact hi hb
  · rintro f ⟨⟩

theorem handleEvent {event : UpdateEvent} {e} (ht : Tied s.ledger s.agent host e)
    (he : event.Of e) (hi : event.completes = true → ¬ Busy s host) :
    Sound (s.record (s.agent.handleEvent host event)) := by
  obtain ⟨u, hl, hid⟩ := map_eq_some_iff.1 ht.inFlight
  have hr : ∀ p ∈ e.results, ∀ messages, (s.ledger.record none messages).Fair
      (.updateResult p) := by
    intro p hp messages
    exact fair_updateResult (executions_subset_record _ _ ht.mem) hp
  simp only [SshAgentRuntime.handleEvent, hl]
  cases event with
  | output => exact h.record_of_silent rfl rfl (forall_mem_singleton.2 rfl)
  | completed =>
    refine h.complete (hi rfl) ?_
    intro m hm
    split at hm
    · cases hm
    · cases mem_singleton.1 hm
      cases he
      rw [hid]
      exact hr _ Execution.final_mem_results _
  | earlyResult early =>
    dsimp only
    split
    · exact h.record_of_silent rfl rfl (forall_mem_nil _)
    · refine h.record_of_inFlight_eq rfl ?_ ?_
      · have hs : s.agent.inFlight host = some u.updateHistoryId := by
          rw [ht.inFlight, hid]
        rw [inFlight_insert, ← hs, update_eq_self]
      · intro m hm
        cases mem_singleton.1 hm
        exact hr early (Execution.early_mem_results he) _

theorem poll : Sound s.poll := by
  unfold System.poll
  split
  · exact h
  · split
    · exact h
    · rename_i f rest hs
      have hm : f ∈ s.aggregate := by
        rw [hs]
        exact mem_cons_self
      have hr := (pairwise_cons.1 (hs ▸ h.last)).1
      refine (h.tail hs).handleEvent (h.forwarded f hm) f.of ?_
      rintro hc (⟨g, hg, heq⟩ | ⟨a, ha, heq⟩)
      · exact h.ended f hm hc g hg heq
      · exact hr a ha hc heq

/-! ### Forwarders -/

/-- Forwarders that go on with the same executions, as far as they go on. -/
theorem with_forwarders {forwarders} (hs : ∀ g ∈ forwarders, ∃ f ∈ s.forwarders,
      f.host = g.host ∧ f.task.execution = g.task.execution)
    (hd : (forwarders.map (·.host)).Nodup) : Sound { s with forwarders } := by
  refine ⟨h.truthful, h.started, ?_, ?_, hd, h.last, ?_⟩
  · intro g hg
    obtain ⟨f, hf, hh, he⟩ := hs g hg
    rw [← hh, ← he]
    exact h.running f hf
  · exact h.forwarded
  · intro a ha hc g hg
    obtain ⟨f, hf, hh, -⟩ := hs g hg
    rw [← hh]
    exact h.ended a ha hc f hf

theorem push {f : Forwarded} (ht : Tied s.ledger s.agent f.host f.execution)
    (hl : ∀ a ∈ s.aggregate, a.event.completes = true → f.host ≠ a.host)
    (he : f.event.completes = true → ∀ g ∈ s.forwarders, g.host ≠ f.host) :
    Sound { s with aggregate := s.aggregate ++ [f] } := by
  refine ⟨h.truthful, h.started, ?_, ?_, h.distinct, ?_, ?_⟩
  · exact h.running
  · intro a ha
    rcases mem_append.1 ha with ha | ha
    · exact h.forwarded a ha
    · cases mem_singleton.1 ha
      exact ht
  · refine pairwise_append.2 ⟨h.last, pairwise_singleton _ _, ?_⟩
    intro a ha b hb
    cases mem_singleton.1 hb
    exact hl a ha
  · intro a ha
    rcases mem_append.1 ha with ha | ha
    · exact h.ended a ha
    · cases mem_singleton.1 ha
      exact he

variable (hf : s.forwarders[i]? = some f)

include hf

theorem host_ne_of_mem_eraseIdx {g} (hg : g ∈ s.forwarders.eraseIdx i) : g.host ≠ f.host := by
  obtain ⟨j, hji, hj⟩ := mem_eraseIdx_iff_getElem?.1 hg
  intro heq
  have hlt : j < (s.forwarders.map (·.host)).length := by
    rw [length_map]
    exact (List.getElem?_eq_some_iff.1 hj).1
  have hs : (s.forwarders.map (·.host))[j]? = (s.forwarders.map (·.host))[i]? := by
    rw [getElem?_map, getElem?_map, hj, hf, map_some, map_some, heq]
  exact hji ((getElem?_inj hlt h.distinct).1 hs)

theorem with_set {task : UpdateTask} (ht : task.execution = f.task.execution) :
    Sound { s with forwarders := s.forwarders.set i { f with task } } := by
  apply h.with_forwarders
  · intro g hg
    rcases mem_or_eq_of_mem_set hg with hg | rfl
    · exact ⟨g, hg, rfl, rfl⟩
    · exact ⟨f, mem_of_getElem? hf, rfl, ht.symm⟩
  · rw [map_set_of_eq hf (by rfl)]
    exact h.distinct

omit hf

theorem with_eraseIdx (i) : Sound { s with forwarders := s.forwarders.eraseIdx i } := by
  apply h.with_forwarders
  · intro g hg
    exact ⟨g, mem_of_mem_eraseIdx hg, rfl, rfl⟩
  · exact ((eraseIdx_sublist s.forwarders i).map _).nodup h.distinct

theorem forward (i ready) : Sound (s.forward i ready) := by
  unfold System.forward
  split
  · exact h
  · rename_i f hf
    have hm := mem_of_getElem? hf
    split
    · exact h
    · rename_i event task hp
      have ht := h.running f hm
      have hl : ∀ a ∈ s.aggregate, a.event.completes = true → f.host ≠ a.host := by
        intro a ha hc
        exact h.ended a ha hc f hm
      cases hc : event.completes with
      | true =>
        refine (h.with_eraseIdx i).push ht hl ?_
        intro _ g hg
        exact h.host_ne_of_mem_eraseIdx hf hg
      | false =>
        refine (h.with_set hf (UpdateTask.of_poll hp).2).push ht hl ?_
        intro htr
        cases hc.symm.trans htr

/-! ### Runs -/

theorem progress (i p) : Sound (Ssh.move s (.progress i p)) := by
  simp only [Ssh.move]
  cases hf : s.forwarders[i]? with
  | none =>
    rw [modify_eq_self (getElem?_eq_none_iff.1 hf)]
    exact h
  | some f =>
    have hm : s.forwarders.modify i (fun f => { f with task := f.task.advance p }) =
        s.forwarders.set i { f with task := f.task.advance p } := by
      rw [modify_eq_set_getElem?, hf]
      rfl
    rw [hm]
    exact h.with_set hf (UpdateTask.execution_advance f.task p)

theorem applySettings (interactive accepted) :
    Sound (s.record (s.agent.applySettings interactive accepted)) := by
  unfold SshAgentRuntime.applySettings
  split
  · refine h.record_of_inFlight_eq rfl rfl ?_
    intro m hm
    obtain ⟨entry, he, rfl⟩ := mem_map.1 hm
    have hl : s.agent.inFlight entry.1 = some entry.2.updateHistoryId := by
      rw [inFlight, AList.mem_lookup_iff.2 he]
      rfl
    have hs := h.started entry.1 _ hl
    exact fair_updateStarted (hs.mono (executions_subset_record _ _)) _
  · exact h.record_of_silent rfl rfl (forall_mem_nil _)

theorem move {m} (hs : Steady s m) : Sound (Ssh.move s m) := by
  cases m with
  | receive => exact h.receive hs
  | progress i p => exact h.progress i p
  | forward i ready => exact h.forward i ready
  | poll => exact h.poll
  | connect =>
    refine h.record_of_silent rfl ?_ (forall_mem_singleton.2 rfl)
    simp only [onConnected]
    split <;> rfl
  | settings interactive accepted => exact h.applySettings interactive accepted
  | wait | freeze =>
    exact ⟨h.truthful, h.started, h.running, h.forwarded, h.distinct, h.last, h.ended⟩

end Sound

/-- The ledger of an SSH agent that is not asked again for an update that it cannot start. -/
theorem truthful_run {moves} (h : Meets move Steady {} moves) : (run {} moves).ledger.Truthful := by
  have hso : Sound (run {} moves) := by
    refine foldl_invariant_of_meets ?_ ?_ h
    · intro s m hs hm
      exact hs.move hm
    · refine ⟨truthful_nil, ?_, ?_, ?_, nodup_nil, .nil, ?_⟩
      · rintro host id ⟨⟩
      all_goals
        intro f hf
        cases hf
  exact hso.truthful

/-! ## Answers -/

variable {payload : ExecuteUpdatePayload}

/-- A request that passes the gates is answered. -/
theorem answered_of_admitted {s} (h : Admitted s payload.hostMachineId) (env) :
    ∃ m ∈ (s.agent.handleControllerMessage s.now s.frozen (.executeUpdate payload) env).messages,
      m.answers = some payload.updateHistoryId := by
  simp only [handleControllerMessage, isUpdateAllowed_of_admitted h]
  obtain ⟨-, _, heq⟩ | ⟨-, heq⟩ := handleExecuteUpdateSsh_cases _ payload env
  · rw [heq]
    exact ⟨_, mem_cons_self, rfl⟩
  · rw [heq]
    exact ⟨_, mem_cons_self, rfl⟩

end Uptrakit.Agent.Ssh
