import Uptrakit.Data.Except
import Mathlib.Data.List.Nodup

/-!
# The reload coordinator

The coordinator takes reload requests one after another and leads each change of the configuration
through its subsystems (`crates/shared/config-reload/src/coordinator/state_machine.rs`): all of
them validate it, apply it in the order of their registration and are checked afterwards.  When
that fails, the ones that have applied it are reverted.  A revert that fails makes the coordinator
degraded, and then it refuses requests until an operator clears that.

The subsystems are a family of states with methods, over an index type; a method may
return anything.  An operator may clear the degraded state at any time, also while a cycle waits
for a subsystem.  The events that matter for the order of calls are logged, the latest first.
-/

namespace Uptrakit.Reload

open List

/-! ## Subsystems and requests -/

/-- `ReloadableErased`: the methods of a subsystem.  `Env` is what the outside world
answers during a cycle; a check that takes longer than the rollback window has failed. -/
structure ReloadableErased (Env Delta State : Type) where
  name : String
  validate : Env → Delta → State → Except String Unit
  apply : Env → Delta → State → State × Except String Unit
  healthCheck : Env → State → Except String Unit
  revert : Env → State → State × Except String Unit

inductive ReloadSource
  | sighup
  | fileWatch (path : String)
  | dbBump (sections : List String)
  | boot
  | other (kind : String)

/-- The places of a cycle at which the coordinator waits. -/
inductive Point (ι Delta : Type)
  | apply (i : ι) (delta : Delta)
  | healthCheck (i : ι)
  | revert (i : ι)
  /-- The alert of a revert that failed is written before the state is changed. -/
  | alert (i : ι)

structure ReloadRequest (ι Env Delta Config : Type) where
  source : ReloadSource
  /-- `TomlConfigLoader::load`. -/
  loaded : Except String Config
  /-- The hook for changes that need a new process; it returns if none is needed, or if
  that failed. -/
  reexec : Except String Unit
  env : Env
  /-- The degraded state is cleared there. -/
  clears : Point ι Delta → Bool

inductive CoordinatorState
  | idle
  | reloading
  | degraded (failedSubsystems : List String) (reason : String)

inductive Event (ι : Type)
  | apply (i : ι) (ok : Bool)
  | revert (i : ι) (ok : Bool)
  | clear

/-- The subsystems in the order of their registration, and how configurations are compared. -/
structure System (ι Env Delta Config : Type) (State : ι → Type) where
  order : List ι
  reloadable : ∀ i, ReloadableErased Env Delta (State i)
  buildDeltas : Config → Config → List Delta
  sectionsToDeltas : List String → Config → List Delta
  configPath : Option String

/-- What a cycle works on; the record of the current configuration is not part of it. -/
structure CycleState (ι : Type) (State : ι → Type) where
  state : CoordinatorState
  subsystems : ∀ i, State i
  log : List (Event ι)

structure ReloadCoordinator (ι Config : Type) (State : ι → Type) extends CycleState ι State where
  currentConfig : Config

variable {ι Env Delta Config : Type} {State : ι → Type}

namespace CycleState

variable (c : CycleState ι State)

def clearDegraded : CycleState ι State :=
  { c with
    state := match c.state with
      | .degraded _ _ => .idle
      | state => state
    log := .clear :: c.log }

/-- Wait, while the degraded state may be cleared. -/
def await (cleared : Bool) : CycleState ι State :=
  if cleared then c.clearDegraded else c

variable [DecidableEq ι] (i : ι) (result : State i × Except String Unit)

/-- A call of `apply` has returned. -/
def applied : CycleState ι State :=
  { c with
    subsystems := Function.update c.subsystems i result.1
    log := .apply i result.2.isOk :: c.log }

/-- A call of `revert` has returned. -/
def reverted : CycleState ι State :=
  { c with
    subsystems := Function.update c.subsystems i result.1
    log := .revert i result.2.isOk :: c.log }

end CycleState

/-! ## A cycle -/

section Cycle

variable [DecidableEq ι] (sys : System ι Env Delta Config State)
  (req : ReloadRequest ι Env Delta Config) (deltas : List Delta)

variable (c : CycleState ι State)

def validatePhase : Except String Unit :=
  sys.order.forM fun i => deltas.forM fun delta =>
    (sys.reloadable i).validate req.env delta (c.subsystems i)

def applySubsystem (i : ι) :
    List Delta → CycleState ι State → CycleState ι State × Except String Unit
  | [], c => (c, .ok ())
  | delta :: rest, c =>
    let result := (sys.reloadable i).apply req.env delta (c.subsystems i)
    let c := (c.applied i result).await (req.clears (.apply i delta))
    match result.2 with
    | .error e => (c, .error e)
    | .ok () => applySubsystem i rest c

/-- The subsystems apply the deltas in order, up to the first failure.  Returns those that have
applied all. -/
def applyPhase :
    List ι → CycleState ι State → CycleState ι State × List ι × Except String Unit
  | [], c => (c, [], .ok ())
  | i :: rest, c =>
    match applySubsystem sys req i deltas c with
    | (c, .error e) => (c, [], .error e)
    | (c, .ok ()) =>
      let result := applyPhase rest c
      (result.1, i :: result.2.1, result.2.2)

/-- The checks run at the same time, and the first failure ends the phase.  They only look at the
subsystems, so that their order shows in nothing but the error. -/
def watchdogPhase : List ι → CycleState ι State → CycleState ι State × Except String Unit
  | [], c => (c, .ok ())
  | i :: rest, c =>
    match (sys.reloadable i).healthCheck req.env (c.subsystems i) with
    | .error e => (c.await (req.clears (.healthCheck i)), .error e)
    | .ok () => watchdogPhase rest (c.await (req.clears (.healthCheck i)))

/-- Revert the subsystems; one that fails does not stop the others. -/
def revertPhase : List ι → CycleState ι State → CycleState ι State
  | [], c => c
  | i :: rest, c =>
    let result := (sys.reloadable i).revert req.env (c.subsystems i)
    let c := c.reverted i result
    match result.2 with
    | .ok () => revertPhase rest (c.await (req.clears (.revert i)))
    | .error e =>
      let c := c.await (req.clears (.alert i))
      let name := (sys.reloadable i).name
      let c := { c with
        state := .degraded [name] ("revert returned Err on " ++ name ++ ": " ++ e) }
      revertPhase rest (c.await (req.clears (.revert i)))

def applyAndWatchPhase : CycleState ι State × Except String Unit :=
  match applyPhase sys req deltas sys.order c with
  | (c, applied, .error e) => (revertPhase sys req applied.reverse c, .error e)
  | (c, applied, .ok ()) =>
    match watchdogPhase sys req applied c with
    | (c, .ok ()) => (c, .ok ())
    | (c, .error e) => (revertPhase sys req applied.reverse c, .error e)

def runCycle : CycleState ι State × Except String Unit :=
  match validatePhase sys req deltas c with
  | .error e => (c, .error e)
  | .ok () => applyAndWatchPhase sys req deltas c

end Cycle

/-! ## The loop -/

section Loop

variable (sys : System ι Env Delta Config State)

def fileDeltas (current : Config) (req : ReloadRequest ι Env Delta Config) :
    Except String (List Delta × Config) :=
  match sys.configPath with
  | none => .error "coordinator has no config_path set; cannot reload from file"
  | some _ => do
      let new ← req.loaded
      req.reexec
      .ok (sys.buildDeltas current new, new)

/-- The deltas of a request, and the configuration that is current once they are applied. -/
def requestDeltas (current : Config) (req : ReloadRequest ι Env Delta Config) :
    Except String (List Delta × Config) :=
  match req.source with
  | .sighup | .fileWatch _ => fileDeltas sys current req
  | .dbBump sections => .ok (sys.sectionsToDeltas sections current, current)
  | .boot | .other _ => .ok ([], current)

variable [DecidableEq ι]

variable (req : ReloadRequest ι Env Delta Config) (c : ReloadCoordinator ι Config State)

def processRequest : ReloadCoordinator ι Config State × Except String Unit :=
  match requestDeltas sys c.currentConfig req with
  | .error e => (c, .error e)
  | .ok (deltas, next) =>
    if deltas.isEmpty then (c, .ok ())
    else
      match runCycle sys req deltas c.toCycleState with
      | (cycle, .error e) => (⟨cycle, c.currentConfig⟩, .error e)
      | (cycle, .ok ()) => (⟨cycle, next⟩, .ok ())

/-- One round of `run`: a degraded coordinator refuses the request. -/
def handleRequest (req : ReloadRequest ι Env Delta Config) : ReloadCoordinator ι Config State :=
  match c.state with
  | .degraded _ _ => c
  | _ =>
    match processRequest sys req { c with state := .reloading } with
    | (c, .ok ()) => { c with state := .idle }
    | (c, .error _) =>
      match c.state with
      | .degraded _ _ => c
      | _ => { c with state := .idle }

inductive Action (ι Env Delta Config : Type)
  | request (req : ReloadRequest ι Env Delta Config)
  | clearDegraded

def step : Action ι Env Delta Config → ReloadCoordinator ι Config State
  | .request req => handleRequest sys c req
  | .clearDegraded => ⟨c.clearDegraded, c.currentConfig⟩

def run (actions : List (Action ι Env Delta Config)) : ReloadCoordinator ι Config State :=
  actions.foldl (step sys) c

end Loop

/-! ## What a degraded coordinator does -/

/-- A revert has failed, and the degraded state was not cleared since. -/
def blocked : List (Event ι) → Bool
  | [] => false
  | .clear :: _ => false
  | .revert _ false :: _ => true
  | _ :: rest => blocked rest

/-- Nothing was applied while a failed revert was not cleared. -/
def SafeLog : List (Event ι) → Prop
  | [] => True
  | .apply _ _ :: rest => blocked rest = false ∧ SafeLog rest
  | _ :: rest => SafeLog rest

/-- In a safe log there is a clearing between a failed revert and a later `apply`. -/
theorem SafeLog.clear_mem {i j : ι} {ok : Bool} {later between before : List (Event ι)}
    (h : SafeLog (later ++ .apply i ok :: (between ++ .revert j false :: before))) :
    .clear ∈ between := by
  have hb : blocked (between ++ .revert j false :: before) = false := by
    induction later with
    | nil => exact h.1
    | cons e _ ih =>
      cases e with
      | apply => exact ih h.2
      | revert | clear => exact ih h
  clear h
  induction between with
  | nil => exact absurd hb (by simp [blocked])
  | cons e _ ih =>
    cases e with
    | apply => exact mem_cons_of_mem _ (ih hb)
    | revert _ ok' =>
      cases ok' with
      | false => exact absurd hb (by simp [blocked])
      | true => exact mem_cons_of_mem _ (ih hb)
    | clear => exact mem_cons_self

/-- The coordinator may apply. -/
structure CycleState.Open (c : CycleState ι State) : Prop where
  safe : SafeLog c.log
  notBlocked : blocked c.log = false

/-- A coordinator that may not apply is degraded. -/
structure CycleState.Guarded (c : CycleState ι State) : Prop where
  safe : SafeLog c.log
  degraded : blocked c.log = true → ∃ names reason, c.state = .degraded names reason

namespace CycleState

variable {c : CycleState ι State}

theorem Open.guarded (h : c.Open) : c.Guarded where
  safe := h.safe
  degraded hb := by
    rw [h.notBlocked] at hb
    cases hb

/-- Clearing lifts the block. -/
theorem open_clearDegraded (h : SafeLog c.log) : c.clearDegraded.Open := ⟨h, rfl⟩

theorem Open.await (cleared : Bool) (h : c.Open) : (c.await cleared).Open := by
  cases cleared with
  | false => exact h
  | true => exact open_clearDegraded h.safe

theorem Guarded.await (cleared : Bool) (h : c.Guarded) : (c.await cleared).Guarded := by
  cases cleared with
  | false => exact h
  | true => exact (open_clearDegraded h.safe).guarded

theorem safe_await (cleared) (h : SafeLog c.log) : SafeLog (c.await cleared).log := by
  cases cleared with
  | false | true => exact h

end CycleState

/-! ## What the phases preserve -/

section Phases

variable [DecidableEq ι] (sys : System ι Env Delta Config State)
  (req : ReloadRequest ι Env Delta Config) (deltas : List Delta)

theorem open_applySubsystem (i) (todo : List Delta) (c : CycleState ι State) (h : c.Open) :
    (applySubsystem sys req i todo c).1.Open := by
  fun_induction applySubsystem sys req i todo c with
  | case1 => exact h
  | case2 => exact CycleState.Open.await _ ⟨⟨h.notBlocked, h.safe⟩, h.notBlocked⟩
  | case3 _ _ _ _ _ _ ih =>
    exact ih (CycleState.Open.await _ ⟨⟨h.notBlocked, h.safe⟩, h.notBlocked⟩)

theorem open_applyPhase (todo) (c : CycleState ι State) (h : c.Open) :
    (applyPhase sys req deltas todo c).1.Open := by
  fun_induction applyPhase sys req deltas todo c with
  | case1 => exact h
  | case2 i _ c _ _ heq =>
    have hn := open_applySubsystem sys req i deltas c h
    rwa [heq] at hn
  | case3 i _ c _ heq _ ih =>
    have hn := open_applySubsystem sys req i deltas c h
    rw [heq] at hn
    exact ih hn

omit [DecidableEq ι] in
theorem open_watchdogPhase (todo) (c : CycleState ι State) (h : c.Open) :
    (watchdogPhase sys req todo c).1.Open := by
  fun_induction watchdogPhase sys req todo c with
  | case1 => exact h
  | case2 => exact h.await _
  | case3 _ _ _ _ ih => exact ih (h.await _)

/-- A revert leaves a coordinator that may not apply degraded. -/
theorem guarded_revertPhase (todo : List ι) (c : CycleState ι State) (h : c.Guarded) :
    (revertPhase sys req todo c).Guarded := by
  fun_induction revertPhase sys req todo c with
  | case1 => exact h
  | case2 _ _ _ _ c hr ih =>
    refine ih (CycleState.Guarded.await _ ⟨h.safe, ?_⟩)
    simp only [c, CycleState.reverted, hr]
    exact h.degraded
  | case3 _ _ _ _ _ _ _ _ _ _ ih =>
    refine ih (CycleState.Guarded.await _ ⟨?_, fun _ => ⟨_, _, rfl⟩⟩)
    exact CycleState.safe_await _ h.safe

/-- After a cycle the coordinator may apply if the cycle succeeded, and is guarded if not. -/
theorem runCycle_guarded (c : CycleState ι State) (h : c.Open) :
    (runCycle sys req deltas c).1.Guarded ∧
      ((runCycle sys req deltas c).2 = .ok () → (runCycle sys req deltas c).1.Open) := by
  rw [runCycle]
  split
  · exact ⟨h.guarded, by simp⟩
  · rw [applyAndWatchPhase]
    have ha := open_applyPhase sys req deltas sys.order c h
    split
    · rename_i heq
      rw [heq] at ha
      exact ⟨guarded_revertPhase sys req _ _ ha.guarded, by simp⟩
    · rename_i applied heq
      rw [heq] at ha
      have hw := open_watchdogPhase sys req applied _ ha
      split
      · rename_i hok
        rw [hok] at hw
        exact ⟨hw.guarded, fun _ => hw⟩
      · rename_i he
        rw [he] at hw
        exact ⟨guarded_revertPhase sys req _ _ hw.guarded, by simp⟩

variable (c : ReloadCoordinator ι Config State)

/-- Processing a request leaves a guarded coordinator; only a committed cycle changes the record
of the current configuration. -/
theorem processRequest_guarded (h : c.Open) :
    (processRequest sys req c).1.Guarded ∧
      ((processRequest sys req c).2 = .ok () → (processRequest sys req c).1.Open) ∧
      ((processRequest sys req c).2 ≠ .ok () →
        (processRequest sys req c).1.currentConfig = c.currentConfig) := by
  rw [processRequest]
  split
  · exact ⟨h.guarded, by simp, fun _ => rfl⟩
  · split
    · exact ⟨h.guarded, fun _ => h, fun _ => rfl⟩
    · rename_i deltas _ _ _
      obtain ⟨hg, ho⟩ := runCycle_guarded sys req deltas c.toCycleState h
      split
      · rename_i heq
        rw [heq] at hg
        exact ⟨hg, by simp, fun _ => rfl⟩
      · rename_i heq
        rw [heq] at hg ho
        exact ⟨hg, fun _ => ho rfl, by simp⟩

/-- The request is processed, and its cycle ends in a commit (or has nothing to do). -/
def Commits : Prop :=
  (∀ names reason, c.state ≠ .degraded names reason) ∧
    (processRequest sys req { c with state := .reloading }).2 = .ok ()

theorem guarded_handleRequest (h : c.Guarded) :
    (handleRequest sys c req).Guarded ∧
      (¬Commits sys req c → (handleRequest sys c req).currentConfig = c.currentConfig) := by
  rw [handleRequest]
  split
  · exact ⟨h, fun _ => rfl⟩
  · rename_i hno
    have ho : ({ c with state := .reloading } : ReloadCoordinator ι Config State).Open := by
      refine ⟨h.safe, ?_⟩
      rw [← Bool.not_eq_true]
      intro hb
      obtain ⟨names, reason, hs⟩ := h.degraded hb
      exact hno names reason hs
    obtain ⟨hg, hok, hc⟩ := processRequest_guarded sys req _ ho
    split
    · rename_i heq
      rw [heq] at hok
      have hn := hok rfl
      refine ⟨CycleState.Open.guarded ⟨hn.safe, hn.notBlocked⟩, fun hf => ?_⟩
      exact absurd ⟨hno, congrArg Prod.snd heq⟩ hf
    · rename_i heq
      rw [heq] at hg hc
      have hsa := hc (by simp)
      split
      · exact ⟨hg, fun _ => hsa⟩
      · rename_i hi
        refine ⟨⟨hg.safe, fun hb => ?_⟩, fun _ => hsa⟩
        obtain ⟨names, reason, hs⟩ := hg.degraded hb
        exact absurd hs (hi names reason)

variable {c}

theorem guarded_step (h : c.Guarded) (action : Action ι Env Delta Config) :
    (step sys c action).Guarded := by
  cases action with
  | request req => exact (guarded_handleRequest sys req c h).1
  | clearDegraded => exact (CycleState.open_clearDegraded h.safe).guarded

/-- Run lemma of `guarded_step`. -/
theorem guarded_run (actions : List (Action ι Env Delta Config)) :
    ∀ c : ReloadCoordinator ι Config State, c.Guarded → (run sys c actions).Guarded := by
  induction actions with
  | nil => exact fun c h => h
  | cons action _ ih => exact fun c h => ih _ (guarded_step sys h action)

end Phases

/-- For all requests, clearings and answers of the subsystems: between a revert that failed and a
later `apply` the degraded state was cleared; and a request that is refused or whose cycle does
not end in a commit leaves the record of the current configuration as it is. -/
theorem degraded_never_applies [DecidableEq ι] (sys : System ι Env Delta Config State)
    (currentConfig : Config) (subsystems : ∀ i, State i)
    (actions : List (Action ι Env Delta Config)) :
    (∀ i ok j later between before,
        (run sys ⟨⟨.idle, subsystems, []⟩, currentConfig⟩ actions).log =
            later ++ .apply i ok :: (between ++ .revert j false :: before) →
          .clear ∈ between) ∧
      ∀ req, ¬Commits sys req (run sys ⟨⟨.idle, subsystems, []⟩, currentConfig⟩ actions) →
        (step sys (run sys ⟨⟨.idle, subsystems, []⟩, currentConfig⟩ actions)
            (.request req)).currentConfig =
          (run sys ⟨⟨.idle, subsystems, []⟩, currentConfig⟩ actions).currentConfig := by
  have hg : (run sys ⟨⟨.idle, subsystems, []⟩, currentConfig⟩ actions).Guarded := by
    refine guarded_run sys actions _ ⟨trivial, fun hb => ?_⟩
    cases hb
  constructor
  · intro i ok j later between before hl
    have hs := hg.safe
    rw [hl] at hs
    exact hs.clear_mem
  · intro req
    exact (guarded_handleRequest sys req _ hg).2

/-- One subsystem that cannot revert and is healthy or not as the outside world has it; the
configuration is a number. -/
def stuckSystem : System Unit Bool Nat Nat fun _ => Nat where
  order := [()]
  reloadable _ :=
    { name := "stuck"
      validate := fun _ _ _ => .ok ()
      apply := fun _ delta _ => (delta, .ok ())
      healthCheck := fun healthy _ => if healthy then .ok () else .error "unhealthy"
      revert := fun _ s => (s, .error "cannot revert") }
  buildDeltas _ new := [new]
  sectionsToDeltas _ _ := []
  configPath := some "uptrakit.toml"

def stuckRequest (healthy : Bool) (new : Nat) : ReloadRequest Unit Bool Nat Nat where
  source := .sighup
  loaded := .ok new
  reexec := .ok ()
  env := healthy
  clears _ := false

/-- After the failed revert a request is refused; after the clearing the next one is applied. -/
theorem degraded_never_applies_stuckSystem :
    (run stuckSystem ⟨⟨.idle, fun _ => 0, []⟩, 0⟩ [.request (stuckRequest false 1),
        .request (stuckRequest true 2), .clearDegraded, .request (stuckRequest true 3)]).log =
          [.apply () true] ++ ([.clear] ++ [.revert () false, .apply () true]) ∧
      .clear ∈ [(.clear : Event Unit)] ∧
      (run stuckSystem ⟨⟨.idle, fun _ => 0, []⟩, 0⟩ [.request (stuckRequest false 1),
        .request (stuckRequest true 2)]).currentConfig = 0 := by
  refine ⟨rfl, ?_, ?_⟩
  · exact (degraded_never_applies stuckSystem 0 (fun _ => 0) [.request (stuckRequest false 1),
      .request (stuckRequest true 2), .clearDegraded, .request (stuckRequest true 3)]).1
      () true () [] [.clear] [.apply () true] rfl
  · refine (degraded_never_applies stuckSystem 0 (fun _ => 0)
      [.request (stuckRequest false 1)]).2 (stuckRequest true 2) ?_
    rintro ⟨hn, -⟩
    exact hn _ _ rfl

/-! ## What a degraded coordinator reports -/

section Report

variable [DecidableEq ι] (sys : System ι Env Delta Config State)
  (req : ReloadRequest ι Env Delta Config)

def RevertFails (c : CycleState ι State) (i : ι) : Prop :=
  ∃ e, ((sys.reloadable i).revert req.env (c.subsystems i)).2 = .error e

variable {req}

/-- Of the reverts that fail, only the last one is reported. -/
theorem state_revertPhase (hc : ∀ point, req.clears point = false) {todo : List ι}
    (hn : todo.Nodup) (c : CycleState ι State) :
    (∀ i ∈ todo, ¬RevertFails sys req c i) ∧ (revertPhase sys req todo c).state = c.state ∨
      ∃ i ∈ todo, RevertFails sys req c i ∧ ∃ reason,
        (revertPhase sys req todo c).state = .degraded [(sys.reloadable i).name] reason := by
  induction todo generalizing c with
  | nil => exact .inl ⟨by simp, rfl⟩
  | cons i rest ih =>
    obtain ⟨hi, hre⟩ := nodup_cons.mp hn
    -- the later reverts find their subsystems as they were
    have hsa (result j) (hj : j ∈ rest) :
        RevertFails sys req (c.reverted i result) j ↔ RevertFails sys req c j := by
      simp only [RevertFails, CycleState.reverted,
        Function.update_of_ne (ne_of_mem_of_not_mem hj hi)]
    rw [revertPhase]
    simp only [hc]
    cases hr : ((sys.reloadable i).revert req.env (c.subsystems i)).2 with
    | ok =>
      obtain ⟨hno, hs⟩ | ⟨j, hj, hf, hs⟩ := ih hre (c.reverted i _)
      · refine .inl ⟨forall_mem_cons.mpr ⟨?_, fun j hj => ?_⟩, hs⟩
        · rintro ⟨e, he⟩
          rw [hr] at he
          cases he
        · rw [← hsa _ j hj]
          exact hno j hj
      · exact .inr ⟨j, mem_cons_of_mem _ hj, (hsa _ j hj).mp hf, hs⟩
    | error e =>
      obtain ⟨-, hs⟩ | ⟨j, hj, hf, hs⟩ := ih hre { c.reverted i _ with state := _ }
      · exact .inr ⟨i, mem_cons_self, ⟨e, hr⟩, _, hs⟩
      · exact .inr ⟨j, mem_cons_of_mem _ hj, (hsa _ j hj).mp hf, hs⟩

/-- A coordinator that was not degraded is degraded by the revert phase exactly if a revert has
failed.  It reports exactly the names of the subsystems whose revert has failed if, and only if,
they all have the same name. -/
theorem degraded_report_complete_iff (hc : ∀ point, req.clears point = false)
    (applied : List ι) (hnod : applied.Nodup) (c : CycleState ι State)
    (hs : ∀ names reason, c.state ≠ .degraded names reason) :
    ((∀ names reason, (revertPhase sys req applied.reverse c).state = .degraded names reason →
        ∀ name, name ∈ names ↔
          ∃ i ∈ applied, RevertFails sys req c i ∧ (sys.reloadable i).name = name) ∧
      ((∃ names reason, (revertPhase sys req applied.reverse c).state = .degraded names reason) ↔
        ∃ i ∈ applied, RevertFails sys req c i)) ↔
    ∀ i ∈ applied, ∀ j ∈ applied, RevertFails sys req c i → RevertFails sys req c j →
      (sys.reloadable i).name = (sys.reloadable j).name := by
  have hp := state_revertPhase sys hc (nodup_reverse.mpr hnod) c
  simp only [mem_reverse] at hp
  obtain ⟨hno, hsa⟩ | ⟨k, hk, hf, reason, ha⟩ := hp
  · rw [hsa]
    refine iff_of_true ⟨fun names reason h => absurd h (hs names reason), ?_⟩ ?_
    · refine iff_of_false ?_ ?_
      · rintro ⟨names, reason, h⟩
        exact hs names reason h
      · rintro ⟨i, hi, hf⟩
        exact hno i hi hf
    · intro i hi _ _ hf
      exact absurd hf (hno i hi)
  · simp only [ha, CoordinatorState.degraded.injEq]
    constructor
    · rintro ⟨hna, -⟩ i hi j hj hfi hfj
      have hn := hna _ reason ⟨rfl, rfl⟩
      rw [mem_singleton.mp ((hn _).mpr ⟨i, hi, hfi, rfl⟩),
        mem_singleton.mp ((hn _).mpr ⟨j, hj, hfj, rfl⟩)]
    · intro hal
      refine ⟨?_, iff_of_true ⟨_, reason, rfl, rfl⟩ ⟨k, hk, hf⟩⟩
      rintro names _ ⟨rfl, -⟩ name
      rw [mem_singleton]
      constructor
      · rintro rfl
        exact ⟨k, hk, hf, rfl⟩
      · rintro ⟨i, hi, hfi, rfl⟩
        exact hal i hi k hk hfi hf

end Report

def stuckPair : System Bool Bool Nat Nat fun _ => Nat :=
  { stuckSystem with
    order := [false, true]
    reloadable := fun i =>
      { stuckSystem.reloadable () with name := if i then "db_pool" else "audit" } }

def stuckPairRequest : ReloadRequest Bool Bool Nat Nat :=
  { stuckRequest false 1 with clears := fun _ => false }

/-- Both reverts fail, and one of them is reported. -/
theorem degraded_report_stuckPair :
    (∀ i, RevertFails stuckPair stuckPairRequest ⟨.reloading, fun _ => 0, []⟩ i) ∧
      (revertPhase stuckPair stuckPairRequest [false, true].reverse
          ⟨.reloading, fun _ => 0, []⟩).state =
        .degraded ["audit"] "revert returned Err on audit: cannot revert" :=
  ⟨fun _ => ⟨"cannot revert", rfl⟩, rfl⟩

def halfStuck : System Bool Bool Nat Nat fun _ => Nat :=
  { stuckPair with
    reloadable := fun i =>
      { stuckPair.reloadable i with
        revert := fun _ s => (s, if i then .error "cannot revert" else .ok ()) } }

/-- Of the two reverts one fails, and exactly its subsystem is reported. -/
theorem degraded_report_complete_iff_halfStuck :
    let c : CycleState Bool fun _ => Nat := ⟨.reloading, fun _ => 0, []⟩
    (revertPhase halfStuck stuckPairRequest [false, true].reverse c).state =
        .degraded ["db_pool"] "revert returned Err on db_pool: cannot revert" ∧
      ∀ name, name ∈ ["db_pool"] ↔ ∃ i ∈ [false, true],
        RevertFails halfStuck stuckPairRequest c i ∧ (halfStuck.reloadable i).name = name := by
  intro c
  have hf : ∀ i, RevertFails halfStuck stuckPairRequest c i → i = true := by
    rintro (_ | _) ⟨_, he⟩
    · cases he
    · rfl
  have hr := (degraded_report_complete_iff halfStuck (fun _ => rfl) [false, true] (by decide)
    c nofun).mpr fun i _ j _ hi hj => by rw [hf i hi, hf j hj]
  exact ⟨rfl, hr.1 _ _ rfl⟩

end Uptrakit.Reload
