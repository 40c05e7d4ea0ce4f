import Uptrakit.Auth.DeviceFlow

/-!
# Device logins

What the calls on one device flow agree on.  The committed row of a flow is
`Pending`, `Authorized` by one user, `Denied`, or gone, and never goes back.  A row
that a call has written stays locked until the call ends, so what its conditional
write has found is still true when it commits.
-/

namespace Uptrakit.Auth.DeviceFlow

open Concurrent List DeviceFlow.Frame Database Transactions Task Bool

/-- The flow stands in the row `i`. -/
def FlowAt (rows : List (Option Row)) (i : Nat) (flow : PendingDeviceFlow) : Prop :=
  rows[i]? = some (some (.flow flow))

/-- The columns that no operation changes. -/
structure SameKeys (a b : PendingDeviceFlow) : Prop where
  id : a.id = b.id
  deviceCodeHash : a.deviceCodeHash = b.deviceCodeHash
  userCode : a.userCode = b.userCode
  expiresAt : a.expiresAt = b.expiresAt

/-- The flows as `create` has left them: pending, with unique codes. -/
structure Created (start : List (Option Row)) : Prop where
  pending : ∀ i flow, FlowAt start i flow → flow.status = .pending
  unique : ∀ i j a b, FlowAt start i a → FlowAt start j b → Row.clash (.flow a) (.flow b) → i = j

/-- The flows of `rows` are flows of `start`. -/
def Stems (start rows : List (Option Row)) : Prop :=
  ∀ i flow, FlowAt rows i flow → ∃ origin, FlowAt start i origin ∧ SameKeys flow origin

/-- If the flow is still there, it is authorized by the user. -/
def Granted (rows : List (Option Row)) (i : Nat) (userId : Uuid) : Prop :=
  ∀ flow, FlowAt rows i flow → flow.status = .authorized ∧ flow.userId = some userId

section Rows

variable {rows start : List (Option Row)} {i j : Nat} {a b flow origin : PendingDeviceFlow}

theorem FlowAt.eq (ha : FlowAt rows i a) (hb : FlowAt rows i b) : a = b := by
  rw [FlowAt, ha] at hb
  simpa using hb

theorem flowAt_of_selectOne {p : PendingDeviceFlow → Bool}
    (h : selectOne (Row.flowWhere p) rows = some (i, flow)) : FlowAt rows i flow ∧ p flow := by
  obtain ⟨row, hr, hpi⟩ := of_selectOne_eq_some h
  cases row with
  | apiToken => cases hpi
  | flow =>
    obtain ⟨hp, ⟨⟩⟩ := Option.ite_none_right_eq_some.mp hpi
    exact ⟨hr, hp⟩

variable {version row : Option Row} {extra : List Row}

theorem FlowAt.of_set (h : FlowAt (rows.set j version ++ extra.map some) i flow)
    (he : ∀ row ∈ extra, ∀ flow, row ≠ .flow flow) :
    (i = j ∧ version = some (.flow flow)) ∨ (i ≠ j ∧ FlowAt rows i flow) := by
  rw [FlowAt, getElem?_append] at h
  split at h
  · rw [getElem?_set] at h
    split at h
    · rename_i hji
      split at h
      · exact .inl ⟨hji.symm, Option.some.inj h⟩
      · cases h
    · rename_i hji
      exact .inr ⟨Ne.symm hji, h⟩
  · have hm := mem_of_getElem? h
    obtain ⟨row, hr, heq⟩ := mem_map.mp hm
    exact absurd (Option.some.inj heq) (he row hr flow)

theorem getElem?_set_append_of_ne (hij : i ≠ j) (h : rows[i]? = some row) :
    (rows.set j version ++ extra.map some)[i]? = some row := by
  apply getElem?_append_of_eq_some
  rw [getElem?_set_ne (Ne.symm hij), h]

theorem getElem?_set_append_self (h : rows[i]? = some row) :
    (rows.set i version ++ extra.map some)[i]? = some version :=
  getElem?_append_of_eq_some (getElem?_set_self_of_eq_some h version) _

theorem SameKeys.refl (a) : SameKeys a a := ⟨rfl, rfl, rfl, rfl⟩

/-- Flows are told apart by their ids. -/
theorem Created.eq_of_id (h : Created start) (hs : Stems start rows)
    (ho : FlowAt start i origin) (hf : FlowAt rows j flow) (hid : flow.id = origin.id) :
    j = i := by
  obtain ⟨origin', ho', hk⟩ := hs j flow hf
  apply h.unique j i origin' origin ho' ho
  simp [Row.clash, ← hk.id, hid]

theorem Created.eq_of_userCode (h : Created start) (ha : FlowAt start i a) (hb : FlowAt start j b)
    (hc : a.userCode = b.userCode) : i = j :=
  h.unique i j a b ha hb (by simp [Row.clash, hc])

end Rows

/-! ## Calls in flight -/

variable (hashToken : String → String) (start rows : List (Option Row)) in
/-- What a call knows at the point where it stands, and what it has written. -/
inductive Holds : Task Row Frame → Prop
  | pollLoad {d now} : Holds ⟨.pollLoad d now, [], []⟩
  | pollDelete {d now flowId userId name i origin} (horigin : FlowAt start i origin)
      (hcode : hashToken d = origin.deviceCodeHash) (hid : flowId = origin.id)
      (hnow : now < origin.expiresAt) (hgranted : Granted rows i userId) :
      Holds ⟨.pollDelete d now flowId userId name, [], []⟩
  | pollIssue {d now userId name i origin flow} (horigin : FlowAt start i origin)
      (hcode : hashToken d = origin.deviceCodeHash) (hnow : now < origin.expiresAt)
      (hflow : FlowAt rows i flow) (hstatus : flow.status = .authorized)
      (huser : flow.userId = some userId) : Holds ⟨.pollIssue d now userId name, [(i, none)], []⟩
  | pollIssued {d now userId token name i origin flow id} (horigin : FlowAt start i origin)
      (hcode : hashToken d = origin.deviceCodeHash) (hnow : now < origin.expiresAt)
      (hflow : FlowAt rows i flow) (hstatus : flow.status = .authorized)
      (huser : flow.userId = some userId) : Holds ⟨.pollIssued d now token name, [(i, none)],
        [.apiToken ⟨id, userId, name, hashToken token⟩]⟩
  | pollTouch {d now flowId bumped} : Holds ⟨.pollTouch d now flowId bumped, [], []⟩
  | pollUntouched {d now bumped} : Holds ⟨.pollTouched d now bumped, [], []⟩
  | pollTouched {d now bumped i flow} (hflow : FlowAt rows i flow) : Holds
        ⟨.pollTouched d now bumped, [(i, some (.flow (touch now bumped flow)))], []⟩
  | approveLoad {code userId} : Holds ⟨.approveLoad code userId, [], []⟩
  | approveWrite {userId now i origin} (horigin : FlowAt start i origin) :
      Holds ⟨.approveWrite origin.userCode userId origin.id now, [], []⟩
  | approveCommit {userId i origin flow} (horigin : FlowAt start i origin)
      (hflow : FlowAt rows i flow) (hstatus : flow.status = .pending) :
      Holds ⟨.approveCommit origin.userCode userId,
        [(i, some (.flow { flow with status := .authorized, userId := some userId }))], []⟩
  | denyLoad {code deniedBy} : Holds ⟨.denyLoad code deniedBy, [], []⟩
  | denyWrite {deniedBy now i origin} (horigin : FlowAt start i origin) :
      Holds ⟨.denyWrite origin.userCode deniedBy origin.id now, [], []⟩
  | denyCommit {deniedBy i origin flow} (horigin : FlowAt start i origin)
      (hflow : FlowAt rows i flow) (hstatus : flow.status = .pending) :
      Holds ⟨.denyCommit origin.userCode deniedBy,
        [(i, some (.flow { flow with status := .denied, deniedBy := some deniedBy }))], []⟩
  | dropped {operation error writes inserts} : Holds ⟨.dropped operation error, writes, inserts⟩
  | returned {operation answer} : Holds ⟨.returned operation answer, [], []⟩

def Frame.succeeded : Frame → Bool
  | .returned _ .approved | .returned _ .denied => true
  | .returned _ (.polled (.authorized _ _)) => true
  | _ => false

variable (hashToken : String → String) (start rows : List (Option Row)) (f : Frame) in
/-- What a step does to the rows, and the point it leads to. -/
inductive Effect : List (Option Row) → Frame → Prop
  | quiet {f'} (hf : f' = f ∨ (f.succeeded = false ∧ f'.succeeded = false)) : Effect rows f'
  | touched {f' : Frame} {i flow now bumped} (hflow : FlowAt rows i flow) (hf : f.succeeded = false)
      (hf' : f'.succeeded = false) : Effect
        (rows.set i (some (.flow (touch now bumped flow))) ++ [].map some) f'
  | approved {i origin flow userId} (horigin : FlowAt start i origin) (hflow : FlowAt rows i flow)
      (hstatus : flow.status = .pending) (hf : f.succeeded = false) : Effect
        (rows.set i (some (.flow { flow with status := .authorized, userId := some userId })) ++
          [].map some)
        (.returned (.approve origin.userCode userId) .approved)
  | denied {i origin flow deniedBy} (horigin : FlowAt start i origin) (hflow : FlowAt rows i flow)
      (hstatus : flow.status = .pending) (hf : f.succeeded = false) : Effect
        (rows.set i (some (.flow { flow with status := .denied, deniedBy := some deniedBy })) ++
          [].map some)
        (.returned (.deny origin.userCode deniedBy) .denied)
  | consumed {i origin flow userId id d now token name} (horigin : FlowAt start i origin)
      (hcode : hashToken d = origin.deviceCodeHash) (hnow : now < origin.expiresAt)
      (hflow : FlowAt rows i flow) (hstatus : flow.status = .authorized)
      (huser : flow.userId = some userId) (hf : f.succeeded = false) : Effect
        (rows.set i none ++ [.apiToken ⟨id, userId, name, hashToken token⟩].map some)
        (.returned (.poll d now) (.polled (.authorized token name)))

section Steps

variable {hashToken : String → String} {start : List (Option Row)} {choice : Choice}
variable {db db' : Database Row Frame} {t : Nat} {task : Task Row Frame}

/-- A step of the task number `t`, from the point `f`: its effect, and what the call
knows at the next point. -/
def Advances (hashToken : String → String) (start : List (Option Row))
    (db : Database Row Frame) (t : Nat) (f : Frame) (db' : Database Row Frame) : Prop :=
  ∃ task', db'.tasks = db.tasks.set t task' ∧
    Effect hashToken start db.rows f db'.rows task'.frame ∧ Holds hashToken start db'.rows task'

/-- The act ends the call without success. -/
def EndsQuietly : Act Row Frame → Prop
  | .next f | .commit f | .rollback f =>
    ∃ operation answer, f = .returned operation answer ∧ f.succeeded = false
  | _ => False

/-- A call that has written nothing ends without success. -/
theorem advances_of_ends {f act} (h : db.Applies Row.clash t ⟨f, [], []⟩ act db')
    (hf : f.succeeded = false) (ha : EndsQuietly act) : Advances hashToken start db t f db' := by
  cases h with
  | next | rolledBack =>
    obtain ⟨_, _, rfl, hf'⟩ := ha
    exact ⟨_, rfl, .quiet (.inr ⟨hf, hf'⟩), .returned⟩
  | committed =>
    obtain ⟨_, _, rfl, hf'⟩ := ha
    refine ⟨_, rfl, ?_, .returned⟩
    rw [view_nil]
    exact .quiet (.inr ⟨hf, hf'⟩)
  | inserted | refused | wrote => cases ha

/-- Every step of a call has one of the effects, and leaves the call with what it
knows at the next point. -/
theorem advances_of_applies (hcr : Created start) (hst : Stems start db.rows)
    (hh : Holds hashToken start db.rows task)
    (h : db.Applies Row.clash t task (step hashToken choice (task.view db.rows) task.frame) db') :
    Advances hashToken start db t task.frame db' := by
  unfold step at h
  split at h
  · next hfr =>
    rw [← hfr] at h
    cases h
    exact ⟨task, rfl, .quiet (.inl rfl), hh⟩
  split at h
  · next hr _ =>
    cases h
    refine ⟨_, rfl, .quiet (.inr ⟨?_, rfl⟩), .returned⟩
    cases hfr : task.frame with
    | returned => exact absurd hfr (hr _ _)
    | _ => rfl
  cases hh with
  | @pollLoad d now =>
    simp only [view_nil, execute] at h
    repeat' split at h
    iterate 2 exact advances_of_ends h rfl ⟨_, _, rfl, rfl⟩
    rename_i i flow hs
    obtain ⟨hf, hc⟩ := flowAt_of_selectOne hs
    obtain ⟨origin, ho, hk⟩ := hst i flow hf
    revert h
    fun_cases pollFlow d now flow with
    | case2 _ hsta userId hu =>
      rintro ⟨⟩
      refine ⟨_, rfl, .quiet (.inr ⟨rfl, rfl⟩), .pollDelete ho ?_ hk.id ?_ ?_⟩
      · rw [← hk.deviceCodeHash]
        exact (beq_iff_eq.mp hc).symm
      · rw [← hk.expiresAt]
        omega
      · intro flow' hf'
        rw [hf'.eq hf]
        exact ⟨hsta, hu⟩
    | case6 =>
      rintro ⟨⟩
      exact ⟨_, rfl, .quiet (.inr ⟨rfl, rfl⟩), .pollTouch⟩
    | _ => exact fun h => advances_of_ends h rfl ⟨_, _, rfl, rfl⟩
  | pollDelete ho hc hid hn hg =>
    simp only [view_nil, execute] at h
    split at h
    · exact advances_of_ends h rfl ⟨_, _, rfl, rfl⟩
    · rename_i j flow hs
      obtain ⟨hf, hfo⟩ := flowAt_of_selectOne hs
      simp only [and_eq_true, beq_iff_eq] at hfo
      obtain rfl := hcr.eq_of_id hst ho hf (hfo.1.trans hid)
      cases h
      refine ⟨_, rfl, .quiet (.inr ⟨rfl, rfl⟩), ?_⟩
      exact .pollIssue ho hc hn hf hfo.2 (hg flow hf).2
  | pollIssue =>
    cases h with
    | inserted =>
      refine ⟨_, rfl, .quiet (.inr ⟨rfl, rfl⟩), ?_⟩
      constructor <;> assumption
    | refused => exact ⟨_, rfl, .quiet (.inr ⟨rfl, rfl⟩), .dropped⟩
  | pollTouch =>
    simp only [view_nil, execute] at h
    split at h
    · cases h
      exact ⟨_, rfl, .quiet (.inr ⟨rfl, rfl⟩), .pollUntouched⟩
    · rename_i i flow hs
      obtain ⟨hf, -⟩ := flowAt_of_selectOne hs
      cases h
      exact ⟨_, rfl, .quiet (.inr ⟨rfl, rfl⟩), .pollTouched hf⟩
  | @pollUntouched d now bumped =>
    cases h
    refine ⟨_, rfl, ?_, .returned⟩
    rw [view_nil]
    exact .quiet (.inr ⟨rfl, by cases bumped <;> rfl⟩)
  | @pollTouched d now bumped i flow hf =>
    cases h
    refine ⟨_, rfl, ?_, .returned⟩
    simp only [view_singleton]
    exact .touched hf rfl (by cases bumped <;> rfl)
  -- approvals and denials differ in what they write only
  | approveLoad | denyLoad =>
    simp only [view_nil, execute] at h
    repeat' split at h
    iterate 3 exact advances_of_ends h rfl ⟨_, _, rfl, rfl⟩
    rename_i i flow hs _ _
    obtain ⟨hf, hc⟩ := flowAt_of_selectOne hs
    obtain ⟨origin, ho, hk⟩ := hst i flow hf
    obtain rfl := (beq_iff_eq.mp hc).symm.trans hk.userCode
    rw [hk.id] at h
    cases h
    refine ⟨_, rfl, .quiet (.inr ⟨rfl, rfl⟩), ?_⟩
    constructor
    exact ho
  | approveWrite ho | denyWrite ho =>
    simp only [view_nil, execute] at h
    split at h
    · exact advances_of_ends h rfl ⟨_, _, rfl, rfl⟩
    · rename_i j flow hs
      obtain ⟨hf, hfo⟩ := flowAt_of_selectOne hs
      simp only [and_eq_true, beq_iff_eq] at hfo
      obtain rfl := hcr.eq_of_id hst ho hf hfo.1.1
      have hsta := hfo.1.2
      cases h
      refine ⟨_, rfl, .quiet (.inr ⟨rfl, rfl⟩), ?_⟩
      constructor <;> assumption
  | pollIssued | approveCommit | denyCommit =>
    cases h
    refine ⟨_, rfl, ?_, .returned⟩
    simp only [view_singleton]
    constructor <;> first | assumption | rfl
  | dropped =>
    cases h
    exact ⟨_, rfl, .quiet (.inr ⟨rfl, rfl⟩), .returned⟩
  | returned =>
    cases h
    exact ⟨_, rfl, .quiet (.inl rfl), .returned⟩

end Steps

section Effects

variable {hashToken : String → String} {start rows rows' : List (Option Row)} {f f' : Frame}
  (h : Effect hashToken start rows f rows' f')

include h

/-- A flow after a step is the flow before it with its keys, in a status it may move
to. -/
theorem Effect.flow_before {i flow'} (hf' : FlowAt rows' i flow') :
    ∃ flow, FlowAt rows i flow ∧ SameKeys flow' flow ∧
      (flow.status = .pending ∨ (flow'.status = flow.status ∧ flow'.userId = flow.userId)) := by
  cases h
  case quiet => exact ⟨flow', hf', .refl _, .inr ⟨rfl, rfl⟩⟩
  all_goals
    rcases hf'.of_set (by simp) with ⟨rfl, hv⟩ | ⟨-, hf'⟩
    · cases hv
      all_goals
        refine ⟨_, ‹FlowAt rows i _›, ?_, by simp [touch, *]⟩
        exact ⟨rfl, rfl, rfl, rfl⟩
    · exact ⟨flow', hf', .refl _, .inr ⟨rfl, rfl⟩⟩

omit h in
theorem SameKeys.trans {a b c} (hab : SameKeys a b) (hbc : SameKeys b c) : SameKeys a c :=
  ⟨hab.id.trans hbc.id, hab.deviceCodeHash.trans hbc.deviceCodeHash,
    hab.userCode.trans hbc.userCode, hab.expiresAt.trans hbc.expiresAt⟩

theorem Stems.effect (hs : Stems start rows) : Stems start rows' := by
  intro i flow' hf'
  obtain ⟨flow, hf, hk, -⟩ := h.flow_before hf'
  obtain ⟨origin, ho, hk'⟩ := hs i flow hf
  exact ⟨origin, ho, hk.trans hk'⟩

/-- A grant is never taken back. -/
theorem Granted.effect {i userId} (hg : Granted rows i userId) : Granted rows' i userId := by
  intro flow' hf'
  obtain ⟨flow, hf, -, hp | ⟨hs, hu⟩⟩ := h.flow_before hf'
  · have := (hg flow hf).1
    rw [hp] at this
    cases this
  · rw [hs, hu]
    exact hg flow hf

/-- What a call knows stays true when another call takes a step: rows that it has
written are locked, and grants are not taken back. -/
theorem Holds.others {task} (hh : Holds hashToken start rows task)
    (hl : ∀ i row, task.Wrote i → rows[i]? = some row → rows'[i]? = some row) :
    Holds hashToken start rows' task := by
  cases hh
  all_goals
    constructor
    all_goals first
      | assumption
      | exact Granted.effect h ‹_›
      | exact hl _ _ ⟨_, mem_singleton_self _⟩ ‹_›

end Effects

/-! ## The life of a flow -/

section Phases

variable (hashToken : String → String) (origin : PendingDeviceFlow)

def Frame.tookToken : Frame → Bool
  | .returned (.poll deviceCode _) (.polled (.authorized _ _)) =>
    hashToken deviceCode == origin.deviceCodeHash
  | _ => false

def Frame.settled : Frame → Bool
  | .returned (.approve userCode _) .approved => userCode == origin.userCode
  | .returned (.deny userCode _) .denied => userCode == origin.userCode
  | f => f.tookToken hashToken origin

/-- The row of an API token. -/
def Issued (rows : List (Option Row)) (userId : Uuid) (token name : String) : Prop :=
  ∃ (j : Nat) (id : Uuid),
    rows[j]? = some (some (Row.apiToken ⟨id, userId, name, hashToken token⟩))

variable (rows : List (Option Row)) (i : Nat) (frames : List Frame) in
/-- The committed row of the flow and the calls that have succeeded on it. -/
inductive Phase : Prop
  | pending {flow} (hflow : FlowAt rows i flow) (hstatus : flow.status = .pending)
      (hframes : ∀ g ∈ frames, g.settled hashToken origin = false) : Phase
  | denied {flow} (hflow : FlowAt rows i flow) (hstatus : flow.status = .denied)
      (hframes : ∀ g ∈ frames, g.settled hashToken origin →
        ∃ deniedBy, g = .returned (.deny origin.userCode deniedBy) .denied) : Phase
  | authorized {flow userId} (hflow : FlowAt rows i flow) (hstatus : flow.status = .authorized)
      (huser : flow.userId = some userId)
      (happroved : .returned (.approve origin.userCode userId) .approved ∈ frames)
      (hframes : ∀ g ∈ frames, g.settled hashToken origin →
        g = .returned (.approve origin.userCode userId) .approved) : Phase
  | consumed (userId d token name) {now} (hrow : rows[i]? = some none)
      (happroved : .returned (.approve origin.userCode userId) .approved ∈ frames)
      (hnow : now < origin.expiresAt) (hissued : Issued hashToken rows userId token name)
      (hcount : frames.countP (Frame.tookToken hashToken origin) = 1)
      (hframes : ∀ g ∈ frames, g.settled hashToken origin →
        g = .returned (.approve origin.userCode userId) .approved ∨
          g = .returned (.poll d now) (.polled (.authorized token name))) : Phase

variable {hashToken origin}

variable {f : Frame} {token : String}

theorem settled_of_not_succeeded (h : f.succeeded = false) :
    f.settled hashToken origin = false := by
  unfold settled
  split
  · cases h
  · cases h
  · unfold tookToken
    split
    · cases h
    · rfl

theorem settled_of_tookToken (h : f.tookToken hashToken origin = true) :
    f.settled hashToken origin = true := by
  unfold tookToken at h
  split at h
  · exact h
  · cases h

theorem tookToken_of_not_settled (h : f.settled hashToken origin = false) :
    f.tookToken hashToken origin = false := by
  rw [← not_eq_true]
  intro ht
  rw [settled_of_tookToken ht] at h
  cases h

/-- The calls that have succeeded on the flow are the same. -/
structure Unmoved (hashToken : String → String) (origin : PendingDeviceFlow)
    (frames frames' : List Frame) : Prop where
  mem : ∀ g : Frame, g.settled hashToken origin = true → (g ∈ frames' ↔ g ∈ frames)
  count : frames'.countP (Frame.tookToken hashToken origin) =
    frames.countP (Frame.tookToken hashToken origin)

theorem unmoved_set {tasks : List (Task Row Frame)} {t : Nat} {task : Task Row Frame}
    (task' : Task Row Frame) (ht : tasks[t]? = some task)
    (h : task.frame.settled hashToken origin = false)
    (h' : task'.frame.settled hashToken origin = false) :
    Unmoved hashToken origin (tasks.map frame) ((tasks.set t task').map frame) where
  mem := by
    intro g hg
    rw [mem_frames_set task' ht (by rintro rfl; rw [h] at hg; cases hg)]
    constructor
    · rintro (rfl | hm)
      · rw [h'] at hg
        cases hg
      · exact hm
    · exact .inr
  count := by
    rw [countP_frames_set task' ht (tookToken_of_not_settled h), tookToken_of_not_settled h']
    rfl

variable {rows rows' : List (Option Row)} {i : Nat} {frames frames' : List Frame}

variable (h : Phase hashToken origin rows i frames)

include h

/-- A step that no call on the flow succeeds with, and that keeps the status of the
flow. -/
theorem Phase.of_unmoved
    (hr : rows'[i]? = rows[i]? ∨ ∃ flow flow', FlowAt rows i flow ∧ FlowAt rows' i flow' ∧
      flow'.status = flow.status ∧ flow'.userId = flow.userId)
    (hi : ∀ userId token name,
      Issued hashToken rows userId token name → Issued hashToken rows' userId token name)
    (hfr : Unmoved hashToken origin frames frames') :
    Phase hashToken origin rows' i frames' := by
  have ho : ∀ {P : Frame → Prop}, (∀ g ∈ frames, g.settled hashToken origin → P g) →
      ∀ g ∈ frames', g.settled hashToken origin → P g :=
    fun hal g hg hse => hal g ((hfr.mem g hse).mp hg) hse
  have hf : ∀ {flow}, FlowAt rows i flow → ∃ flow', FlowAt rows' i flow' ∧
      flow'.status = flow.status ∧ flow'.userId = flow.userId := by
    intro flow hf
    rcases hr with hsa | ⟨flow₀, flow', hf₀, hf', hk⟩
    · exact ⟨flow, hsa.trans hf, rfl, rfl⟩
    · rw [hf₀.eq hf] at hk
      exact ⟨flow', hf', hk⟩
  cases h with
  | pending hat hs hal =>
    obtain ⟨flow', hat', hs', -⟩ := hf hat
    refine .pending hat' (hs'.trans hs) ?_
    intro g hg
    rw [← not_eq_true]
    intro hse
    have := hal g ((hfr.mem g hse).mp hg)
    rw [hse] at this
    cases this
  | denied hat hs hal =>
    obtain ⟨flow', hat', hs', -⟩ := hf hat
    exact .denied hat' (hs'.trans hs) (ho hal)
  | authorized hat hs hu ha hal =>
    obtain ⟨_, hat', hs', hu'⟩ := hf hat
    exact .authorized hat' (hs'.trans hs) (hu'.trans hu)
      ((hfr.mem _ (by simp [settled])).mpr ha) (ho hal)
  | consumed userId d token name hgo ha hn ht hc hal =>
    have hgo' : rows'[i]? = some none := by
      rcases hr with hsa | ⟨flow₀, -, hf₀, -⟩
      · exact hsa.trans hgo
      · rw [FlowAt, hgo] at hf₀
        cases hf₀
    exact .consumed userId d token name hgo'
      ((hfr.mem _ (by simp [settled])).mpr ha) hn (hi _ _ _ ht)
      (hfr.count.trans hc) (ho hal)

theorem Phase.exists_row : ∃ row, rows[i]? = some row := by
  cases h with
  | pending hf | denied hf | authorized hf => exact ⟨_, hf⟩
  | consumed _ _ _ _ hr => exact ⟨_, hr⟩

omit h in
/-- Only rows of flows are written. -/
theorem Issued.set {userId name j flow} (h : Issued hashToken rows userId token name)
    (hf : FlowAt rows j flow) (version : Option Row) (extra : List Row) :
    Issued hashToken (rows.set j version ++ extra.map some) userId token name := by
  obtain ⟨k, id, hr⟩ := h
  refine ⟨k, id, getElem?_set_append_of_ne ?_ hr⟩
  rintro rfl
  rw [FlowAt, hr] at hf
  cases hf

theorem Phase.countP_tookToken_le : frames.countP (tookToken hashToken origin) ≤ 1 := by
  have hz : (∀ g ∈ frames, g.settled hashToken origin → g.tookToken hashToken origin = false) →
      frames.countP (tookToken hashToken origin) ≤ 1 := by
    intro ha
    rw [countP_eq_zero.mpr]
    · exact Nat.zero_le 1
    · intro g hg ht
      rw [ha g hg (settled_of_tookToken ht)] at ht
      cases ht
  cases h with
  | pending _ _ hf =>
    apply hz
    intro g hg _
    exact tookToken_of_not_settled (hf g hg)
  | denied _ _ hf =>
    apply hz
    intro g hg hs
    obtain ⟨_, rfl⟩ := hf g hg hs
    rfl
  | authorized _ _ _ _ hf =>
    apply hz
    intro g hg hs
    rw [hf g hg hs]
    rfl
  | consumed _ _ _ _ _ _ _ _ hc => exact Nat.le_of_eq hc

/-- A token has been returned only for a flow that was approved and is consumed. -/
theorem Phase.of_token {deviceCode now tokenName}
    (hc : hashToken deviceCode = origin.deviceCodeHash)
    (hm : .returned (.poll deviceCode now) (.polled (.authorized token tokenName)) ∈ frames) :
    now < origin.expiresAt ∧ ∃ userId, Issued hashToken rows userId token tokenName ∧
      .returned (.approve origin.userCode userId) .approved ∈ frames ∧
        ∀ g ∈ frames, g.settled hashToken origin →
          g = .returned (.approve origin.userCode userId) .approved ∨
            g.tookToken hashToken origin := by
  have hs : (returned (.poll deviceCode now)
      (.polled (.authorized token tokenName))).settled hashToken origin = true := by
    simp [settled, tookToken, hc]
  cases h with
  | pending _ _ hf =>
    rw [hf _ hm] at hs
    cases hs
  | denied _ _ hf =>
    obtain ⟨_, heq⟩ := hf _ hm hs
    cases heq
  | authorized _ _ _ _ hf => cases hf _ hm hs
  | consumed userId _ _ _ _ ha hn hi _ hf =>
    rcases hf _ hm hs with heq | heq
    · cases heq
    · cases heq
      refine ⟨hn, userId, hi, ha, ?_⟩
      intro g hg hg'
      rcases hf g hg hg' with rfl | rfl
      · exact .inl rfl
      · exact .inr hs

omit h

section Moves

variable {start : List (Option Row)} {tasks : List (Task Row Frame)} {t : Nat}
variable {task task' : Task Row Frame}

variable {flow : PendingDeviceFlow}

/-- A step on another flow. -/
theorem Phase.of_other {j version} {extra : List Row}
    (h : Phase hashToken origin rows i (tasks.map frame)) (hij : i ≠ j) (hfl : FlowAt rows j flow)
    (ht : tasks[t]? = some task) (hf : task.frame.settled hashToken origin = false)
    (hf' : task'.frame.settled hashToken origin = false) :
    Phase hashToken origin (rows.set j version ++ extra.map some) i
      ((tasks.set t task').map frame) := by
  obtain ⟨row, hr⟩ := h.exists_row
  refine h.of_unmoved (.inl ?_) ?_ (unmoved_set task' ht hf hf')
  · rw [hr]
    exact getElem?_set_append_of_ne hij hr
  · intro userId token name hi
    exact hi.set hfl version extra

theorem Phase.status_pending (h : Phase hashToken origin rows i frames) (hf : FlowAt rows i flow)
    (hs : flow.status = .pending) {P : Frame → Prop} :
    ∀ g ∈ frames, g.settled hashToken origin → P g := by
  cases h with
  | pending _ _ hfr =>
    intro g hg hse
    rw [hfr g hg] at hse
    cases hse
  | denied hf' hs' | authorized hf' hs' =>
    rw [hf.eq hf', hs'] at hs
    cases hs
  | consumed _ _ _ _ hr =>
    rw [FlowAt, hr] at hf
    cases hf

theorem ne_of_settled {g : Frame} (hf : f.settled hashToken origin = false)
    (hg : g.settled hashToken origin = true) : f ≠ g := by
  rintro rfl
  rw [hf] at hg
  cases hg

/-- The calls that have succeeded on the flow after a step: those before it, and the
call that takes it. -/
theorem settled_set {P : Frame → Prop} (ht : tasks[t]? = some task)
    (hf : task.frame.settled hashToken origin = false) (hn : P task'.frame)
    (ho : ∀ g ∈ tasks.map frame, g.settled hashToken origin → P g) :
    ∀ g ∈ (tasks.set t task').map frame, g.settled hashToken origin → P g := by
  intro g hg hs
  rw [mem_frames_set task' ht (ne_of_settled hf hs)] at hg
  rcases hg with rfl | hg
  · exact hn
  · exact ho g hg hs

theorem Phase.effect (h : Phase hashToken origin rows i (tasks.map frame))
    (hcr : Created start) (ho : FlowAt start i origin) (ht : tasks[t]? = some task)
    (he : Effect hashToken start rows task.frame rows' task'.frame) :
    Phase hashToken origin rows' i ((tasks.set t task').map frame) := by
  have hq : ∀ {f : Frame}, f.succeeded = false → f.settled hashToken origin = false :=
    settled_of_not_succeeded
  generalize hf' : task'.frame = f' at he
  cases he with
  | quiet hf =>
    rcases hf with hsa | ⟨hf, hf''⟩
    · rwa [map_set_of_eq ht (hf'.trans hsa)]
    · refine h.of_unmoved (.inl rfl) (fun _ _ _ hi => hi) ?_
      exact unmoved_set task' ht (hq hf) (hq (hf' ▸ hf''))
  | @touched _ j flow now bumped hfl hf hf'' =>
    by_cases hij : i = j
    · subst hij
      refine h.of_unmoved (.inr ⟨flow, touch now bumped flow, hfl, ?_, rfl, rfl⟩) ?_
        (unmoved_set task' ht (hq hf) (hq (hf' ▸ hf'')))
      · exact getElem?_set_append_self hfl
      · intro userId token name hi
        exact hi.set hfl _ _
    · exact h.of_other hij hfl ht (hq hf) (hq (hf' ▸ hf''))
  | @approved j origin' flow userId ho' hfl hs hf =>
    by_cases hij : i = j
    · subst hij
      obtain rfl := ho'.eq ho
      refine .authorized (getElem?_set_append_self hfl) rfl rfl ?_
        (settled_set ht (hq hf) hf' (h.status_pending hfl hs))
      rw [mem_frames_set task' ht (ne_of_settled (hq hf) (by simp [settled]))]
      exact .inl hf'.symm
    · refine h.of_other hij hfl ht (hq hf) ?_
      rw [hf', settled, beq_eq_false_iff_ne]
      intro hc
      exact hij (hcr.eq_of_userCode ho ho' hc.symm)
  | @denied j origin' flow deniedBy ho' hfl hs hf =>
    by_cases hij : i = j
    · subst hij
      obtain rfl := ho'.eq ho
      exact .denied (getElem?_set_append_self hfl) rfl
        (settled_set ht (hq hf) ⟨deniedBy, hf'⟩ (h.status_pending hfl hs))
    · refine h.of_other hij hfl ht (hq hf) ?_
      rw [hf', settled, beq_eq_false_iff_ne]
      intro hc
      exact hij (hcr.eq_of_userCode ho ho' hc.symm)
  | @consumed j origin' flow userId id d now token name ho' hc hn hfl hs hu hf =>
    by_cases hij : i = j
    · subst hij
      obtain rfl := ho'.eq ho
      cases h with
      | pending hfl' hs' | denied hfl' hs' =>
        rw [hfl.eq hfl', hs'] at hs
        cases hs
      | authorized hfl' _ hu' ha hol =>
        rw [hfl.eq hfl', hu', Option.some.injEq] at hu
        subst hu
        refine .consumed _ d token name (getElem?_set_append_self hfl) ?_ hn
          ⟨rows.length, id, by simp⟩ ?_
          (settled_set ht (hq hf) (.inr hf') fun g hg hg' => .inl (hol g hg hg'))
        · rw [mem_frames_set task' ht (ne_of_settled (hq hf) (by simp [settled]))]
          exact .inr ha
        · have hco : (tasks.map frame).countP (tookToken hashToken origin') = 0 := by
            rw [countP_eq_zero]
            intro g hg hto
            rw [hol g hg (settled_of_tookToken hto)] at hto
            cases hto
          rw [countP_frames_set task' ht (tookToken_of_not_settled (hq hf)), hco, hf']
          simp [tookToken, hc]
      | consumed _ _ _ _ hr =>
        rw [FlowAt, hr] at hfl
        cases hfl
    · refine h.of_other hij hfl ht (hq hf) ?_
      rw [hf', settled, tookToken, beq_eq_false_iff_ne]
      · intro hh
        exact hij (hcr.unique _ _ _ _ ho ho' (by simp [Row.clash, ← hh, hc]))
      all_goals
        intro _ _ heq
        cases heq

end Moves

end Phases

/-! ## Runs -/

section Runs

variable {hashToken : String → String} {start : List (Option Row)}

/-- What holds in every state of a run. -/
structure Coherent (hashToken : String → String) (start : List (Option Row))
    (db : Database Row Frame) : Prop where
  exclusive : db.Exclusive
  stems : Stems start db.rows
  holds : db.Each (Holds hashToken start db.rows)
  phase : ∀ i origin, FlowAt start i origin → Phase hashToken origin db.rows i db.frames

theorem Coherent.init (hc : Created start) : Coherent hashToken start ⟨start, []⟩ where
  exclusive := exclusive_init start
  stems := by
    intro i flow hf
    exact ⟨flow, hf, .refl flow⟩
  holds := each_init start
  phase := by
    intro i origin ho
    refine .pending ho (hc.pending i origin ho) ?_
    intro g hg
    cases hg

variable {db : Database Row Frame}

theorem Coherent.started (h : Coherent hashToken start db) (operation) :
    Coherent hashToken start ((deviceFlows hashToken).move db (.start operation)) where
  exclusive := exclusive_start h.exclusive operation
  stems := h.stems
  holds := h.holds.append (by cases operation <;> constructor)
  phase := by
    intro i origin ho
    have hq : operation.enter.settled hashToken origin = false :=
      settled_of_not_succeeded (by cases operation <;> rfl)
    refine (h.phase i origin ho).of_unmoved (.inl rfl) (fun _ _ _ hi => hi) ?_
    refine ⟨?_, countP_frames_start (tookToken_of_not_settled hq)⟩
    intro g hg
    exact mem_frames_start.trans (or_iff_left (ne_of_settled hq hg).symm)

theorem Coherent.step (hc : Created start) {db' t task choice}
    (h : Coherent hashToken start db) (ht : db.tasks[t]? = some task)
    (ha : db.Applies Row.clash t task (step hashToken choice (task.view db.rows) task.frame)
      db') : Coherent hashToken start db' := by
  obtain ⟨_, hta, he, hh⟩ :=
    advances_of_applies hc h.stems (h.holds t task ht) ha
  refine ⟨exclusive_applies h.exclusive ht ha, h.stems.effect he, ?_, ?_⟩
  · exact holds_applies h.exclusive ht ha h.holds hta hh fun _ hot =>
      hot.others he
  · intro i origin ho
    have hp := (h.phase i origin ho).effect hc ho ht he
    rwa [← hta] at hp

/-- Run lemma: every run from a store of created codes is coherent. -/
theorem coherent_run (hc : Created start) (moves) :
    Coherent hashToken start ((deviceFlows hashToken).run ⟨start, []⟩ moves) := by
  refine run_invariant ?_ ?_ (Coherent.init hc) moves
  · intro db operation h
    exact h.started operation
  · intro db t choice task db' h ht ha
    exact h.step hc ht ha

/-- A device login yields one token, for the approving user: of all the calls on a
flow, at most one poll returns a token, it does so before the flow expires, no denial
has succeeded or will, and the token belongs to the one user who has approved. -/
theorem device_login_once (hc : Created start) {i : Nat} {origin : PendingDeviceFlow}
    (hor : FlowAt start i origin) (moves : List (Move Operation Choice)) :
    let db := (deviceFlows hashToken).run ⟨start, []⟩ moves
    db.frames.countP (Frame.tookToken hashToken origin) ≤ 1 ∧
      ∀ deviceCode now token tokenName, hashToken deviceCode = origin.deviceCodeHash →
        .returned (.poll deviceCode now) (.polled (.authorized token tokenName)) ∈ db.frames →
          now < origin.expiresAt ∧
            (∀ deniedBy, .returned (.deny origin.userCode deniedBy) .denied ∉ db.frames) ∧
              ∃ userId, Issued hashToken db.rows userId token tokenName ∧
                .returned (.approve origin.userCode userId) .approved ∈ db.frames ∧
                  ∀ userId', .returned (.approve origin.userCode userId') .approved ∈ db.frames →
                    userId' = userId := by
  intro db
  have hp : Phase hashToken origin db.rows i db.frames :=
    (coherent_run hc moves).phase i origin hor
  refine ⟨hp.countP_tookToken_le, ?_⟩
  intro deviceCode now token tokenName hco hm
  obtain ⟨hn, userId, hi, ha, ho⟩ := hp.of_token hco hm
  refine ⟨hn, ?_, userId, hi, ha, ?_⟩
  · intro deniedBy hd
    rcases ho _ hd (by simp [settled]) with heq | ht
    · cases heq
    · cases ht
  · intro userId' ha'
    rcases ho _ ha' (by simp [settled]) with heq | ht
    · cases heq
      rfl
    · cases ht

def loginFlow : PendingDeviceFlow where
  id := 1
  deviceCodeHash := "device"
  userCode := "BCDFGHJK"
  status := .pending
  userId := none
  deniedBy := none
  clientName := none
  interval := 5
  lastPolledAt := none
  expiresAt := 600

theorem created_loginFlow : Created [some (.flow loginFlow)] where
  pending := by
    intro i flow hf
    cases i with
    | zero =>
      cases hf
      rfl
    | succ => cases hf
  unique := by
    intro i j a b ha hb _
    cases i with
    | zero =>
      cases j with
      | zero => rfl
      | succ => cases hb
    | succ => cases ha

/-- An approval by user 7, and two polls that both see it before either deletes the
row. -/
def loginMoves : List (Move Operation Choice) :=
  [.start (.approve "BCDFGHJK" 7), .run 0 {}, .run 0 {}, .run 0 {},
    .start (.poll "device" 10), .start (.poll "device" 11), .run 1 {}, .run 2 {},
    .run 1 {}, .run 2 {}, .run 1 { raw := "secret", tokenId := 3 }, .run 1 {}, .run 2 {}]

theorem device_login_once_two_polls :
    let db := (deviceFlows id).run ⟨[some (.flow loginFlow)], []⟩ loginMoves
    db.frames = [.returned (.approve "BCDFGHJK" 7) .approved,
        .returned (.poll "device" 10) (.polled (.authorized "upk_secret" "cli")),
        .returned (.poll "device" 11) (.polled .unknown)] ∧
      db.frames.countP (Frame.tookToken id loginFlow) ≤ 1 :=
  ⟨by decide,
    (device_login_once created_loginFlow (show FlowAt _ 0 loginFlow from rfl) loginMoves).1⟩

end Runs

end Uptrakit.Auth.DeviceFlow
