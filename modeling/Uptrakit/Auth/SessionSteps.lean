import Uptrakit.Auth.Sessions

/-!
# Steps of the session calls

What a call has written at the point where it stands, and what its next step does,
in runs in which rotations and deletions of one session do not overlap.
-/

namespace Uptrakit.Auth.Sessions

open Concurrent List Session Task Database

def SessionAt (rows : List (Option Session)) (i : Nat) (session : Session) : Prop :=
  rows[i]? = some (some session)

variable {rows : List (Option Session)} {i : Nat} {a : Session}

theorem SessionAt.eq {b} (ha : SessionAt rows i a) (hb : SessionAt rows i b) : a = b := by
  rw [SessionAt, ha] at hb
  simpa using hb

theorem SessionAt.lt (h : SessionAt rows i a) : i < rows.length :=
  (List.getElem?_eq_some_iff.mp h).1

theorem Session.clash_symm (a b : Session) : a.clash b = b.clash a := by
  simp only [clash, Bool.beq_comm]

/-! ## Calls -/

def Operation.newToken : Operation → Option String
  | create _ draw | rotate _ draw => draw.token
  | _ => none

def Frame.issued : Frame → Option String
  | returned _ (.created token) | returned _ (.rotated _ token) => some token
  | _ => none

def Frame.rotation : Frame → Option (String × String)
  | returned (.rotate token _) (.rotated _ newToken) => some (token, newToken)
  | _ => none

/-- The session that a call has revoked in order to replace it. -/
def Frame.rotating : Frame → Option Session
  | rotateInsert _ _ session _ | rotateCommit _ _ session _ _ => some session
  | _ => none

/-- The rows that `delete_user_sessions` has seen and not reached yet. -/
def Frame.todo : Frame → List Nat
  | deleteRows (.user _) todo _ => todo
  | _ => []

def Frame.deleting : Frame → Bool
  | deleteRows _ _ _ | returned _ (.deleted _) => true
  | _ => false

theorem Frame.issued_of_rotation {f : Frame} {token newToken}
    (h : f.rotation = some (token, newToken)) : f.issued = some newToken := by
  cases f with
  | returned operation answer =>
    cases operation <;> cases answer <;> cases h
    rfl
  | _ => cases h

/-- What `generate_secure_token` is assumed to do: the token of a call is new, up to its
hash. -/
def freshDraw (hashToken : String → String) (start : List (Option Session))
    (db : Database Session Frame) : Move Operation Choice → Bool
  | .start operation =>
    (operation.newToken.map hashToken).all fun tokenHash =>
      (start.all fun row => row.all (·.refreshTokenHash != tokenHash)) &&
        db.frames.all fun f => f.operation.newToken.map hashToken != some tokenHash
  | .run _ _ => true

/-- The condition on a step: a rotation revokes a session only while its row is what the
call has read, and no deletion of the user's sessions has the row still before it; such
a deletion looks its rows up only while no rotation of a session of the user has
revoked it and not committed yet. -/
def noOverlap (db : Database Session Frame) : Move Operation Choice → Bool
  | .start _ => true
  | .run t _ =>
    match db.tasks[t]? with
    | none => true
    | some task =>
      match task.frame with
      | .rotateRevoke _ _ session _ =>
        (selectOne (tableWhere some (·.id == session.id)) db.rows).all fun found =>
          found.2 == session && db.frames.all fun f => !f.todo.contains found.1
      | .deleteScan (.user userId) =>
        db.frames.all fun f => f.rotating.all (·.userId != userId)
      | _ => true

def Frame.idle : Frame → Bool
  | createInsert _ _ | verifyFind _ | rotateFind _ _ | revokeFind _ | revokeUpdate _ _ _ => true
  | deleteScan _ | returned _ _ => true
  | _ => false

variable (hashToken : String → String) (rows : List (Option Session)) in
/-- What a call has written at the point where it stands.  A session that a rotation has
revoked is, in the committed rows, still the one it has read. -/
inductive Holds : Task Session Frame → Prop
  | idle {f : Frame} (hf : f.idle = true)
      (hissued : ∀ token, f.issued = some token → f.operation.newToken = some token) :
      Holds ⟨f, [], []⟩
  | createCommit {login} {draw : Draw} {token now} (hnew : draw.token = some token) :
      Holds ⟨.createCommit login draw token, [], [login.session draw.id (hashToken token) now]⟩
  | rotateRevoke {token draw} {session : Session} {now}
      (hhash : session.refreshTokenHash = hashToken token) (hlive : session.revokedAt = none) :
      Holds ⟨.rotateRevoke token draw session now, [], []⟩
  | rotateInsert {token draw session now i} (hrow : SessionAt rows i session)
      (hhash : session.refreshTokenHash = hashToken token) (hlive : session.revokedAt = none) :
      Holds ⟨.rotateInsert token draw session now,
        [(i, some { session with revokedAt := some now })], []⟩
  | rotateCommit {token} {draw : Draw} {session verified newToken now i}
      (hrow : SessionAt rows i session) (hhash : session.refreshTokenHash = hashToken token)
      (hlive : session.revokedAt = none) (hnew : draw.token = some newToken) :
      Holds ⟨.rotateCommit token draw session verified newToken,
        [(i, some { session with revokedAt := some now })],
        [session.successor draw.id (hashToken newToken) now]⟩
  | revokeCommit {token row now i} (hrow : SessionAt rows i row) : Holds ⟨.revokeCommit token,
        [(i, some { row with revokedAt := some now })], []⟩
  | deleteRows {scope todo deleted writes} (hwrites : ∀ i v, (i, v) ∈ writes → v = none) :
      Holds ⟨.deleteRows scope todo deleted, writes, []⟩
  | abort {operation error writes} : Holds ⟨.abort operation error, writes, []⟩

section Holds

variable {hashToken : String → String} {rows rows' : List (Option Session)}
variable {task : Task Session Frame}

variable (h : Holds hashToken rows task)

include h

/-- A returned token is the one that the call has generated. -/
theorem Holds.issued {token} (hi : task.frame.issued = some token) :
    task.frame.operation.newToken = some token := by
  cases h with
  | idle _ h => exact h token hi
  | _ => cases hi

theorem Holds.rotating {session} (hr : task.frame.rotating = some session)
    (hw : task.Wrote i) : SessionAt rows i session := by
  cases h with
  | rotateInsert hro | rotateCommit hro =>
    cases hr
    obtain ⟨v, hv⟩ := hw
    cases mem_singleton.mp hv
    exact hro
  | idle =>
    obtain ⟨v, hv⟩ := hw
    cases hv
  | _ => cases hr

/-- What a call has written stays what it is when other calls take steps. -/
theorem Holds.others
    (hl : ∀ i row, task.Wrote i → rows[i]? = some row → rows'[i]? = some row) :
    Holds hashToken rows' task := by
  cases h with
  | rotateRevoke hh hli => exact .rotateRevoke hh hli
  | _ =>
    constructor
    all_goals first
      | assumption
      | exact hl _ _ ⟨_, mem_singleton_self _⟩ ‹_›

end Holds

/-! ## Effects -/

variable (hashToken : String → String) (rows : List (Option Session)) (task : Task Session Frame) in
/-- What a step does to the committed rows, and to the task that takes it. -/
inductive Effect : List (Option Session) → Task Session Frame → Prop
  | same : Effect rows task
  | quiet {task' : Task Session Frame} (hoperation : task'.frame.operation = task.frame.operation)
      (hbefore : task.frame.issued = none) (hafter : task'.frame.issued = none)
      (hdeleting : task'.frame.deleting = false) (hrotating : task'.frame.rotating = none ∨
        (task'.frame.rotating = task.frame.rotating ∧ task'.writes = task.writes)) :
      Effect rows task'
  | marked {token draw session now i} (hf : task.frame = .rotateRevoke token draw session now)
      (hrow : SessionAt rows i session)
      (hselect : selectOne (tableWhere some (·.id == session.id)) rows = some (i, session)) :
      Effect rows ⟨.rotateInsert token draw session now,
        [(i, some { session with revokedAt := some now })], []⟩
  | scanned {scope todo} (hf : task.frame = .deleteScan scope)
      (htodo : ∀ i, i ∈ todo ↔ ∃ session, SessionAt rows i session ∧ scope.covers session = true) :
      Effect rows ⟨.deleteRows scope todo 0, [], []⟩
  | removed {scope i todo deleted} (hf : task.frame = .deleteRows scope (i :: todo) deleted) :
      Effect rows ⟨.deleteRows scope todo (deleted + 1), (i, none) :: task.writes, []⟩
  | skipped {scope i todo deleted} (hf : task.frame = .deleteRows scope (i :: todo) deleted)
      (hskip : ∀ session, SessionAt rows i session → scope.covers session = true →
        task.Wrote i) : Effect rows ⟨.deleteRows scope todo deleted, task.writes, []⟩
  | created {login draw token now} (hf : task.frame = .createCommit login draw token)
      (hnew : draw.token = some token) :
      Effect (rows ++ [some (login.session draw.id (hashToken token) now)])
        ⟨.returned (.create login draw) (.created token), [], []⟩
  | rotated {token draw session verified newToken now i}
      (hf : task.frame = .rotateCommit token draw session verified newToken) (hwrote : task.Wrote i)
      (hrow : SessionAt rows i session) (hhash : session.refreshTokenHash = hashToken token)
      (hlive : session.revokedAt = none) (hnew : draw.token = some newToken) : Effect
        (rows.set i (some { session with revokedAt := some now }) ++
          [some (session.successor draw.id (hashToken newToken) now)])
        ⟨.returned (.rotate token draw) (.rotated verified newToken), [], []⟩
  | revoked {token row now i} (hf : task.frame = .revokeCommit token)
      (hrow : SessionAt rows i row) : Effect (rows.set i (some { row with revokedAt := some now }))
        ⟨.returned (.revoke token) .revoked, [], []⟩
  | deleted {scope deleted rows'} (hf : task.frame = .deleteRows scope [] deleted)
      (hrows : ∀ i session, SessionAt rows' i session → SessionAt rows i session ∧ ¬ task.Wrote i) :
      Effect rows' ⟨.returned (.delete scope) (.deleted deleted), [], []⟩

section Steps

variable {hashToken : String → String} {choice : Choice}
variable {db db' : Database Session Frame} {t : Nat} {task : Task Session Frame}

/-- A step of the task number `t`. -/
def Advances (hashToken : String → String) (db : Database Session Frame) (t : Nat)
    (task : Task Session Frame) (db' : Database Session Frame) : Prop :=
  ∃ task', db'.tasks = db.tasks.set t task' ∧ Effect hashToken db.rows task db'.rows task' ∧
    Holds hashToken db'.rows task'

variable {f : Frame} {session : Session}

/-- The next point of a call, when nothing is to be said about it. -/
theorem advances_of_next {f'} (h : db.Applies clash t ⟨f, [], []⟩ (.next f') db')
    (ho : f'.operation = f.operation) (hb : f.issued = none)
    (ha : f'.issued = none) (hd : f'.deleting = false) (hr : f'.rotating = none)
    (hh : Holds hashToken db.rows ⟨f', [], []⟩) : Advances hashToken db t ⟨f, [], []⟩ db' := by
  cases h
  exact ⟨_, rfl, .quiet ho hb ha hd (.inl hr), hh⟩

/-- The transaction of a call is rolled back. -/
theorem advances_of_rollback {operation error}
    (h : db.Applies clash t task (.rollback (.returned operation (.error error))) db')
    (ho : operation = task.frame.operation) (hb : task.frame.issued = none) :
    Advances hashToken db t task db' := by
  cases h
  exact ⟨_, rfl, .quiet ho hb rfl rfl (.inl rfl), .idle rfl nofun⟩

theorem checkSession_spec {now found} (h : checkSession now found = .ok session) :
    found = some session ∧ session.revokedAt = none := by
  revert h
  fun_cases checkSession now found with
  | case4 _ hl =>
    rintro ⟨⟩
    exact ⟨rfl, by simpa using hl⟩
  | _ => nofun

theorem advances_of_idle (hf : f.idle = true)
    (hr : ∀ operation answer, f ≠ .returned operation answer)
    (h : db.Applies clash t ⟨f, [], []⟩ (execute hashToken choice db.rows f) db') :
    Advances hashToken db t ⟨f, [], []⟩ db' := by
  revert h
  fun_cases execute hashToken choice db.rows f with
  | case2 _ _ _ hn =>
    intro h
    cases h with
    | inserted => exact ⟨_, rfl, .quiet rfl rfl rfl rfl (.inl rfl), .createCommit hn⟩
    | refused => exact ⟨_, rfl, .quiet rfl rfl rfl rfl (.inl rfl), .abort⟩
  | case1 | case4 | case5 | case6 | case14 | case15 =>
    exact fun h => advances_of_next h rfl rfl rfl rfl rfl (.idle rfl nofun)
  | case7 => exact fun h => advances_of_rollback h rfl rfl
  | case8 _ _ session hch =>
    obtain ⟨hfo, hl⟩ := checkSession_spec hch
    obtain ⟨⟨i, session'⟩, hs, rfl⟩ := Option.map_eq_some_iff.mp hfo
    obtain ⟨-, hh⟩ := of_selectOne_some hs
    exact fun h =>
      advances_of_next h rfl rfl rfl rfl rfl (.rotateRevoke (beq_iff_eq.mp hh) hl)
  | case16 =>
    unfold updateRevokedAt
    split
    · exact fun h => advances_of_rollback h rfl rfl
    · rename_i i row hs
      rintro ⟨⟩
      exact ⟨_, rfl, .quiet rfl rfl rfl rfl (.inl rfl), .revokeCommit (of_selectOne_some hs).1⟩
  | case18 =>
    rintro ⟨⟩
    refine ⟨_, rfl, .scanned rfl ?_, .deleteRows nofun⟩
    intro i
    simp only [mem_map, Prod.exists, mem_select_iff]
    constructor
    · rintro ⟨j, session, ⟨row, hro, hp⟩, rfl⟩
      obtain ⟨heq, hc⟩ := Option.filter_eq_some_iff.mp hp
      cases heq
      exact ⟨_, hro, hc⟩
    · rintro ⟨session, hro, hc⟩
      exact ⟨i, session, ⟨session, hro, Option.filter_eq_some_iff.mpr ⟨rfl, hc⟩⟩, rfl⟩
  | case24 operation answer => exact absurd rfl (hr operation answer)
  | _ => cases hf

/-- Every step of a call has one of the effects. -/
theorem advances_of_applies (hho : Holds hashToken db.rows task)
    (hta : db.tasks[t]? = some task) (hok : noOverlap db (.run t choice) = true)
    (h : db.Applies clash t task (step hashToken choice (task.view db.rows) task.frame)
      db') : Advances hashToken db t task db' := by
  unfold step at h
  split at h
  · next hfr =>
    rw [← hfr] at h
    cases h
    exact ⟨task, rfl, .same, hho⟩
  rename_i hre
  split at h
  · refine advances_of_rollback h rfl ?_
    cases hfr : task.frame with
    | returned operation answer => exact absurd hfr (hre operation answer)
    | _ => rfl
  simp only [noOverlap, hta] at hok
  cases hho with
  | idle hf =>
    rw [view_nil] at h
    exact advances_of_idle hf hre h
  | createCommit hn =>
    cases h
    refine ⟨_, rfl, ?_, .idle rfl ?_⟩
    · rw [view_inserts]
      exact .created rfl hn
    · rintro token ⟨⟩
      exact hn
  | @rotateRevoke token draw session now hh hl =>
    simp only [view_nil, execute, updateRevokedAt] at h
    split at h
    · exact advances_of_rollback h rfl rfl
    · rename_i i row hs
      have hrea : row = session := by
        dsimp only at hok
        rw [hs] at hok
        simp only [Option.all_some, Bool.and_eq_true, beq_iff_eq] at hok
        exact hok.1
      subst hrea
      obtain ⟨hro, -⟩ := of_selectOne_some hs
      cases h
      exact ⟨_, rfl, .marked rfl hro hs, .rotateInsert hro hh hl⟩
  | @rotateInsert token draw session now i hro hh hl =>
    simp only [execute] at h
    repeat' split at h
    iterate 2 exact advances_of_rollback h rfl rfl
    rename_i newToken hn
    cases h with
    | inserted =>
      exact ⟨_, rfl, .quiet rfl rfl rfl rfl (.inr ⟨rfl, rfl⟩), .rotateCommit hro hh hl hn⟩
    | refused => exact ⟨_, rfl, .quiet rfl rfl rfl rfl (.inl rfl), .abort⟩
  | @rotateCommit token draw session verified newToken now i hro hh hl hn =>
    cases h
    refine ⟨_, rfl, ?_, .idle rfl ?_⟩
    · rw [view_singleton]
      exact .rotated rfl ⟨_, mem_singleton_self _⟩ hro hh hl hn
    · rintro token' ⟨⟩
      exact hn
  | @revokeCommit token row now i hro =>
    cases h
    refine ⟨_, rfl, ?_, .idle rfl nofun⟩
    rw [view_singleton, map_nil, append_nil]
    exact .revoked rfl hro
  | @deleteRows scope todo deleted writes hw =>
    cases todo with
    | nil =>
      cases h
      refine ⟨_, rfl, .deleted rfl fun i session hv => ?_, .idle rfl nofun⟩
      rcases view_cases hv with ⟨old, ho, hve⟩ | ⟨-, r, hr, -⟩
      · have hno : ¬ (⟨.deleteRows scope [] deleted, writes, []⟩ : Task Session Frame).Wrote i := by
          intro hwro
          obtain ⟨v, hm, hwr⟩ := exists_version_of_wrote hwro
          cases hve.trans ((hwr _).trans (hw i v hm))
        rw [version_of_not_wrote hno] at hve
        rw [← hve] at ho
        exact ⟨ho, hno⟩
      · cases hr
    | cons i todo =>
      have hsk : ∀ {session : Session}, SessionAt db.rows i session →
          ¬ SessionAt ((⟨.deleteRows scope (i :: todo) deleted, writes, []⟩ :
            Task Session Frame).view db.rows) i session →
            (⟨.deleteRows scope (i :: todo) deleted, writes, []⟩ :
              Task Session Frame).Wrote i := by
        intro session hro hv
        by_contra hno
        apply hv
        rw [SessionAt, getElem?_view hro, version_of_not_wrote hno]
      simp only [execute] at h
      split at h
      · rename_i hg
        cases h
        refine ⟨_, rfl, .skipped rfl ?_, .deleteRows hw⟩
        intro session hro _
        apply hsk hro
        intro hv
        rw [hv] at hg
        cases hg
      · rename_i session ht
        split at h
        · cases h
          refine ⟨_, rfl, .removed rfl, .deleteRows ?_⟩
          intro j v hm
          rcases mem_cons.mp hm with heq | hm
          · cases heq
            rfl
          · exact hw j v hm
        · rename_i hc
          cases h
          refine ⟨_, rfl, .skipped rfl ?_, .deleteRows hw⟩
          intro session' hro hc'
          apply hsk hro
          intro hv
          rw [hv] at ht
          cases ht
          exact hc hc'
  | abort =>
    exact advances_of_rollback h rfl rfl

end Steps

/-! ## Keys -/

/-- No update changes a key. -/
theorem keepsKeys_step (hashToken : String → String) (choice rows f) :
    Database.KeepsKeys clash rows (step hashToken choice rows f) := by
  unfold step
  split
  · trivial
  split
  · trivial
  fun_cases execute hashToken choice rows f with
  | case9 | case16 =>
    unfold updateRevokedAt
    split
    · trivial
    · next hs => exact keepsKeys_update (of_selectOne_some hs).1 fun _ => rfl
  | case21 _ _ _ _ _ ht => exact ⟨_, Option.join_eq_some_iff.mp ht, nofun⟩
  | _ => trivial

end Uptrakit.Auth.Sessions
