import Mathlib.Data.List.Nodup
import Uptrakit.Concurrent.Indexed
import Uptrakit.Concurrent.Pool
import Uptrakit.Concurrent.Run

/-!
# Transactions that read committed data

A database is a list of rows that keep their place: a deleted row leaves a hole,
new rows come at the end.  Tasks work on it one SQL statement at a time.  What a
task has written and not yet committed belongs to the task: it sees its own writes
over the committed rows, the others do not see them, and a row it has written is
locked until it commits or rolls back.  A statement that writes a locked row waits,
which here means that the step does nothing, and is taken again later.

A statement sees the rows that are committed when it is executed.  This is the
isolation level `READ COMMITTED`, where a transaction holds no snapshot.
-/

namespace Uptrakit.Concurrent

open List Option

inductive Act (ρ φ : Type*)
  /-- A query, or a step that does not touch the database. -/
  | next (f : φ)
  /-- An insert, which is refused when a row with the same key exists. -/
  | insert (row : ρ) (f refused : φ)
  /-- The row at place `i` gets a new version; `none` deletes it. -/
  | write (i : Nat) (version : Option ρ) (f : φ)
  | commit (f : φ)
  | rollback (f : φ)

/-- Programs of transactions with operations `ε`, choices `ω` of the environment,
rows `ρ` and points `φ` in the code. -/
structure Transactions (ε ω ρ φ : Type*) where
  enter : ε → φ
  step : ω → List (Option ρ) → φ → Act ρ φ
  /-- The rows may not both exist: primary keys and unique indexes. -/
  clash : ρ → ρ → Bool

structure Task (ρ φ : Type*) where
  frame : φ
  writes : List (Nat × Option ρ) := []
  inserts : List ρ := []

structure Database (ρ φ : Type*) where
  rows : List (Option ρ)
  tasks : List (Task ρ φ) := []

variable {ε ω ρ φ α : Type*}

/-! ## Queries -/

def select (pick : ρ → Option α) (rows : List (Option ρ)) : List (Nat × α) :=
  rows.zipIdx.filterMap fun cell => (cell.1.bind pick).map (cell.2, ·)

def selectOne (pick : ρ → Option α) (rows : List (Option ρ)) : Option (Nat × α) :=
  (select pick rows).head?

def tableWhere (table : ρ → Option α) (p : α → Bool) (r : ρ) : Option α := (table r).filter p

variable {pick : ρ → Option α} {rows : List (Option ρ)} {i : Nat} {a : α}

theorem mem_select_iff :
    (i, a) ∈ select pick rows ↔ ∃ r, rows[i]? = some (some r) ∧ pick r = some a := by
  simp only [select, mem_filterMap, Prod.exists, map_eq_some_iff, Prod.mk.injEq,
    mem_zipIdx_iff_getElem?]
  constructor
  · rintro ⟨cell, j, hc, b, hb, rfl, rfl⟩
    obtain ⟨r, rfl, hr⟩ := bind_eq_some_iff.mp hb
    exact ⟨r, hc, hr⟩
  · rintro ⟨r, hc, hr⟩
    exact ⟨some r, i, hc, a, hr, rfl, rfl⟩

theorem of_selectOne_eq_some (h : selectOne pick rows = some (i, a)) :
    ∃ r, rows[i]? = some (some r) ∧ pick r = some a :=
  mem_select_iff.mp (mem_of_head? h)

theorem of_selectOne_eq_none (h : selectOne pick rows = none) {r} (hr : rows[i]? = some (some r)) :
    pick r = none := by
  cases hp : pick r with
  | none => rfl
  | some a =>
    have hm : (i, a) ∈ select pick rows := mem_select_iff.mpr ⟨r, hr, hp⟩
    rw [head?_eq_none_iff.mp h] at hm
    cases hm

theorem of_selectOne_tableWhere {table : ρ → Option α} {p : α → Bool}
    (h : selectOne (tableWhere table p) rows = some (i, a)) :
    ∃ r, rows[i]? = some (some r) ∧ table r = some a ∧ p a = true := by
  obtain ⟨r, hr, hpi⟩ := of_selectOne_eq_some h
  obtain ⟨ht, hp⟩ := filter_eq_some_iff.mp hpi
  exact ⟨r, hr, ht, hp⟩

theorem of_selectOne_some {rows : List (Option α)} {p}
    (h : selectOne (tableWhere some p) rows = some (i, a)) :
    rows[i]? = some (some a) ∧ p a = true := by
  obtain ⟨_, hr, ht, hp⟩ := of_selectOne_tableWhere h
  cases ht
  exact ⟨hr, hp⟩

/-! ## Tasks -/

namespace Task

/-- The task has an uncommitted version of the row. -/
def Wrote (task : Task ρ φ) (i : Nat) : Prop := ∃ version, (i, version) ∈ task.writes

def version (task : Task ρ φ) (i : Nat) (row : Option ρ) : Option ρ :=
  (task.writes.lookup i).getD row

def view (task : Task ρ φ) (rows : List (Option ρ)) : List (Option ρ) :=
  rows.mapIdx task.version ++ task.inserts.map some

variable {task : Task ρ φ}

theorem version_of_not_wrote (h : ¬ task.Wrote i) (row) : task.version i row = row := by
  have hl : task.writes.lookup i = none := by
    rw [lookup_eq_none_iff]
    rintro ⟨j, v⟩ hm
    rw [bne_iff_ne]
    rintro rfl
    exact h ⟨v, hm⟩
  rw [version, hl, getD_none]

theorem getElem?_view {row} (h : rows[i]? = some row) :
    (task.view rows)[i]? = some (task.version i row) := by
  have hlt : i < rows.length := (List.getElem?_eq_some_iff.mp h).1
  rw [view, getElem?_append_left (by simpa using hlt), getElem?_mapIdx, h, map_some]

theorem mapIdx_version_nil (f inserts) (rows : List (Option ρ)) :
    rows.mapIdx (⟨f, [], inserts⟩ : Task ρ φ).version = rows := by
  apply ext_getElem?
  intro i
  rw [getElem?_mapIdx]
  exact Option.map_id'

@[simp] theorem view_inserts (f inserts rows) :
    (⟨f, [], inserts⟩ : Task ρ φ).view rows = rows ++ inserts.map some := by
  rw [view, mapIdx_version_nil]

@[simp] theorem view_nil (f rows) : (⟨f, [], []⟩ : Task ρ φ).view rows = rows := by
  rw [view_inserts, map_nil, append_nil]

/-- A row that the task writes is replaced in its view. -/
theorem mapIdx_version_write (task : Task ρ φ) (f i v inserts) (rows : List (Option ρ)) :
    rows.mapIdx (⟨f, (i, v) :: task.writes, inserts⟩ : Task ρ φ).version =
      (rows.mapIdx task.version).set i v := by
  apply ext_getElem?
  intro k
  rw [getElem?_mapIdx, getElem?_set, getElem?_mapIdx]
  by_cases hik : i = k
  · subst hik
    by_cases hlt : i < rows.length
    · simp [hlt, version]
    · simp [hlt]
  · cases rows[k]? with
    | none => simp [hik]
    | some => simp [hik, version, lookup_cons, beq_eq_false_iff_ne.mpr (Ne.symm hik)]

@[simp] theorem view_singleton (f i v inserts rows) :
    (⟨f, [(i, v)], inserts⟩ : Task ρ φ).view rows = rows.set i v ++ inserts.map some := by
  rw [view, mapIdx_version_write ⟨f, [], inserts⟩, mapIdx_version_nil]

/-- The view after an update. -/
theorem view_write (task : Task ρ φ) (hlt : i < rows.length) (f : φ) (v : Option ρ) :
    (⟨f, (i, v) :: task.writes, task.inserts⟩ : Task ρ φ).view rows = (task.view rows).set i v := by
  rw [view, view, mapIdx_version_write, set_append_left _ _ (by simpa using hlt)]

theorem view_insert (task : Task ρ φ) (rows : List (Option ρ)) (f : φ) (r : ρ) :
    (⟨f, task.writes, task.inserts ++ [r]⟩ : Task ρ φ).view rows = task.view rows ++ [some r] := by
  rw [view, view, map_append, append_assoc]
  rfl

end Task

/-! ## The database -/

namespace Database

/-- Another task has an uncommitted version of the row. -/
def locked (db : Database ρ φ) (t i : Nat) : Bool :=
  db.tasks.zipIdx.any fun task => task.2 != t && task.1.writes.any (·.1 == i)

/-- Another task has an uncommitted row, or an uncommitted version of a row, with
the same key. -/
def contested (db : Database ρ φ) (clash : ρ → ρ → Bool) (t : Nat) (row : ρ) : Bool :=
  db.tasks.zipIdx.any fun task => task.2 != t &&
    (task.1.inserts.any (clash row) ||
      task.1.writes.any fun write => ((db.rows[write.1]?).join).any (clash row))

def setTask (db : Database ρ φ) (t : Nat) (task : Task ρ φ) : Database ρ φ :=
  { db with tasks := db.tasks.set t task }

/-- The uncommitted versions of a row all belong to one task. -/
def Exclusive (db : Database ρ φ) : Prop :=
  ∀ (t t' : Nat) (task task' : Task ρ φ) (i : Nat), db.tasks[t]? = some task →
    db.tasks[t']? = some task' → task.Wrote i → task'.Wrote i → t = t'

variable {t t' : Nat} {task task' : Task ρ φ} {db db' : Database ρ φ} {holds : Task ρ φ → Prop}
  {f : φ}

theorem getElem?_tasks_set {tasks : List (Task ρ φ)} (h : (tasks.set t task)[t']? = some task') :
    (t' = t ∧ task' = task) ∨ (t' ≠ t ∧ tasks[t']? = some task') := by
  rw [getElem?_set] at h
  split at h
  · rename_i heq
    split at h
    · exact .inl ⟨heq.symm, (some.inj h).symm⟩
    · cases h
  · rename_i hne
    exact .inr ⟨Ne.symm hne, h⟩

/-- A row that is not locked was not written by another task. -/
theorem not_wrote_of_not_locked (h : db.locked t i = false) (htask : db.tasks[t']? = some task)
    (hne : t' ≠ t) : ¬ task.Wrote i := by
  rintro ⟨_, hm⟩
  have hl : db.locked t i = true := by
    refine any_eq_true.mpr ⟨(task, t'), mem_zipIdx_iff_getElem?.mpr htask, ?_⟩
    rw [Bool.and_eq_true, bne_iff_ne]
    exact ⟨hne, any_eq_true.mpr ⟨_, hm, beq_self_eq_true _⟩⟩
  rw [h] at hl
  cases hl

theorem not_clash_of_not_contested {clash : ρ → ρ → Bool} {row}
    (h : db.contested clash t row = false) (htask : db.tasks[t']? = some task) (hne : t' ≠ t) {row'}
    (hr' : row' ∈ task.inserts) : clash row row' = false := by
  by_contra hcl
  have hc : db.contested clash t row = true := by
    refine any_eq_true.mpr ⟨(task, t'), mem_zipIdx_iff_getElem?.mpr htask, ?_⟩
    rw [Bool.and_eq_true, bne_iff_ne, Bool.or_eq_true]
    refine ⟨hne, .inl (any_eq_true.mpr ⟨row', hr', ?_⟩)⟩
    simpa using hcl
  rw [h] at hc
  cases hc

/-- Every task has the property. -/
def Each (holds : Task ρ φ → Prop) (db : Database ρ φ) : Prop :=
  ∀ (t : Nat) (task : Task ρ φ), db.tasks[t]? = some task → holds task

theorem each_init (rows) : Each holds ⟨rows, []⟩ := by
  intro t task htask
  cases htask

theorem exclusive_init (rows) : Exclusive (⟨rows, []⟩ : Database ρ φ) := by
  intro t t' task task' i htask
  cases htask

theorem Each.append (h : db.Each holds) (htask : holds task) :
    Each holds { db with tasks := db.tasks ++ [task] } := by
  intro t task' htask'
  rcases getElem?_concat_eq_some_iff.mp htask' with htask' | ⟨-, rfl⟩
  · exact h t task' htask'
  · exact htask

/-- A step of one task: what it holds afterwards, and that the others keep what they
hold. -/
theorem Each.set {holds' : Task ρ φ → Prop} (h : db.Each holds)
    (ht : db'.tasks = db.tasks.set t task') (how : holds' task')
    (hot : ∀ u other, u ≠ t → db.tasks[u]? = some other → holds other → holds' other) :
    db'.Each holds' := by
  intro u other ho
  rw [ht] at ho
  rcases getElem?_tasks_set ho with ⟨rfl, rfl⟩ | ⟨hne, hol⟩
  · exact how
  · exact hot u other hne hol (h u other hol)

/-- At most one task has the property. -/
def AtMostOne (P : Task ρ φ → Prop) (db : Database ρ φ) : Prop :=
  ∀ (t t' : Nat) (task task' : Task ρ φ), db.tasks[t]? = some task → db.tasks[t']? = some task' →
    P task → P task' → t = t'

section AtMostOne

variable {P : Task ρ φ → Prop} (h : db.AtMostOne P)

include h

theorem AtMostOne.append (hn : P task → ∀ (t : Nat) other, db.tasks[t]? = some other → ¬ P other) :
    AtMostOne P { db with tasks := db.tasks ++ [task] } := by
  intro t₁ t₂ task₁ task₂ h₁ h₂ hP₁ hP₂
  rcases getElem?_concat_eq_some_iff.mp h₁ with ho₁ | ⟨rfl, rfl⟩
  · rcases getElem?_concat_eq_some_iff.mp h₂ with ho₂ | ⟨rfl, rfl⟩
    · exact h _ _ _ _ ho₁ ho₂ hP₁ hP₂
    · exact absurd hP₁ (hn hP₂ _ _ ho₁)
  · rcases getElem?_concat_eq_some_iff.mp h₂ with ho₂ | ⟨rfl, -⟩
    · exact absurd hP₂ (hn hP₁ _ _ ho₂)
    · rfl

theorem AtMostOne.set (ht : db'.tasks = db.tasks.set t task')
    (hn : P task' → ∀ u other, u ≠ t → db.tasks[u]? = some other → ¬ P other) :
    db'.AtMostOne P := by
  intro t₁ t₂ task₁ task₂ h₁ h₂ hP₁ hP₂
  rw [ht] at h₁ h₂
  rcases getElem?_tasks_set h₁ with ⟨rfl, rfl⟩ | ⟨hne₁, ho₁⟩
  · rcases getElem?_tasks_set h₂ with ⟨rfl, rfl⟩ | ⟨hne₂, ho₂⟩
    · rfl
    · exact absurd hP₂ (hn hP₁ _ _ hne₂ ho₂)
  · rcases getElem?_tasks_set h₂ with ⟨rfl, rfl⟩ | ⟨-, ho₂⟩
    · exact absurd hP₁ (hn hP₂ _ _ hne₁ ho₁)
    · exact h _ _ _ _ ho₁ ho₂ hP₁ hP₂

end AtMostOne

def frames (db : Database ρ φ) : List φ := db.tasks.map Task.frame

theorem mem_frames :
    f ∈ db.frames ↔ ∃ (t : Nat) (task : Task ρ φ), db.tasks[t]? = some task ∧ task.frame = f := by
  rw [frames, List.mem_map]
  constructor
  · rintro ⟨task, hm, hf⟩
    obtain ⟨t, htask⟩ := mem_iff_getElem?.mp hm
    exact ⟨t, task, htask, hf⟩
  · rintro ⟨t, task, htask, hf⟩
    exact ⟨task, mem_of_getElem? htask, hf⟩

theorem frame_mem_frames (htask : db.tasks[t]? = some task) : task.frame ∈ db.frames :=
  mem_frames.mpr ⟨t, task, htask, rfl⟩

theorem mem_frames_of_set (ht : db'.tasks = db.tasks.set t task') (hf : f ∈ db'.frames) :
    f ∈ db.frames ∨ f = task'.frame := by
  rw [frames, ht, map_set] at hf
  exact mem_or_eq_of_mem_set hf

theorem countP_frames_le_one {p : φ → Bool} (htask : db.tasks[t]? = some task)
    (ht : db'.tasks = db.tasks.set t task') (ho : db.frames.countP p ≤ 1)
    (hf : p task'.frame = true → p task.frame = true ∨ ∀ f ∈ db.frames, ¬ p f = true) :
    db'.frames.countP p ≤ 1 := by
  have hfr : db.frames[t]? = some task.frame := by
    rw [frames, getElem?_map, htask, map_some]
  rw [frames, ht, map_set]
  exact countP_set_le_one hfr ho hf

/-- A frame stays, unless it is the one of the task that takes a step. -/
theorem mem_frames_set_of_mem (htask : db.tasks[t]? = some task)
    (ht : db'.tasks = db.tasks.set t task') (hf : f ∈ db.frames)
    (hk : task.frame = f → task'.frame = f) : f ∈ db'.frames := by
  obtain ⟨u, other, ho, rfl⟩ := mem_frames.mp hf
  apply mem_frames.mpr
  have hlt : t < db.tasks.length := (List.getElem?_eq_some_iff.mp htask).1
  by_cases hut : u = t
  · subst hut
    rw [htask] at ho
    cases ho
    exact ⟨u, task', by rw [ht, getElem?_set_self hlt], hk rfl⟩
  · exact ⟨u, other, by rw [ht, getElem?_set_ne (Ne.symm hut), ho], rfl⟩

section Frames

variable {tasks : List (Task ρ φ)} {t : Nat} {task : Task ρ φ} (task' : Task ρ φ)

variable (htask : tasks[t]? = some task)

include htask

theorem mem_frames_set {g} (hg : task.frame ≠ g) :
    g ∈ (tasks.set t task').map Task.frame ↔ g = task'.frame ∨ g ∈ tasks.map Task.frame := by
  have hlt : t < tasks.length := (List.getElem?_eq_some_iff.mp htask).1
  rw [map_set]
  constructor
  · intro h
    rcases mem_or_eq_of_mem_set h with h | h
    · exact .inr h
    · exact .inl h
  · rintro (rfl | h)
    · exact mem_set (by simpa using hlt) _
    · obtain ⟨j, hj⟩ := mem_iff_getElem?.mp h
      apply mem_iff_getElem?.mpr
      refine ⟨j, ?_⟩
      rw [getElem?_set_ne, hj]
      rintro rfl
      rw [getElem?_map, htask, map_some, some.injEq] at hj
      exact hg hj

theorem countP_frames_set_add (p : φ → Bool) :
    ((tasks.set t task').map Task.frame).countP p + (if p task.frame then 1 else 0) =
      (tasks.map Task.frame).countP p + if p task'.frame then 1 else 0 := by
  have hf : (tasks.map Task.frame)[t]? = some task.frame := by
    rw [getElem?_map, htask, map_some]
  rw [map_set]
  exact countP_set_add hf task'.frame p

variable {p : φ → Bool}

theorem countP_frames_set (hp : p task.frame = false) :
    ((tasks.set t task').map Task.frame).countP p =
      (tasks.map Task.frame).countP p + if p task'.frame then 1 else 0 := by
  have ha := countP_frames_set_add task' htask p
  rwa [hp] at ha

theorem countP_frames_set_of_eq (hp : p task'.frame = p task.frame) :
    ((tasks.set t task').map Task.frame).countP p = (tasks.map Task.frame).countP p := by
  have ha := countP_frames_set_add task' htask p
  rw [hp] at ha
  omega

end Frames

variable (clash : ρ → ρ → Bool) (db : Database ρ φ) (t : Nat) (task : Task ρ φ) in
/-- Everything that an act of `task`, the task number `t`, can do to the database. -/
inductive Applies : Act ρ φ → Database ρ φ → Prop
  | next {f : φ} : Applies (.next f) (db.setTask t { task with frame := f })
  | inserted {row f refused} (hfree : db.contested clash t row = false)
      (hunique : (task.view db.rows).any (·.any (clash row)) = false) :
      Applies (.insert row f refused)
        (db.setTask t { task with frame := f, inserts := task.inserts ++ [row] })
  | refused {row f refused} : Applies (.insert row f refused)
        (db.setTask t { task with frame := refused })
  | wrote {i version f} (hfree : db.locked t i = false) (hlt : i < db.rows.length) :
      Applies (.write i version f)
        (db.setTask t { task with frame := f, writes := (i, version) :: task.writes })
  | committed {f : φ} : Applies (.commit f)
        { rows := task.view db.rows, tasks := db.tasks.set t ⟨f, [], []⟩ }
  | rolledBack {f : φ} : Applies (.rollback f) (db.setTask t ⟨f, [], []⟩)

namespace Applies

variable {clash : ρ → ρ → Bool} {v : Option ρ}

theorem of_next (h : db.Applies clash t task (.next f) db') :
    db' = db.setTask t { task with frame := f } := by
  cases h
  rfl

theorem of_write (h : db.Applies clash t task (.write i v f) db') : db.locked t i = false ∧
    db' = db.setTask t { task with frame := f, writes := (i, v) :: task.writes } := by
  cases h with
  | wrote hf => exact ⟨hf, rfl⟩

theorem of_commit (h : db.Applies clash t task (.commit f) db') :
    db' = { rows := task.view db.rows, tasks := db.tasks.set t ⟨f, [], []⟩ } := by
  cases h
  rfl

theorem of_rollback (h : db.Applies clash t task (.rollback f) db') :
    db' = db.setTask t ⟨f, [], []⟩ := by
  cases h
  rfl

end Applies

end Database

namespace Transactions

variable (P : Transactions ε ω ρ φ)

def move (db : Database ρ φ) : Move ε ω → Database ρ φ
  | .start operation => { db with tasks := db.tasks ++ [⟨P.enter operation, [], []⟩] }
  | .run t choice =>
    match db.tasks[t]? with
    | none => db
    | some task =>
      match P.step choice (task.view db.rows) task.frame with
      | .next f => db.setTask t { task with frame := f }
      | .insert row f refused =>
        if db.contested P.clash t row then db
        else if (task.view db.rows).any (·.any (P.clash row)) then
          db.setTask t { task with frame := refused }
        else db.setTask t { task with frame := f, inserts := task.inserts ++ [row] }
      | .write i version f =>
        if db.locked t i || db.rows.length ≤ i then db
        else db.setTask t { task with frame := f, writes := (i, version) :: task.writes }
      | .commit f => { rows := task.view db.rows, tasks := db.tasks.set t ⟨f, [], []⟩ }
      | .rollback f => db.setTask t ⟨f, [], []⟩

def run (db : Database ρ φ) (moves : List (Move ε ω)) : Database ρ φ := moves.foldl P.move db

variable {P}

/-- A move of a task changes nothing, or applies the act of its next step. -/
theorem move_run_cases (db t choice) :
    P.move db (.run t choice) = db ∨ ∃ task, db.tasks[t]? = some task ∧
      db.Applies P.clash t task (P.step choice (task.view db.rows) task.frame)
        (P.move db (.run t choice)) := by
  cases htask : db.tasks[t]? with
  | none => exact .inl (by simp only [move, htask])
  | some task =>
    simp only [move, htask]
    refine Or.imp_right (fun h => ⟨task, rfl, h⟩) ?_
    generalize P.step choice (task.view db.rows) task.frame = act
    cases act with
    | next => exact .inr .next
    | insert =>
      dsimp only
      split
      · exact .inl rfl
      · rename_i hc
        split
        · exact .inr .refused
        · rename_i hcl
          exact .inr (.inserted (by simpa using hc) (by simpa using hcl))
    | write =>
      dsimp only
      split
      · exact .inl rfl
      · rename_i hl
        simp only [Bool.or_eq_true, decide_eq_true_eq, not_or, Bool.not_eq_true] at hl
        exact .inr (.wrote hl.1 (by omega))
    | commit => exact .inr .committed
    | rollback => exact .inr .rolledBack

variable {inv : Database ρ φ → Prop} {ok : Database ρ φ → Move ε ω → Prop} {db db' : Database ρ φ}
  {t : Nat} {task task' : Task ρ φ} {clash : ρ → ρ → Bool} {act : Act ρ φ} {row : Option ρ}

/-- The rule for runs whose moves meet a condition: starting an operation and every step keep the
invariant. -/
theorem run_invariant_of_meets
    (start : ∀ db operation, inv db → ok db (.start operation) → inv (P.move db (.start operation)))
    (step : ∀ db t choice task db', inv db → ok db (.run t choice) → db.tasks[t]? = some task →
      db.Applies P.clash t task (P.step choice (task.view db.rows) task.frame) db' → inv db')
    (hdb : inv db) {moves : List (Move ε ω)} (hmo : Meets P.move ok db moves) :
    inv (P.run db moves) := by
  refine foldl_invariant_of_meets ?_ hdb hmo
  intro db m hdb hm
  cases m with
  | start operation => exact start db operation hdb hm
  | run t choice =>
    rcases move_run_cases (P := P) db t choice with hs | ⟨task, htask, hst⟩
    · rwa [hs]
    · exact step db t choice task _ hdb hm htask hst

/-- The rule for all runs. -/
theorem run_invariant (start : ∀ db operation, inv db → inv (P.move db (.start operation)))
    (step : ∀ db t choice task db', inv db → db.tasks[t]? = some task →
      db.Applies P.clash t task (P.step choice (task.view db.rows) task.frame) db' → inv db')
    (hdb : inv db) (moves : List (Move ε ω)) : inv (P.run db moves) := by
  have hm : Meets P.move (fun _ _ => True) db moves :=
    meets_of_forall (fun _ _ => trivial) db moves
  refine run_invariant_of_meets ?_ ?_ hdb hm
  · intro db operation hdb _
    exact start db operation hdb
  · intro db t choice task db' hdb _
    exact step db t choice task db' hdb

/-! ## Calls that begin -/

theorem mem_frames_start {operation f} :
    f ∈ (P.move db (.start operation)).frames ↔ f ∈ db.frames ∨ f = P.enter operation := by
  simp [move, Database.frames]

theorem countP_frames_start {operation} {p : φ → Bool} (hn : p (P.enter operation) = false) :
    (P.move db (.start operation)).frames.countP p = db.frames.countP p := by
  simp [move, Database.frames, hn]

/-! ## Locks -/

variable (h : db.Exclusive)

include h

theorem atMostOne_wrote (i : Nat) : db.AtMostOne (·.Wrote i) :=
  fun t t' task task' => h t t' task task' i

theorem exclusive_start (operation) : (P.move db (.start operation)).Exclusive := by
  intro t t' task task' i
  refine (atMostOne_wrote h i).append ?_ t t' task task'
  rintro ⟨_, ⟨⟩⟩

/-- Replacing a task by one that has written no rows of the others keeps the locks
apart. -/
theorem exclusive_set (rows : List (Option ρ)) {task' : Task ρ φ} (ha : ∀ {t' other i},
      t' ≠ t → db.tasks[t']? = some other → other.Wrote i → ¬ task'.Wrote i) :
    Database.Exclusive { rows := rows, tasks := db.tasks.set t task' } := by
  intro t₁ t₂ task₁ task₂ i
  refine (atMostOne_wrote h i).set rfl ?_ t₁ t₂ task₁ task₂
  exact fun hw _ _ hne ho hw' => ha hne ho hw' hw

variable (htask : db.tasks[t]? = some task)

include htask

/-- No two tasks write one row, since a write waits for the lock. -/
theorem exclusive_applies (hac : db.Applies clash t task act db') : db'.Exclusive := by
  have ha : ∀ {t' other i}, t' ≠ t → db.tasks[t']? = some other → other.Wrote i →
      ¬ task.Wrote i := fun hne ho hw hw' => hne (h _ _ _ _ _ ho htask hw hw')
  cases hac with
  | next | refused | inserted => exact exclusive_set h db.rows ha
  | committed | rolledBack => exact exclusive_set h _ fun _ _ _ ⟨_, hv⟩ => by cases hv
  | wrote hf =>
    -- The row just written was not locked, the others are as before.
    refine exclusive_set h db.rows fun hne ho hw ⟨v, hv⟩ => ?_
    rcases mem_cons.mp hv with hv | hv
    · cases hv
      exact Database.not_wrote_of_not_locked hf ho hne hw
    · exact ha hne ho hw ⟨v, hv⟩

/-- A row that a task has written stays as it is committed until the task ends. -/
theorem getElem?_view_of_locked {t'} (htask' : db.tasks[t']? = some task') (hne : t' ≠ t)
    (hwr : task'.Wrote i) (hr : db.rows[i]? = some row) :
    (task.view db.rows)[i]? = some row := by
  rw [Task.getElem?_view hr, Task.version_of_not_wrote]
  intro hw
  exact hne (h _ _ _ _ i htask' htask hwr hw)

/-- What others do leaves a row that a task has written as it is committed. -/
theorem rows_of_locked {t'} (ha : db.Applies clash t task act db')
    (htask' : db.tasks[t']? = some task') (hne : t' ≠ t) (hw : task'.Wrote i)
    (hr : db.rows[i]? = some row) : db'.rows[i]? = some row := by
  cases ha with
  | committed => exact getElem?_view_of_locked h htask htask' hne hw hr
  | _ => exact hr

/-- What the tasks hold after a step of one of them, if the others need only the rows that they
have written to stay. -/
theorem holds_applies {holds : List (Option ρ) → Task ρ φ → Prop}
    (ha : db.Applies clash t task act db') (hh : db.Each (holds db.rows))
    (ht : db'.tasks = db.tasks.set t task') (how : holds db'.rows task')
    (hot : ∀ other, holds db.rows other → (∀ i row, other.Wrote i → db.rows[i]? = some row →
      db'.rows[i]? = some row) → holds db'.rows other) : db'.Each (holds db'.rows) := by
  refine hh.set ht how ?_
  intro u other hne ho ho'
  refine hot other ho' ?_
  intro i row hw hr
  exact rows_of_locked h htask ha ho hne hw hr

end Transactions

end Uptrakit.Concurrent
