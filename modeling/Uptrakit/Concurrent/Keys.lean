import Uptrakit.Concurrent.ReadCommitted

/-!
# Keys

Rows with the same primary key, or the same value in a unique column, clash.  An
insert is refused when it clashes with a row that its transaction sees, and waits
for transactions that have written a row it would clash with.  So no two committed
rows ever clash, as long as updates leave the keys as they are.  A deleted row makes
room for another one with its keys.
-/

namespace Uptrakit.Concurrent

open List Option

variable {ε ω ρ φ α : Type*} {clash : ρ → ρ → Bool}

/-- The rows have the same keys: they clash with the same rows. -/
def SameKey (clash : ρ → ρ → Bool) (a b : ρ) : Prop := ∀ r, clash r a = clash r b

/-- No two rows clash. -/
def Unique (clash : ρ → ρ → Bool) (rows : List (Option ρ)) : Prop :=
  ∀ (i j : Nat) (a b : ρ), rows[i]? = some (some a) → rows[j]? = some (some b) →
    clash a b = true → i = j

theorem SameKey.refl (a) : SameKey clash a a := fun _ => rfl

theorem SameKey.trans {a b c} (hab : SameKey clash a b) (hbc : SameKey clash b c) :
    SameKey clash a c := fun r => (hab r).trans (hbc r)

variable {rows : List (Option ρ)}

theorem unique_of_pairwise (hs : ∀ a b, clash a b = clash b a)
    (h : rows.Pairwise fun x y => (x.any fun a => y.any (clash a)) = false) :
    Unique clash rows := by
  have hl : ∀ {i j : Nat} {a b : ρ}, rows[i]? = some (some a) → rows[j]? = some (some b) →
      i < j → clash a b = false := by
    intro i j a b ha hb hij
    obtain ⟨hi, ha⟩ := List.getElem?_eq_some_iff.mp ha
    obtain ⟨hj, hb⟩ := List.getElem?_eq_some_iff.mp hb
    have hf := pairwise_iff_getElem.mp h i j hi hj hij
    rwa [ha, hb] at hf
  intro i j a b ha hb hc
  rcases Nat.lt_trichotomy i j with hij | hij | hij
  · rw [hl ha hb hij] at hc
    cases hc
  · exact hij
  · rw [hs, hl hb ha hij] at hc
    cases hc

/-- A query finds a row that is the only one it can find. -/
theorem selectOne_eq_some {pick : ρ → Option α} {i r a} (hr : rows[i]? = some (some r))
    (hp : pick r = some a)
    (ho : ∀ (j : Nat) (r' : ρ) (b : α), rows[j]? = some (some r') → pick r' = some b → j = i) :
    selectOne pick rows = some (i, a) := by
  cases hs : selectOne pick rows with
  | none =>
    rw [of_selectOne_eq_none hs hr] at hp
    cases hp
  | some found =>
    obtain ⟨j, b⟩ := found
    obtain ⟨r', hr', hp'⟩ := of_selectOne_eq_some hs
    obtain rfl := ho j r' b hr' hp'
    rw [hr, some.injEq, some.injEq] at hr'
    rw [← hr', hp, some.injEq] at hp'
    rw [hp']

namespace Task

variable {task : Task ρ φ} {i : Nat}

/-- A task sees what it has written, whatever is committed. -/
theorem exists_version_of_wrote (h : task.Wrote i) :
    ∃ v, (i, v) ∈ task.writes ∧ ∀ row, task.version i row = v := by
  obtain ⟨v, hv⟩ := h
  cases hl : task.writes.lookup i with
  | none =>
    have hne := lookup_eq_none_iff.mp hl (i, v) hv
    rw [bne_self_eq_false] at hne
    cases hne
  | some written =>
    obtain ⟨_, _, hw, -⟩ := lookup_eq_some_iff.mp hl
    refine ⟨written, ?_, fun row => by rw [version, hl, getD_some]⟩
    rw [hw]
    exact mem_append_right _ mem_cons_self

/-- A row that the task has deleted is deleted for it whatever is committed. -/
theorem version_eq_none {r} (h : task.version i (some r) = none) (row) :
    task.version i row = none := by
  by_cases hw : task.Wrote i
  · obtain ⟨v, -, hv⟩ := exists_version_of_wrote hw
    rw [hv, ← hv, h]
  · rw [version_of_not_wrote hw] at h
    cases h

/-- A row that a task sees is its version of a committed row, or one it has inserted. -/
theorem view_cases {k row} (h : (task.view rows)[k]? = some row) :
    (∃ old, rows[k]? = some old ∧ row = task.version k old) ∨
      (rows.length ≤ k ∧ ∃ r, task.inserts[k - rows.length]? = some r ∧ row = some r) := by
  rw [view, getElem?_append] at h
  split at h
  · rw [getElem?_mapIdx, map_eq_some_iff] at h
    obtain ⟨old, ho, heq⟩ := h
    exact .inl ⟨old, ho, heq.symm⟩
  · rename_i hlt
    rw [getElem?_map, map_eq_some_iff] at h
    obtain ⟨r, hr, heq⟩ := h
    rw [length_mapIdx] at hlt hr
    exact .inr ⟨by omega, r, hr, heq.symm⟩

theorem getElem?_view_insert {m r} (h : task.inserts[m]? = some r) :
    (task.view rows)[rows.length + m]? = some (some r) := by
  rw [view, getElem?_append_right (by simp), length_mapIdx, Nat.add_sub_cancel_left,
    getElem?_map, h, map_some]

end Task

namespace Database

/-- The updates of a task keep the keys of the rows, and what it has inserted clashes
only with committed rows that it has deleted, and not with each other. -/
structure TaskKeyed (clash : ρ → ρ → Bool) (rows : List (Option ρ)) (task : Task ρ φ) : Prop where
  writes : ∀ i v, (i, v) ∈ task.writes →
    ∃ a, rows[i]? = some (some a) ∧ ∀ b, v = some b → SameKey clash a b
  fresh : ∀ row ∈ task.inserts, ∀ (i : Nat) (r : ρ), rows[i]? = some (some r) →
    clash row r = true → task.version i (some r) = none
  distinct : ∀ (m n : Nat) (a b : ρ), task.inserts[m]? = some a → task.inserts[n]? = some b →
    clash a b = true → m = n

/-- Keys are unique, and stay so whatever is committed next. -/
structure Keyed (clash : ρ → ρ → Bool) (db : Database ρ φ) : Prop where
  rows : Unique clash db.rows
  tasks : db.Each (TaskKeyed clash db.rows)
  apart : ∀ (t t' : Nat) (task task' : Task ρ φ), db.tasks[t]? = some task →
    db.tasks[t']? = some task' → t ≠ t' →
      ∀ row ∈ task.inserts, ∀ row' ∈ task'.inserts, clash row row' = false

/-- A write is to a row that is there, and an update keeps its keys. -/
def KeepsKeys (clash : ρ → ρ → Bool) (view : List (Option ρ)) : Act ρ φ → Prop
  | .write i v _ => ∃ a, view[i]? = some (some a) ∧ ∀ b, v = some b → SameKey clash a b
  | _ => True

variable {view : List (Option ρ)}

theorem keepsKeys_update {i : Nat} {a b : ρ} {f : φ} (hr : view[i]? = some (some a))
    (hk : SameKey clash a b) : KeepsKeys clash view (.write i (some b) f) := by
  refine ⟨a, hr, ?_⟩
  rintro b' ⟨⟩
  exact hk

theorem keyed_init (h : Unique clash rows) : Keyed clash (⟨rows, []⟩ : Database ρ φ) where
  rows := h
  tasks := by
    intro t task ht
    cases ht
  apart := by
    intro t t' task task' ht
    cases ht

theorem taskKeyed_nil (rows f) : TaskKeyed clash rows (⟨f, [], []⟩ : Task ρ φ) where
  writes := by
    intro i v hv
    cases hv
  fresh := by
    intro row hr
    cases hr
  distinct := by
    intro m n a b ha
    cases ha

section Tasks

variable {rows : List (Option ρ)} {task : Task ρ φ}

variable (h : TaskKeyed clash rows task)

include h

/-- The version of a committed row that a task sees has its keys. -/
theorem TaskKeyed.version_cases {k row b} (hr : rows[k]? = some row)
    (hb : task.version k row = some b) : ∃ a, row = some a ∧ SameKey clash a b := by
  by_cases hw : task.Wrote k
  · obtain ⟨v, hv, hve⟩ := Task.exists_version_of_wrote hw
    obtain ⟨a, ha, hk⟩ := h.writes k v hv
    rw [hr, some.injEq] at ha
    exact ⟨a, ha, hk b ((hve row).symm.trans hb)⟩
  · rw [Task.version_of_not_wrote hw] at hb
    exact ⟨b, hb, .refl b⟩

/-- A row that a task sees has the keys of the committed row in its place, or is new. -/
theorem TaskKeyed.view_cases {k b} (hk : (task.view rows)[k]? = some (some b)) :
    (∃ a, rows[k]? = some (some a) ∧ task.version k (some a) = some b ∧ SameKey clash a b) ∨
      (rows.length ≤ k ∧ task.inserts[k - rows.length]? = some b) := by
  rcases Task.view_cases hk with ⟨old, ho, hb⟩ | ⟨hle, r, hr, heq⟩
  · obtain ⟨a, rfl, hke⟩ := h.version_cases ho hb.symm
    exact .inl ⟨a, ho, hb.symm, hke⟩
  · cases heq
    exact .inr ⟨hle, hr⟩

omit h in
/-- A task sees no two rows of one key. -/
theorem TaskKeyed.unique_view (hs : ∀ a b, clash a b = clash b a) (hr : Unique clash rows)
    (h : TaskKeyed clash rows task) : Unique clash (task.view rows) := by
  -- A new row clashes with committed rows only where the task has deleted them.
  have hn : ∀ {i j : Nat} {a₀ a b : ρ}, rows[i]? = some (some a₀) →
      task.version i (some a₀) = some a → SameKey clash a₀ a → task.inserts[j]? = some b →
        clash b a ≠ true := by
    intro i j a₀ a b ha₀ hv hkey hb hc
    have hg := h.fresh b (mem_of_getElem? hb) i a₀ ha₀ ((hkey b).trans hc)
    rw [hv] at hg
    cases hg
  intro i j a b ha hb hc
  rcases h.view_cases ha with ⟨a₀, ha₀, hva, hke⟩ | ⟨_, hin⟩
  · rcases h.view_cases hb with ⟨b₀, hb₀, hvb, hk⟩ | ⟨hl, hi⟩
    · apply hr i j a₀ b₀ ha₀ hb₀
      rw [hk a₀, hs, hke b, hs, hc]
    · rw [hs] at hc
      exact absurd hc (hn ha₀ hva hke hi)
  · rcases h.view_cases hb with ⟨b₀, hb₀, hvb, hk⟩ | ⟨_, hi⟩
    · exact absurd hc (hn hb₀ hvb hk hin)
    · have := h.distinct _ _ a b hin hi hc
      omega

theorem TaskKeyed.frame (f : φ) : TaskKeyed clash rows { task with frame := f } :=
  ⟨h.writes, h.fresh, h.distinct⟩

theorem TaskKeyed.write {i v} (f : φ) (hlt : i < rows.length)
    (hk : KeepsKeys clash (task.view rows) (.write i v f)) :
    TaskKeyed clash rows { task with frame := f, writes := (i, v) :: task.writes } where
  writes := by
    intro j w hm
    rcases mem_cons.mp hm with heq | hm
    · cases heq
      obtain ⟨a, ha, hke⟩ := hk
      rcases h.view_cases ha with ⟨a₀, ha₀, -, hke₀⟩ | ⟨_, -⟩
      · exact ⟨a₀, ha₀, fun b hb => hke₀.trans (hke b hb)⟩
      · omega
    · exact h.writes j w hm
  fresh := by
    intro row hro k r hr hc
    have hg := h.fresh row hro k r hr hc
    by_cases hki : k = i
    · subst hki
      obtain ⟨a, ha, -⟩ := hk
      rw [Task.getElem?_view hr, hg] at ha
      cases ha
    · have hbe : (k == i) = false := beq_eq_false_iff_ne.mpr hki
      simpa [Task.version, lookup_cons, hbe] using hg
  distinct := h.distinct

omit h

/-- An insert that no visible row clashes with keeps the keys. -/
theorem TaskKeyed.insert (hs : ∀ a b, clash a b = clash b a) (h : TaskKeyed clash rows task)
    {row} (f : φ) (hu : (task.view rows).any (·.any (clash row)) = false) :
    TaskKeyed clash rows { task with frame := f, inserts := task.inserts ++ [row] } := by
  have hvi : ∀ (k : Nat) (r : ρ), (task.view rows)[k]? = some (some r) → clash row r = false := by
    intro k r hk
    simpa using any_eq_false.mp hu (some r) (mem_of_getElem? hk)
  have hco : ∀ (k : Nat) (r : ρ), rows[k]? = some (some r) → clash row r = true →
      task.version k (some r) = none := by
    intro k r hk hc
    have hro : (task.view rows)[k]? = some (task.version k (some r)) := Task.getElem?_view hk
    cases hv : task.version k (some r) with
    | none => rfl
    | some b =>
      obtain ⟨_, ⟨⟩, hke⟩ := h.version_cases hk hv
      rw [hke row, hvi k b (hv ▸ hro)] at hc
      cases hc
  have hi : ∀ (m : Nat) (r : ρ), task.inserts[m]? = some r → clash row r = false :=
    fun m r hr => hvi _ r (Task.getElem?_view_insert hr)
  refine ⟨h.writes, ?_, ?_⟩
  · intro r hr i r' hr'
    rcases mem_append.mp hr with hr | hr
    · exact h.fresh r hr i r' hr'
    · rw [mem_singleton.mp hr]
      exact hco i r' hr'
  · intro m n a b ha hb hc
    rcases getElem?_concat_eq_some_iff.mp ha with ho | ⟨rfl, rfl⟩
    · rcases getElem?_concat_eq_some_iff.mp hb with ho' | ⟨rfl, rfl⟩
      · exact h.distinct m n a b ho ho' hc
      · rw [hs, hi m a ho] at hc
        cases hc
    · rcases getElem?_concat_eq_some_iff.mp hb with ho' | ⟨rfl, rfl⟩
      · rw [hi n b ho'] at hc
        cases hc
      · rfl

end Tasks

section Steps

variable {db db' : Database ρ φ} {t : Nat} {task : Task ρ φ}

theorem Keyed.append (h : db.Keyed clash) (f : φ) :
    Keyed clash { db with tasks := db.tasks ++ [⟨f, [], []⟩] } where
  rows := h.rows
  tasks := h.tasks.append (taskKeyed_nil db.rows f)
  apart := by
    have hol : ∀ {u : Nat} {other : Task ρ φ} {row : ρ},
        (db.tasks ++ [⟨f, [], []⟩])[u]? = some other → row ∈ other.inserts →
          db.tasks[u]? = some other := by
      intro u other row ho hr
      rcases getElem?_concat_eq_some_iff.mp ho with ho | ⟨-, rfl⟩
      · exact ho
      · cases hr
    intro t t' task task' ht ht' hne row hr row' hr'
    exact h.apart t t' task task' (hol ht hr) (hol ht' hr') hne row hr row' hr'

/-- A step of one task, whose new state is `task'`. -/
theorem Keyed.set (hs : ∀ a b, clash a b = clash b a) (h : db.Keyed clash) {task'}
    (ht : db'.tasks = db.tasks.set t task') (hr : Unique clash db'.rows)
    (how : TaskKeyed clash db'.rows task')
    (hot : ∀ u other, u ≠ t → db.tasks[u]? = some other → TaskKeyed clash db.rows other →
    TaskKeyed clash db'.rows other) (ha : ∀ u other, u ≠ t → db.tasks[u]? = some other →
    ∀ row ∈ task'.inserts, ∀ row' ∈ other.inserts, clash row row' = false) : db'.Keyed clash where
  rows := hr
  tasks := h.tasks.set ht how hot
  apart := by
    intro u u' other other' ho ho' hne row hro row' hro'
    rw [ht] at ho ho'
    rcases getElem?_tasks_set ho with ⟨rfl, rfl⟩ | ⟨hut, hol⟩
    · rcases getElem?_tasks_set ho' with ⟨rfl, rfl⟩ | ⟨hut', hol'⟩
      · exact absurd rfl hne
      · exact ha u' other' hut' hol' row hro row' hro'
    · rcases getElem?_tasks_set ho' with ⟨rfl, rfl⟩ | ⟨_, hol'⟩
      · rw [hs]
        exact ha u other hut hol row' hro' row hro
      · exact h.apart u u' other other' hol hol' hne row hro row' hro'

/-- Keys stay unique. -/
theorem Keyed.applies (hs : ∀ a b, clash a b = clash b a) (h : db.Keyed clash)
    (he : db.Exclusive) {act} (ht : db.tasks[t]? = some task)
    (hke : KeepsKeys clash (task.view db.rows) act) (hac : db.Applies clash t task act db') :
    db'.Keyed clash := by
  have how := h.tasks t task ht
  have hol : ∀ u other, u ≠ t → db.tasks[u]? = some other →
      ∀ row ∈ task.inserts, ∀ row' ∈ other.inserts, clash row row' = false := by
    intro u other hne ho
    exact h.apart t u task other ht ho hne.symm
  cases hac with
  | next | refused => exact h.set hs rfl h.rows (how.frame _) (fun _ _ _ _ ho => ho) hol
  | wrote _ hlt =>
    exact h.set hs rfl h.rows (how.write _ hlt hke) (fun _ _ _ _ ho => ho) hol
  | rolledBack =>
    refine h.set hs rfl h.rows (taskKeyed_nil _ _) (fun _ _ _ _ ho => ho) ?_
    intro u other _ _ row hro
    cases hro
  | inserted hf hu =>
    refine h.set hs rfl h.rows (how.insert hs _ hu) (fun _ _ _ _ ho => ho) ?_
    intro u other hne ho row hro row' hro'
    rcases mem_append.mp hro with hro | hro
    · exact hol u other hne ho row hro row' hro'
    · rw [mem_singleton.mp hro]
      exact not_clash_of_not_contested hf ho hne hro'
  | committed =>
    refine h.set hs rfl (how.unique_view hs h.rows) (taskKeyed_nil _ _) ?_ ?_
    · intro u other hne ho hk
      refine ⟨?_, ?_, hk.distinct⟩
      · intro i v hv
        obtain ⟨a, ha, hkey⟩ := hk.writes i v hv
        have hvi := Transactions.getElem?_view_of_locked he ht ho hne ⟨v, hv⟩ ha
        exact ⟨a, hvi, hkey⟩
      · intro row hro i r hr hc
        rcases how.view_cases hr with ⟨a, ha, -, hkey⟩ | ⟨-, hi⟩
        · exact Task.version_eq_none (hk.fresh row hro i a ha ((hkey row).trans hc)) _
        · rw [hs, hol u other hne ho r (mem_of_getElem? hi) row hro] at hc
          cases hc
    · intro u other _ _ row hro
      cases hro

end Steps

end Database

end Uptrakit.Concurrent
