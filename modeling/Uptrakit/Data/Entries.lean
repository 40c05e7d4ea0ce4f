import Mathlib.Data.List.Nodup

/-!
# Entries of maps

A map as the list of its entries, filled by `entry(k).or_insert_with(d)`, and a map of
maps.  Every loop leaves each key once.  What a loop with a fresh key for every item leaves
in a map of maps is its items, in some order.
-/

namespace Uptrakit.Data

open List

variable {κ ι β : Type*} [DecidableEq κ] [DecidableEq ι]

/-- `f` is applied to the value of the key, which is `d` if there was none. -/
def upsert (k : κ) (d : β) (f : β → β) : List (κ × β) → List (κ × β)
  | [] => [(k, f d)]
  | (k', b) :: entries =>
    if k' = k then (k', f b) :: entries else (k', b) :: upsert k d f entries

/-- A new key comes last. -/
theorem upsert_of_notMem {k : κ} {entries : List (κ × β)} (h : ∀ b, (k, b) ∉ entries) (d : β)
    (f : β → β) : upsert k d f entries = entries ++ [(k, f d)] := by
  induction entries with
  | nil => rfl
  | cons entry _ ih =>
    obtain ⟨k', b⟩ := entry
    have hne : k' ≠ k := by
      rintro rfl
      exact h b mem_cons_self
    rw [upsert, if_neg hne, ih fun b hb => h b (mem_cons_of_mem _ hb), cons_append]

/-- No key has two entries, and `P` holds of every entry. -/
structure IsMap (P : κ → β → Prop) (entries : List (κ × β)) : Prop where
  nodup : (entries.map (·.1)).Nodup
  entry : ∀ e ∈ entries, P e.1 e.2

namespace IsMap

variable {P : κ → β → Prop} {k : κ} {d : β} {f : β → β} {entries : List (κ × β)}

omit [DecidableEq κ] in
theorem empty : IsMap P [] := ⟨nodup_nil, fun _ h => (not_mem_nil h).elim⟩

theorem mem_keys_upsert {k'} (h : k' ∈ (Data.upsert k d f entries).map (·.1)) :
    k' = k ∨ k' ∈ entries.map (·.1) := by
  induction entries with
  | nil => exact .inl (mem_singleton.1 h)
  | cons _ _ ih =>
    rw [Data.upsert] at h
    split at h
    · exact .inr h
    · rcases mem_cons.1 h with rfl | h
      · exact .inr mem_cons_self
      · exact (ih h).imp_right (mem_cons_of_mem _)

/-- An entry is made or changed. -/
theorem upsert (h : IsMap P entries) (hd : P k d) (hf : ∀ b, P k b → P k (f b)) :
    IsMap P (Data.upsert k d f entries) := by
  induction entries with
  | nil =>
    refine ⟨nodup_singleton k, ?_⟩
    intro e he
    rw [mem_singleton.1 he]
    exact hf d hd
  | cons e _ ih =>
    obtain ⟨_, b⟩ := e
    obtain ⟨hn, hno⟩ := nodup_cons.1 h.nodup
    obtain ⟨hb, hr⟩ := forall_mem_cons.1 h.entry
    rw [Data.upsert]
    split
    · next hk =>
        subst hk
        exact ⟨h.nodup, forall_mem_cons.2 ⟨hf b hb, hr⟩⟩
    · next hne =>
        have ht := ih ⟨hno, hr⟩
        refine ⟨nodup_cons.2 ⟨?_, ht.nodup⟩, forall_mem_cons.2 ⟨hb, ht.entry⟩⟩
        intro hm
        rcases mem_keys_upsert hm with heq | hm
        · exact hne heq
        · exact hn hm

end IsMap

def flatten (m : List (κ × List (ι × β))) : List (κ × ι × β) :=
  m.flatMap fun (k, entries) => entries.map fun entry => (k, entry)

omit [DecidableEq κ] [DecidableEq ι] in
@[simp] theorem flatten_cons (k : κ) (entries : List (ι × β)) (m : List (κ × List (ι × β))) :
    flatten ((k, entries) :: m) = entries.map (fun entry => (k, entry)) ++ flatten m := rfl

section Maps

variable {P : κ → ι → β → Prop} {m : List (κ × List (ι × β))}

omit [DecidableEq κ] [DecidableEq ι] in
theorem IsMap.of_mem_flatten (h : IsMap (fun k => IsMap (P k)) m) {e} (he : e ∈ flatten m) :
    P e.1 e.2.1 e.2.2 := by
  obtain ⟨⟨k, entries⟩, hen, he⟩ := mem_flatMap.1 he
  obtain ⟨entry, hent, rfl⟩ := mem_map.1 he
  exact (h.entry _ hen).entry entry hent

omit [DecidableEq κ] [DecidableEq ι] in
/-- No two entries agree on both keys. -/
theorem IsMap.nodup_flatten (h : IsMap (fun k => IsMap (P k)) m) :
    ((flatten m).map fun e => (e.1, e.2.1)).Nodup := by
  induction m with
  | nil => exact nodup_nil
  | cons entry _ ih =>
    obtain ⟨k, entries⟩ := entry
    obtain ⟨hn, hno⟩ := nodup_cons.1 h.nodup
    obtain ⟨hen, hr⟩ := forall_mem_cons.1 h.entry
    rw [flatten_cons, map_append, map_map]
    refine nodup_append'.2 ⟨?_, ih ⟨hno, hr⟩, ?_⟩
    · have hk : (entries.map ((fun e : κ × ι × β => (e.1, e.2.1)) ∘ fun entry => (k, entry))) =
          (entries.map (·.1)).map (Prod.mk k) := by
        rw [map_map]
        rfl
      rw [hk]
      exact hen.nodup.map (fun _ _ heq => (Prod.mk.inj heq).2)
    · -- The other maps are under other keys.
      intro key hke hke'
      obtain ⟨_, -, rfl⟩ := mem_map.1 hke
      obtain ⟨e, he, heq⟩ := mem_map.1 hke'
      obtain ⟨entry', hent', he⟩ := mem_flatMap.1 he
      obtain ⟨_, -, rfl⟩ := mem_map.1 he
      refine hn (mem_map.2 ⟨entry', hent', ?_⟩)
      exact (Prod.mk.inj heq).1

/-- A loop that makes or changes one entry for each item. -/
theorem IsMap.foldl_upsert {α : Type*} (key : α → κ × ι) (d : α → β) (f : α → β → β)
    (hd : ∀ a, P (key a).1 (key a).2 (d a))
    (hf : ∀ a b, P (key a).1 (key a).2 b → P (key a).1 (key a).2 (f a b)) (items : List α) :
    IsMap (fun k => IsMap (P k)) (items.foldl
      (fun m a => Data.upsert (key a).1 [] (Data.upsert (key a).2 (d a) (f a)) m) []) := by
  refine foldlRecOn items _ IsMap.empty ?_
  intro m hm a _
  refine hm.upsert IsMap.empty ?_
  intro entries he
  exact he.upsert (hd a) (hf a)

end Maps

variable {m : List (κ × List (ι × β))}

/-- An entry with new keys is added to the others. -/
theorem flatten_upsert_perm {k : κ} {i : ι} (h : ∀ b, (k, i, b) ∉ flatten m) (d : β) (f : β → β) :
    (flatten (upsert k [] (upsert i d f) m)).Perm ((k, i, f d) :: flatten m) := by
  induction m with
  | nil => exact .refl _
  | cons entry _ ih =>
    obtain ⟨_, entries⟩ := entry
    simp only [flatten_cons, mem_append, not_or] at h
    rw [upsert]
    split
    · next hk =>
        subst hk
        have hn : ∀ b, (i, b) ∉ entries := by
          intro b hb
          exact (h b).1 (mem_map_of_mem hb)
        rw [upsert_of_notMem hn, flatten_cons, map_append, append_assoc]
        exact perm_middle
    · exact ((ih fun b => (h b).2).append_left _).trans perm_middle

/-- A loop that enters every item under keys of its own. -/
theorem flatten_foldl_upsert_perm {α : Type*} (key : α → κ × ι) (d : α → β) (f : α → β → β)
    {items : List α} (hne : ∀ a ∈ items, ∀ b, ((key a).1, (key a).2, b) ∉ flatten m)
    (hn : (items.map key).Nodup) :
    (flatten (items.foldl (fun m a => upsert (key a).1 [] (upsert (key a).2 (d a) (f a)) m) m)).Perm
      (flatten m ++ items.map fun a => ((key a).1, (key a).2, f a (d a))) := by
  induction items generalizing m with
  | nil =>
    rw [map_nil, append_nil]
    exact .refl _
  | cons a items ih =>
    rw [map_cons, nodup_cons] at hn
    have hp := flatten_upsert_perm (hne a mem_cons_self) (d a) (f a)
    have hne' : ∀ a' ∈ items, ∀ b, ((key a').1, (key a').2, b) ∉
        flatten (upsert (key a).1 [] (upsert (key a).2 (d a) (f a)) m) := by
      intro a' ha' b hb
      rcases mem_cons.1 (hp.mem_iff.1 hb) with heq | hm
      · simp only [Prod.mk.injEq] at heq
        refine hn.1 (mem_map.2 ⟨a', ha', ?_⟩)
        exact Prod.ext heq.1 heq.2.1
      · exact hne a' (mem_cons_of_mem _ ha') b hm
    refine (ih hne' hn.2).trans ?_
    refine (hp.append_right _).trans ?_
    exact perm_middle.symm

end Uptrakit.Data
