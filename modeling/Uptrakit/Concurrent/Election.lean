import Mathlib.Data.List.Basic

/-!
# Elections

A register takes candidates one after the other, and a candidate that replaces the one it
holds takes its place.  If a winner replaces all others and is replaced by none, the
register ends with it in whatever order the candidates come.
-/

namespace Uptrakit.Concurrent

open List

variable {α : Type*} (replaces : α → α → Prop) [DecidableRel replaces]

def elect (current : α) (candidates : List α) : α :=
  candidates.foldl (fun current c => if replaces c current then c else current) current

variable {replaces} {W R : α → Prop}

variable {current : α} {candidates : List α}

/-- What holds of the first holder, and of every candidate that replaces one of which it holds,
holds of the one elected. -/
theorem elect_induction (hcu : R current)
    (hr : ∀ x, R x → ∀ c ∈ candidates, replaces c x → R c) :
    R (elect replaces current candidates) := by
  refine List.foldlRecOn candidates _ hcu ?_
  intro x hx c hc
  split
  · next h => exact hr x hx c hc h
  · exact hx

/-- If all winners `W` among those that run, `R`, replace all others and are replaced by none of
them, and one of them runs, the register ends with a winner. -/
theorem elect_wins (hwin : ∀ w c, R w → W w → R c → ¬ W c → replaces w c)
    (hk : ∀ c w, R c → ¬ W c → R w → W w → ¬ replaces c w) (hcu : R current)
    (hca : ∀ c ∈ candidates, R c) (hwi : W current ∨ ∃ w ∈ candidates, W w) :
    W (elect replaces current candidates) := by
  induction candidates generalizing current with
  | nil =>
    rcases hwi with hwin | ⟨w, hw, -⟩
    · exact hwin
    · cases hw
  | cons c candidates ih =>
    have hc : R c := hca c mem_cons_self
    have hr : ∀ c ∈ candidates, R c := fun c hc =>
      hca c (mem_cons_of_mem _ hc)
    have hn : W current ∨ W c → W (if replaces c current then c else current) := by
      intro h
      split <;> by_contra hl
      · next hc' => exact hk c current hc hl hcu (h.resolve_right hl) hc'
      · next hc' => exact hc' (hwin c current hc (h.resolve_left hl) hcu hl)
    refine ih (by dsimp only; split <;> assumption) hr ?_
    rcases hwi with hw | ⟨w, hw, hww⟩
    · exact .inl (hn (.inl hw))
    · rcases mem_cons.1 hw with rfl | hw
      · exact .inl (hn (.inr hww))
      · exact .inr ⟨w, hw, hww⟩

end Uptrakit.Concurrent
