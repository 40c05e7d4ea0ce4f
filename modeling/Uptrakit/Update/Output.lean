import Uptrakit.Update.Ownership

/-!
# Stored output

Of the output that the owner of an update appends, chunk by chunk, the front that fits the cap is
stored, and a notice if something was dropped.  That is so unless the cap is met exactly and an
empty chunk follows: nothing was dropped then, and the notice is stored (`output_honest_iff`).
-/

namespace Uptrakit.Update

open Text List

open String (utf8Len utf8Len_cons utf8Len_append)

/-! ## Prefixes that fit -/

/-- `kept` is the longest prefix of at most `n` bytes. -/
structure LongestPrefix (n : Nat) (l kept : List Char) : Prop where
  isPrefix : kept <+: l
  fits : utf8Len kept ≤ n
  longest : ∀ p, p <+: l → utf8Len p ≤ n → p <+: kept

variable {n : Nat} {l m : List Char}

theorem takeBytes_append_of_le (h : utf8Len l ≤ n) :
    takeBytes n (l ++ m) = l ++ takeBytes (n - utf8Len l) m := by
  induction l generalizing n with
  | nil => rfl
  | cons _ _ ih =>
    rw [utf8Len_cons] at h
    rw [cons_append, takeBytes, if_pos (by omega), ih (by omega), utf8Len_cons, Nat.sub_sub,
      Nat.add_comm, cons_append]

theorem takeBytes_of_le (h : utf8Len l ≤ n) : takeBytes n l = l := by
  simpa [takeBytes] using takeBytes_append_of_le (m := []) h

theorem takeBytes_append_of_ge (h : n ≤ utf8Len l) : takeBytes n (l ++ m) = takeBytes n l := by
  induction l generalizing n with
  | nil =>
    cases m with
    | nil => rfl
    | cons c =>
      have hp := c.utf8Size_pos
      rw [String.utf8Len_nil] at h
      exact if_neg (by omega)
  | cons _ _ ih =>
    rw [utf8Len_cons] at h
    rw [cons_append, takeBytes, takeBytes, ih (by omega)]

theorem longestPrefix_takeBytes (n l) : LongestPrefix n l (takeBytes n l) := by
  have hf : takeBytes n l <+: l ∧ utf8Len (takeBytes n l) ≤ n := by
    induction l generalizing n with
    | nil => exact ⟨⟨_, rfl⟩, Nat.zero_le n⟩
    | cons c _ ih =>
      rw [takeBytes]
      split
      · obtain ⟨ht, _⟩ := ih (n - c.utf8Size)
        rw [utf8Len_cons]
        exact ⟨cons_prefix_cons.mpr ⟨rfl, ht⟩, by omega⟩
      · exact ⟨⟨_, rfl⟩, Nat.zero_le n⟩
  refine ⟨hf.1, hf.2, ?_⟩
  rintro p ⟨q, rfl⟩ hp
  rw [takeBytes_append_of_le hp]
  exact prefix_append _ _

theorem toList_truncateToCharBoundary (output n) :
    (truncateToCharBoundary output n).toList = takeBytes n output.toList := by
  unfold truncateToCharBoundary
  split
  · rename_i h
    rw [len, ← String.ofList_toList (s := output), String.utf8ByteSize_ofList] at h
    rw [takeBytes_of_le h]
  · exact String.toList_ofList

theorem len_eq (s) : len s = utf8Len s.toList := by
  rw [len, ← String.utf8ByteSize_ofList, String.ofList_toList]

namespace Execution

/-! ## Appending -/

/-- A chunk of output, and the choices of the environment when it is appended. -/
structure Chunk where
  choice : Choice := {}
  stream : OutputStreamType := .stdout
  output : String

/-- A call of `append_update_output_if_owned`: both of its statements. -/
def append (e : Executor) (s : Store) (chunk : Chunk) : Store :=
  let (s, f) := execute chunk.choice s (.findOwned e chunk.stream chunk.output)
  (execute chunk.choice s f).1

def Store.text (s : Store) : List Char := s.lines.flatMap (·.output.toList)

def outputOf (chunks : List Chunk) : List Char := chunks.flatMap (·.output.toList)

def outputCap : Nat := updateOutputBytesCap.toNat

/-- The cap is met exactly, and an empty chunk is the last one. -/
def EndsEmptyAtCap (chunks : List Chunk) : Prop :=
  utf8Len (outputOf chunks) = outputCap ∧ ∃ c, chunks.getLast? = some c ∧ c.output = ""

/-- The row after the chunks; without chunks, a row of the executor that has no output yet. -/
structure Stored (e : Executor) (chunks : List Chunk) (s : Store) : Prop where
  owned : ownedInProgressCondition e.serviceId e.runtimeInstanceId s.row = true
  truncated : s.row.outputTruncated = true ↔
    outputCap < utf8Len (outputOf chunks) ∨ EndsEmptyAtCap chunks
  bytes : s.row.outputBytes = utf8Len (takeBytes outputCap (outputOf chunks))
  text : s.text = takeBytes outputCap (outputOf chunks) ++
    if s.row.outputTruncated then outputTruncationNotice.toList else []

variable {e : Executor} {chunks : List Chunk} {s : Store}

theorem append_eq (chunk) : append e s chunk =
    (execute chunk.choice s (appendOwned e chunk.stream chunk.output s.row)).1 := rfl

theorem append_of_truncated (h : s.row.outputTruncated = true) (chunk) : append e s chunk = s := by
  have hi : appendOwned e chunk.stream chunk.output s.row = .appendAnswered e .ignored := by
    rw [appendOwned, h, if_pos rfl, ite_self]
  rw [append_eq, hi]
  rfl

theorem outputOf_concat (chunks chunk) :
    outputOf (chunks ++ [chunk]) = outputOf chunks ++ chunk.output.toList := by
  simp [outputOf]

theorem truncated_concat_iff (chunks chunk) :
    outputCap < utf8Len (outputOf (chunks ++ [chunk])) ∨ EndsEmptyAtCap (chunks ++ [chunk]) ↔
      outputCap < utf8Len (outputOf chunks) + len chunk.output ∨
        utf8Len (outputOf chunks) = outputCap := by
  have he : chunk.output = "" ↔ len chunk.output = 0 := String.utf8ByteSize_eq_zero_iff.symm
  simp only [EndsEmptyAtCap, outputOf_concat, utf8Len_append, getLast?_concat,
    Option.some.injEq, exists_eq_left', he, ← len_eq]
  omega

theorem Stored.append (h : Stored e chunks s) (chunk) :
    Stored e (chunks ++ [chunk]) (append e s chunk) := by
  by_cases ht : s.row.outputTruncated = true
  · have hge : outputCap ≤ utf8Len (outputOf chunks) :=
      (h.truncated.mp ht).elim Nat.le_of_lt fun hen => hen.1.ge
    have hk := takeBytes_append_of_ge (m := chunk.output.toList) hge
    rw [← outputOf_concat] at hk
    rw [append_of_truncated ht]
    refine ⟨h.owned, iff_of_true ht ((truncated_concat_iff _ _).mpr ?_), ?_, ?_⟩
    · omega
    · rw [hk, h.bytes]
    · rw [hk, h.text]
  · have hn := ht
    rw [h.truncated, not_or, not_lt] at hn
    rw [Bool.not_eq_true] at ht
    have hk := takeBytes_of_le hn.1
    have hb : s.row.outputBytes = utf8Len (outputOf chunks) := by rw [h.bytes, hk]
    have hte : s.text = outputOf chunks := by
      rw [h.text, hk, ht, if_neg Bool.false_ne_true, append_nil]
    have hr :
        remainingBytes s.row = ((outputCap - utf8Len (outputOf chunks) : Nat) : Int) := by
      have hc : updateOutputBytesCap = outputCap := rfl
      rw [remainingBytes]
      split <;> omega
    have hg : (s.row.id == s.row.id && ownedInProgressCondition e.serviceId
        e.runtimeInstanceId s.row && s.row.outputTruncated == false) = true := by
      simp [h.owned, ht]
    rw [append_eq, appendOwned, h.owned, if_neg (by decide), ht, if_neg (by decide)]
    split
    · have hle : utf8Len (outputOf (chunks ++ [chunk])) ≤ outputCap := by
        rw [outputOf_concat, utf8Len_append, ← len_eq]
        omega
      rw [execute, conditional, appendLineUpdate, if_pos hg]
      refine ⟨h.owned, iff_of_false (by simp [ht]) ?_, ?_, ?_⟩
      · rw [truncated_concat_iff]
        omega
      · rw [takeBytes_of_le hle, outputOf_concat, utf8Len_append, ← len_eq, Int.natCast_add, ← hb]
      · rw [takeBytes_of_le hle, outputOf_concat, ← hte]
        simp [Store.text, ht]
    · have hs := takeBytes_append_of_le (m := chunk.output.toList) hn.1
      rw [← outputOf_concat, ← toList_truncateToCharBoundary] at hs
      rw [execute, hr, Int.toNat_natCast, conditional, markTruncatedUpdate, if_pos hg]
      refine ⟨h.owned, iff_of_true rfl ?_, ?_, ?_⟩
      · rw [truncated_concat_iff]
        omega
      · rw [hs, utf8Len_append, ← len_eq, Int.natCast_add, ← hb]
      · rw [hs]
        unfold truncatedLines
        split
        · next he => simpa [Store.text, he] using hte
        · simpa [Store.text] using hte

/-- The stored text is the longest prefix of the output that fits, with the notice if anything was
dropped; the bytes before the notice are counted, and truncated output stays as it is. -/
structure Honest (e : Executor) (chunks : List Chunk) (s : Store) : Prop where
  text : ∃ kept, LongestPrefix outputCap (outputOf chunks) kept ∧
    s.text = kept ++ (if kept = outputOf chunks then [] else outputTruncationNotice.toList) ∧
    s.row.outputBytes = utf8Len kept
  final : s.row.outputTruncated = true → ∀ chunk, append e s chunk = s

/-- The notice is stored though nothing was dropped. -/
theorem not_honest_of_endsEmptyAtCap (h : Stored e chunks s) (he : EndsEmptyAtCap chunks) :
    ¬Honest e chunks s := by
  rintro ⟨⟨kept, hk, ht, -⟩, -⟩
  have ha := hk.longest _ prefix_rfl he.1.le
  rw [hk.isPrefix.eq_of_length_le ha.length_le, if_pos rfl, h.text,
    takeBytes_of_le he.1.le, if_pos (h.truncated.mpr (.inr he)), append_right_inj] at ht
  revert ht
  decide

theorem stored_foldl (h : Stored e [] s) (chunks) :
    Stored e chunks (chunks.foldl (append e) s) := by
  induction chunks using reverseRecOn with
  | nil => exact h
  | append_singleton _ chunk ih =>
    rw [foldl_concat]
    exact ih.append chunk

/-- For all chunks of output that the owner of a row without output appends one at a time: what is
stored is honest if and only if it is not so that the cap is met exactly and the last chunk is
empty. -/
theorem output_honest_iff (h : Stored e [] s) (chunks : List Chunk) :
    Honest e chunks (chunks.foldl (append e) s) ↔ ¬EndsEmptyAtCap chunks := by
  have h := stored_foldl h chunks
  refine ⟨fun honest he => not_honest_of_endsEmptyAtCap h he honest, fun hn => ?_⟩
  refine ⟨⟨_, longestPrefix_takeBytes _ _, ?_, h.bytes⟩, append_of_truncated⟩
  have ht := h.truncated
  rw [or_iff_left hn] at ht
  rw [h.text, if_congr ht rfl rfl]
  by_cases hc : outputCap < utf8Len (outputOf chunks)
  · rw [if_pos hc, if_neg]
    intro heq
    have hf := (longestPrefix_takeBytes outputCap (outputOf chunks)).fits
    rw [heq] at hf
    omega
  · rw [if_neg hc, if_pos (takeBytes_of_le (by omega))]

def claimed : Store where
  row := { created.row with
    status := .inProgress
    executionOwnerServiceId := some 5
    executionOwnerInstanceId := some 1 }

theorem stored_claimed : Stored ⟨5, some 1⟩ [] claimed where
  owned := by decide
  truncated := iff_of_false (by decide) (by simp [EndsEmptyAtCap, outputOf])
  bytes := rfl
  text := rfl

def fullThenEmpty : List Chunk :=
  [{ output := String.ofList (List.replicate outputCap 'a') }, { output := "" }]

/-- A chunk of 52428800 bytes and an empty one: the notice is stored. -/
theorem output_dishonest : ¬Honest ⟨5, some 1⟩ fullThenEmpty
    (fullThenEmpty.foldl (append ⟨5, some 1⟩) claimed) := by
  have hl (n : Nat) : utf8Len (replicate n 'a') = n := by
    induction n with
    | zero => rfl
    | succ _ ih => rw [replicate_succ, utf8Len_cons, ih]; rfl
  refine not_honest_of_endsEmptyAtCap (stored_foldl stored_claimed _) ⟨?_, _, rfl, rfl⟩
  simp [outputOf, fullThenEmpty, hl]

theorem output_honest_iff_claimed :
    Honest ⟨5, some 1⟩ [{ output := "a" }]
      ([{ output := "a" }].foldl (append ⟨5, some 1⟩) claimed) :=
  (output_honest_iff stored_claimed _).mpr fun he => absurd he.1 (by decide)

end Execution

end Uptrakit.Update
