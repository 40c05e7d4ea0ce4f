import Mathlib.Data.Set.List
import Uptrakit.Agent.Execution
import Uptrakit.Text.Lossy

/-!
# Output of interactive commands

`drive_interactive_session` (`crates/shared/command/src/interactive.rs`) decodes each chunk that
is read from the terminal by itself.  The output is the text of the stream exactly when no chunk
ends within a character (`session_output_iff`); a character that is cut is replaced, piece by piece
(`character_cut`).
-/

namespace Uptrakit.Agent

open List Text

structure SessionOutput where
  accumulated : String := ""
  truncated : Bool := false
  /-- What has been sent. -/
  messages : List String := []

/-- A chunk is read.  The limit and the marker are those of `append_bounded`. -/
def SessionOutput.receive (o : SessionOutput) (data : List UInt8) : SessionOutput :=
  let text := fromUtf8Lossy data
  let o := { o with messages := o.messages ++ [text] }
  if o.truncated then o
  else if len o.accumulated + len text > maxOutputBytes then
    { o with accumulated := o.accumulated ++ truncationMarker, truncated := true }
  else { o with accumulated := o.accumulated ++ text }

theorem len_ofList (text : List Char) : len (.ofList text) = (encode text).length := by
  induction text with
  | nil => rfl
  | cons c _ ih => simp_all [len, encode]

theorem foldl_receive {pieces : List (List Char)} {accumulated messages}
    (hl : len accumulated + (encode pieces.flatten).length ≤ maxOutputBytes) :
    (pieces.map encode).foldl SessionOutput.receive ⟨accumulated, false, messages⟩ =
      ⟨accumulated ++ .ofList pieces.flatten, false, messages ++ pieces.map .ofList⟩ := by
  induction pieces generalizing accumulated messages with
  | nil => simp
  | cons piece pieces ih =>
    rw [flatten_cons, encode, flatMap_append, length_append] at hl
    have hr : SessionOutput.receive ⟨accumulated, false, messages⟩ (encode piece) =
        ⟨accumulated ++ .ofList piece, false, messages ++ [.ofList piece]⟩ := by
      simp only [SessionOutput.receive, fromUtf8Lossy, decodeFrom_encode, len_ofList]
      rw [if_neg Bool.false_ne_true, if_neg]
      exact Nat.not_lt.2 (le_trans (by simp [encode]) hl)
    rw [map_cons, foldl_cons, hr, ih]
    · simp [String.append_assoc]
    · rwa [len, String.utf8ByteSize_append, ← len, ← len, len_ofList, Nat.add_assoc]

theorem messages_receive (chunks : List (List UInt8)) (o : SessionOutput) :
    (chunks.foldl SessionOutput.receive o).messages =
      o.messages ++ chunks.map fromUtf8Lossy := by
  induction chunks generalizing o with
  | nil => simp
  | cons chunk chunks ih =>
    have hr : (o.receive chunk).messages = o.messages ++ [fromUtf8Lossy chunk] := by
      rw [SessionOutput.receive]
      split_ifs <;> rfl
    rw [foldl_cons, ih, hr, map_cons, append_assoc, singleton_append]

/-- For every stream below the limit and every way to cut it, the output and the messages are the
text of the stream exactly when it is cut between characters. -/
theorem session_output_iff (text : List Char) (chunks : List (List UInt8))
    (hs : chunks.flatten = encode text) (hl : (encode text).length < maxOutputBytes) :
    ((chunks.foldl SessionOutput.receive {}).accumulated = .ofList text ∧
      (chunks.foldl SessionOutput.receive {}).messages.flatMap (·.toList) = text) ↔
      ∀ chunk ∈ chunks, ∃ piece, encode piece = chunk := by
  constructor
  · rintro ⟨-, hm⟩
    apply exists_encode_of_decode hs
    simpa [messages_receive, flatMap_map, fromUtf8Lossy] using hm
  · intro hc
    have hr : chunks ∈ Set.range (map encode) := by rwa [Set.range_list_map]
    obtain ⟨pieces, rfl⟩ := hr
    have hp : pieces.flatten = text := by
      rw [← decodeFrom_encode text, ← hs, ← encode_flatten, decodeFrom_encode]
    subst hp
    rw [foldl_receive (by simpa [len] using hl.le)]
    simp [flatMap]

/-- The two bytes of a character, read one by one. -/
theorem character_cut : [[0xC3], [0xA9]].flatten = encode ['é'] ∧
    ([[0xC3], [0xA9]].foldl SessionOutput.receive {}).accumulated = "��" := by
  decide +kernel

theorem session_output_iff_whole :
    ([[0xC3, 0xA9], [0x21]].foldl SessionOutput.receive {}).accumulated = .ofList ['é', '!'] :=
  ((session_output_iff ['é', '!'] _ (by decide +kernel) (by decide +kernel)).2
    (by simp; exact ⟨⟨['é'], by decide +kernel⟩, ['!'], by decide +kernel⟩)).1

end Uptrakit.Agent
