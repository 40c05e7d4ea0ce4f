import Mathlib.Algebra.Order.BigOperators.Group.List
import Mathlib.Data.String.Basic

/-!
# Decoding with replacement

`String::from_utf8_lossy` of the standard library of the modelled programs.  The text of valid
bytes is read back (`decodeFrom_encode`); a part that is no character is replaced.
-/

namespace Uptrakit.Text

open List

def encode (text : List Char) : List UInt8 := text.flatMap String.utf8EncodeChar

def isContinuation (b : UInt8) : Bool := 0x80 ≤ b && b ≤ 0xBF

/-- The second byte may follow the first one of a character of three or four bytes. -/
def mayFollow (a b : UInt8) : Bool :=
  0xE0 ≤ a && a ≤ 0xF4 && isContinuation b &&
    !(a == 0xE0 && b < 0xA0 || a == 0xED && 0xA0 ≤ b || a == 0xF0 && b < 0x90 ||
      a == 0xF4 && 0x90 ≤ b)

/-- How many bytes are replaced, where no character starts. -/
def brokenLen : List UInt8 → Nat
  | a :: b :: rest =>
    if mayFollow a b then if 0xF0 ≤ a && rest.head?.any isContinuation then 3 else 2 else 1
  | _ => 1

/-- Decode after the bytes that are skipped. -/
def decodeFrom : Nat → List UInt8 → List Char
  | _, [] => []
  | skip + 1, _ :: bytes => decodeFrom skip bytes
  | 0, b :: bytes =>
    match (b :: bytes).toByteArray.utf8DecodeChar? 0 with
    | some c => c :: decodeFrom (c.utf8Size - 1) bytes
    | none => '�' :: decodeFrom (brokenLen (b :: bytes) - 1) bytes

/-- `String::from_utf8_lossy`. -/
def fromUtf8Lossy (bytes : List UInt8) : String := .ofList (decodeFrom 0 bytes)

theorem encode_flatten (pieces : List (List Char)) :
    encode pieces.flatten = (pieces.map encode).flatten := by
  induction pieces with
  | nil => rfl
  | cons _ _ ih => rw [flatten_cons, map_cons, flatten_cons, ← ih, encode, flatMap_append]; rfl

theorem decodeFrom_length (bytes rest : List UInt8) :
    decodeFrom bytes.length (bytes ++ rest) = decodeFrom 0 rest := by
  induction bytes with
  | nil => rfl
  | cons _ _ ih => exact ih

theorem decodeFrom_encode (text : List Char) : decodeFrom 0 (encode text) = text := by
  induction text with
  | nil => rfl
  | cons c text ih =>
    obtain ⟨b, bytes, hb⟩ := exists_cons_of_ne_nil (String.utf8EncodeChar_ne_nil (c := c))
    have hl : bytes.length = c.utf8Size - 1 := by
      rw [← String.length_utf8EncodeChar, hb]
      rfl
    have hc : (b :: (bytes ++ encode text)).toByteArray.utf8DecodeChar? 0 = some c := by
      rw [← cons_append, ← hb, toByteArray_append]
      exact ByteArray.utf8DecodeChar?_utf8EncodeChar_append
    rw [encode, flatMap_cons, hb, cons_append, decodeFrom]
    rw [show text.flatMap String.utf8EncodeChar = encode text from rfl, hc]
    simp only [← hl, decodeFrom_length, ih]

/-! ## Cut characters

A text has one first byte for each character.  Decoding makes at least one character out of each
first byte, and another one out of a byte that follows no first byte. -/

def firstBytes (bytes : List UInt8) : Nat := bytes.countP fun b => decide b.IsUTF8FirstByte

theorem firstBytes_append (a b : List UInt8) :
    firstBytes (a ++ b) = firstBytes a + firstBytes b := countP_append

theorem firstBytes_cons_le (b : UInt8) (bytes : List UInt8) :
    firstBytes (b :: bytes) ≤ firstBytes bytes + 1 := by
  rw [firstBytes, countP_cons, ← firstBytes]
  split <;> omega

theorem utf8EncodeChar_cons (c : Char) : ∃ b bytes, String.utf8EncodeChar c = b :: bytes ∧
    b.IsUTF8FirstByte ∧ ∀ d ∈ bytes, ¬ d.IsUTF8FirstByte := by
  obtain ⟨b, bytes, hb⟩ := exists_cons_of_ne_nil (String.utf8EncodeChar_ne_nil (c := c))
  have hf (i : Nat) (hi : i < (b :: bytes).length) :
      (b :: bytes)[i].IsUTF8FirstByte ↔ i = 0 := by
    simp only [← hb]
    exact UInt8.isUTF8FirstByte_getElem_utf8EncodeChar
  refine ⟨b, bytes, hb, (hf 0 (by simp)).2 rfl, fun d hd => ?_⟩
  obtain ⟨i, hi, rfl⟩ := getElem_of_mem hd
  exact fun h => absurd ((hf (i + 1) (by simpa using hi)).1 h) (Nat.succ_ne_zero i)

theorem firstBytes_encode (text : List Char) : firstBytes (encode text) = text.length := by
  induction text with
  | nil => rfl
  | cons c text ih =>
    obtain ⟨b, bytes, hby, hb, hr⟩ := utf8EncodeChar_cons c
    have hz : firstBytes bytes = 0 := countP_eq_zero.2 (by simpa using hr)
    rw [encode, flatMap_cons, ← encode, firstBytes_append, ih, hby, firstBytes, countP_cons,
      ← firstBytes, hz]
    simp [hb, Nat.add_comm]

/-- A text that is cut before a first byte is cut between characters. -/
theorem exists_encode_of_append {a b : List UInt8} {text : List Char} (h : a ++ b = encode text)
    (hb : ∀ first ∈ b.head?, first.IsUTF8FirstByte) :
    ∃ front back, a = encode front ∧ b = encode back := by
  induction text generalizing a with
  | nil =>
    obtain ⟨rfl, rfl⟩ := append_eq_nil_iff.1 h
    exact ⟨[], [], rfl, rfl⟩
  | cons c text ih =>
    obtain rfl | ⟨x, a, rfl⟩ : a = [] ∨ ∃ x a', a = x :: a' := by cases a <;> simp
    · exact ⟨[], c :: text, rfl, h⟩
    obtain ⟨d, bytes, hby, -, hr⟩ := utf8EncodeChar_cons c
    rw [encode, flatMap_cons, ← encode, hby, cons_append, cons_append, cons.injEq] at h
    obtain ⟨rfl, h⟩ := h
    obtain ⟨a', rfl, ht⟩ | ⟨rest, hs, rfl⟩ := append_eq_append_iff.1 h.symm
    · obtain ⟨front, back, rfl, rfl⟩ := ih ht.symm
      exact ⟨c :: front, back, by simp [encode, hby], rfl⟩
    · -- The cut is within the character, or right after it.
      cases rest with
      | nil => exact ⟨[c], text, by simp_all [encode], rfl⟩
      | cons first rest =>
        exact absurd (hb first rfl) (hr first (by simp [hs]))

theorem exists_encode_of_flatten {chunks : List (List UInt8)} {text : List Char}
    (h : chunks.flatten = encode text)
    (hch : ∀ chunk ∈ chunks, ∀ first ∈ chunk.head?, first.IsUTF8FirstByte) :
    ∀ chunk ∈ chunks, ∃ piece, encode piece = chunk := by
  induction chunks generalizing text with
  | nil => nofun
  | cons chunk chunks ih =>
    have hn : ∀ first ∈ chunks.flatten.head?, first.IsUTF8FirstByte := by
      intro first hf
      rw [head?_flatten] at hf
      obtain ⟨next, hn, hf⟩ := exists_of_findSome?_eq_some hf
      exact hch next (mem_cons_of_mem _ hn) first hf
    obtain ⟨front, back, rfl, hb⟩ := exists_encode_of_append h hn
    exact forall_mem_cons.2 ⟨⟨front, rfl⟩, ih hb fun c hc => hch c (mem_cons_of_mem _ hc)⟩

theorem not_isUTF8FirstByte_of_isContinuation {b : UInt8} (h : isContinuation b) :
    ¬ b.IsUTF8FirstByte := by
  obtain ⟨b⟩ := b
  revert b
  decide +kernel

theorem skipped_of_decoded {b : UInt8} {bytes : List UInt8} {c : Char}
    (h : (b :: bytes).toByteArray.utf8DecodeChar? 0 = some c) :
    b.IsUTF8FirstByte ∧ ∀ d ∈ bytes.take (c.utf8Size - 1), ¬ d.IsUTF8FirstByte := by
  obtain ⟨rest, hr⟩ := ByteArray.exists_of_utf8DecodeChar?_eq_some h
  obtain ⟨first, tail, hb, hf, ht⟩ := utf8EncodeChar_cons c
  have hl : c.utf8Size - 1 = tail.length := by
    rw [← String.length_utf8EncodeChar, hb, length_cons, Nat.add_sub_cancel]
  have hs : b :: bytes = first :: (tail ++ rest.data.toList) := by
    simpa [hb] using congrArg (·.data.toList) hr
  obtain ⟨rfl, rfl⟩ := cons_eq_cons.1 hs
  rw [hl, take_left]
  exact ⟨hf, ht⟩

theorem skipped_of_broken (b : UInt8) (bytes : List UInt8) :
    ∀ d ∈ bytes.take (brokenLen (b :: bytes) - 1), ¬ d.IsUTF8FirstByte := by
  intro d hd
  apply not_isUTF8FirstByte_of_isContinuation
  obtain _ | ⟨second, rest⟩ := bytes
  · simp at hd
  rw [brokenLen] at hd
  have hs (h : mayFollow b second) : isContinuation second := by simp_all [mayFollow]
  split_ifs at hd with hf ht
  · obtain _ | ⟨third, rest⟩ := rest
    · simp at ht
    obtain rfl | rfl : d = second ∨ d = third := by simpa using hd
    · exact hs hf
    · simp_all
  · simp_all
  · simp at hd

/-- Decoding makes a character out of each first byte. -/
theorem firstBytes_le_length_decodeFrom (bytes : List UInt8) (skip : Nat)
    (hs : ∀ b ∈ bytes.take skip, ¬ b.IsUTF8FirstByte) :
    firstBytes bytes ≤ (decodeFrom skip bytes).length := by
  fun_induction decodeFrom skip bytes with
  | case1 => simp [firstBytes]
  | case2 skip b bytes ih =>
    rw [take_succ_cons, forall_mem_cons] at hs
    rw [firstBytes, countP_cons_of_neg (by simpa using hs.1)]
    exact ih hs.2
  | case3 b bytes c hc ih =>
    exact (firstBytes_cons_le b bytes).trans (Nat.succ_le_succ (ih (skipped_of_decoded hc).2))
  | case4 b bytes hn ih =>
    exact (firstBytes_cons_le b bytes).trans (Nat.succ_le_succ (ih (skipped_of_broken b bytes)))

theorem firstBytes_le_length_decode (bytes : List UInt8) :
    firstBytes bytes ≤ (decodeFrom 0 bytes).length :=
  firstBytes_le_length_decodeFrom bytes 0 (by simp)

/-- The byte that decoding starts with makes a character, whether it is a first byte or not. -/
theorem firstBytes_lt_length_decode {b : UInt8} {bytes : List UInt8} (hb : ¬ b.IsUTF8FirstByte) :
    firstBytes (b :: bytes) < (decodeFrom 0 (b :: bytes)).length := by
  have hco : firstBytes (b :: bytes) = firstBytes bytes := countP_cons_of_neg (by simpa using hb)
  rw [hco, decodeFrom]
  split
  case h_1 c hc => exact absurd (skipped_of_decoded hc).1 hb
  case h_2 =>
    exact Nat.lt_succ_of_le (firstBytes_le_length_decodeFrom _ _ (skipped_of_broken b bytes))

/-- Chunks that decode to their text are cut between characters. -/
theorem exists_encode_of_decode {chunks : List (List UInt8)} {text : List Char}
    (hs : chunks.flatten = encode text) (hd : chunks.flatMap (decodeFrom 0) = text) :
    ∀ chunk ∈ chunks, ∃ piece, encode piece = chunk := by
  refine exists_encode_of_flatten hs fun chunk hc first hf => ?_
  by_contra hn
  have hsu : (chunks.map firstBytes).sum = (chunks.map fun c => (decodeFrom 0 c).length).sum := by
    rw [← length_flatMap, hd, ← firstBytes_encode, ← hs, firstBytes, countP_flatten]
    rfl
  obtain ⟨bytes, rfl⟩ : ∃ bytes, chunk = first :: bytes := by
    cases chunk <;> simp_all
  exact (sum_lt_sum _ _ (fun c _ => firstBytes_le_length_decode c)
    ⟨_, hc, firstBytes_lt_length_decode hn⟩).ne hsu

end Uptrakit.Text
