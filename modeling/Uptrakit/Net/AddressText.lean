import Uptrakit.Net.Address
import Mathlib.Data.List.Infix
import Mathlib.Data.String.Basic

/-!
# Addresses as text

`IpAddr::from_str` of the standard library (`core::net::parser`), which `is_private_host` uses to
recognise an address, and the decimal form in which an IPv4 address is displayed.

What is displayed is read back (`parseIp_display`).  A text that opens with a bracket is no
address (`parseIp_bracket`).
-/

namespace Uptrakit.Net

open Option List

/-! ## Reading -/

/-- A reader returns a value and the rest of the text; one that fails leaves the text as it
was. -/
abbrev Reader (α : Type) := List Char → Option (α × List Char)

/-- `char::to_digit`. -/
def toDigit (radix : ℕ) (c : Char) : Option ℕ :=
  let digit :=
    if c.isDigit then some (c.toNat - '0'.toNat)
    else if 'a' ≤ c ∧ c ≤ 'z' then some (c.toNat - 'a'.toNat + 10)
    else if 'A' ≤ c ∧ c ≤ 'Z' then some (c.toNat - 'A'.toNat + 10)
    else none
  digit.filter (· < radix)

/-- `Parser::read_given_char`. -/
def readGivenChar (target : Char) : Reader Unit
  | [] => none
  | c :: rest => if c = target then some ((), rest) else none

/-- `Parser::read_separator`: what follows a separator, which the first field has not. -/
def readSeparator {α : Type} (sep : Char) (index : ℕ) (inner : Reader α) : Reader α := fun text =>
  if 0 < index then do
    let ((), rest) ← readGivenChar sep text
    inner rest
  else inner text

/-- The loop of `Parser::read_number`: the number so far and its count of digits. -/
def readDigits (radix maxDigits : ℕ) : ℕ → ℕ → Reader (ℕ × ℕ)
  | result, count, [] => some ((result, count), [])
  | result, count, c :: rest =>
    match toDigit radix c with
    | none => some ((result, count), c :: rest)
    | some digit =>
      if maxDigits < count + 1 then none
      else readDigits radix maxDigits (result * radix + digit) (count + 1) rest

/-- `Parser::read_number`, for a type with `size` values. -/
def readNumber (radix maxDigits : ℕ) (allowZeroPrefix : Bool) (size : ℕ) :
    Reader ℕ := fun text => do
  let ((result, digitCount), rest) ← readDigits radix maxDigits 0 0 text
  if digitCount = 0 then none
  else if !allowZeroPrefix && text.head? == some '0' && 1 < digitCount then none
  else if result < size then some (result, rest)
  else none

/-- An octet of an IPv4 address: no octal numbers. -/
def readOctet (index : ℕ) : Reader UInt8 := fun text => do
  let (n, rest) ← readSeparator '.' index (readNumber 10 3 false 256) text
  some (UInt8.ofNat n, rest)

/-- `Parser::read_ipv4_addr`. -/
def readIpv4Addr : Reader Ipv4Addr := fun text => do
  let (a, text) ← readOctet 0 text
  let (b, text) ← readOctet 1 text
  let (c, text) ← readOctet 2 text
  let (d, text) ← readOctet 3 text
  some (⟨a, b, c, d⟩, text)

/-- `read_groups` of `Parser::read_ipv6_addr`, from the group `index` with `left` groups to fill:
the groups, whether an IPv4 address is at their end, and the rest. -/
def readGroups : ℕ → ℕ → List Char → (List UInt16 × Bool) × List Char
  | 0, _, text => (([], false), text)
  | left + 1, index, text =>
    -- an embedded IPv4 address takes two groups
    match (if 0 < left then readSeparator ':' index readIpv4Addr text else none) with
    | some (v4, text) => (([fromBeBytes v4.a v4.b, fromBeBytes v4.c v4.d], true), text)
    | none =>
      match readSeparator ':' index (readNumber 16 4 true 65536) text with
      | some (group, text) =>
        let ((groups, ipv4), text) := readGroups left (index + 1) text
        ((UInt16.ofNat group :: groups, ipv4), text)
      | none => (([], false), text)

def Ipv6Addr.ofSegments (segments : List UInt16) : Ipv6Addr :=
  ⟨segments.getD 0 0, segments.getD 1 0, segments.getD 2 0, segments.getD 3 0,
    segments.getD 4 0, segments.getD 5 0, segments.getD 6 0, segments.getD 7 0⟩

/-- `Parser::read_ipv6_addr`. -/
def readIpv6Addr : Reader Ipv6Addr := fun text =>
  match readGroups 8 0 text with
  | ((head, headIpv4), text) =>
    if head.length = 8 then some (Ipv6Addr.ofSegments head, text)
    -- an IPv4 address is not allowed before `::`
    else if headIpv4 then none
    else do
      let ((), text) ← readGivenChar ':' text
      let ((), text) ← readGivenChar ':' text
      -- `::` stands for at least one group
      let ((tail, _), text) := readGroups (8 - (head.length + 1)) 0 text
      let zeros := List.replicate (8 - head.length - tail.length) 0
      some (Ipv6Addr.ofSegments (head ++ zeros ++ tail), text)

/-- `IpAddr::from_str`: the whole text is an address. -/
def parseIp (s : String) : Option IpAddr :=
  match readIpv4Addr s.toList with
  | some (v4, rest) => if rest.isEmpty then some (.v4 v4) else none
  | none =>
    match readIpv6Addr s.toList with
    | some (v6, rest) => if rest.isEmpty then some (.v6 v6) else none
    | none => none

/-! ## Displaying -/

/-- `Display` of an octet. -/
def displayOctet (octet : UInt8) : List Char := Nat.toDigits 10 octet.toNat

/-- `Display` of an IPv4 address: `a.b.c.d`. -/
def Ipv4Addr.display (v4 : Ipv4Addr) : String :=
  String.ofList (displayOctet v4.a ++ '.' :: (displayOctet v4.b ++ '.' :: (displayOctet v4.c ++
    '.' :: displayOctet v4.d)))

/-! ## What is displayed is read back -/

/-- The text does not go on with a digit. -/
def EndsNumber (radix : ℕ) (text : List Char) : Prop :=
  ∀ c ∈ text.head?, toDigit radix c = none

theorem toDigit_ten {c : Char} (hc : c.isDigit = true) :
    toDigit 10 c = some (c.toNat - '0'.toNat) := by
  have hle : c.toNat ≤ 57 := by
    simp only [Char.isDigit, Bool.and_eq_true, decide_eq_true_eq] at hc
    exact hc.2
  have hlt : c.toNat - '0'.toNat < 10 := by
    have : '0'.toNat = 48 := rfl
    omega
  simp only [toDigit, hc, if_true, filter_some, hlt, decide_true]

variable {maxDigits : ℕ} {rest : List Char}

/-- The loop reads a run of decimal digits to its end. -/
theorem readDigits_append (hr : EndsNumber 10 rest) :
    ∀ (digits : List Char) (result count : ℕ), (∀ c ∈ digits, c.isDigit = true) →
      count + digits.length ≤ maxDigits →
      readDigits 10 maxDigits result count (digits ++ rest) =
        some ((Nat.ofDigitChars 10 digits result, count + digits.length), rest) := by
  intro digits
  induction digits with
  | nil =>
    intro result count _ _
    cases rest with
    | nil => rfl
    | cons c =>
      have hc : toDigit 10 c = none := hr c rfl
      rw [nil_append, readDigits, hc]
      rfl
  | cons c _ ih =>
    intro result count hdi hco
    rw [length_cons] at hco ⊢
    have hc : toDigit 10 c = some (c.toNat - '0'.toNat) :=
      toDigit_ten (hdi c mem_cons_self)
    have hn : ¬maxDigits < count + 1 := by omega
    rw [cons_append, readDigits, hc]
    simp only [hn]
    rw [ih _ _ (fun d hd => hdi d (mem_cons_of_mem c hd)) (by omega),
      Nat.mul_comm result 10, Nat.add_assoc count 1, Nat.add_comm 1]
    rfl

/-- A decimal numeral opens with a zero only if it is the numeral of zero. -/
theorem head?_toDigits (n : ℕ) (hn : 0 < n) : (Nat.toDigits 10 n).head? ≠ some '0' := by
  have digit : ∀ n < 10, 0 < n → n.digitChar ≠ '0' := by decide
  induction n using Nat.strong_induction_on with
  | h n ih =>
    by_cases hlt : n < 10
    · rw [Nat.toDigits_of_lt_base hlt]
      simpa using digit n hlt hn
    · have hd : 0 < n / 10 := by omega
      have hh := ih (n / 10) (by omega) hd
      rw [Nat.toDigits_of_base_le (by omega) (by omega), head?_append_of_ne_nil]
      · exact hh
      · exact Nat.toDigits_ne_nil

theorem displayOctet_length (octet : UInt8) : (displayOctet octet).length ≤ 3 := by
  have hlt := octet.toNat_lt
  exact (Nat.length_toDigits_le_iff (by omega) (by omega)).mpr (by omega)

theorem readNumber_displayOctet (octet : UInt8) (hre : EndsNumber 10 rest) :
    readNumber 10 3 false 256 (displayOctet octet ++ rest) = some (octet.toNat, rest) := by
  have hne : displayOctet octet ≠ [] := Nat.toDigits_ne_nil
  have hr := readDigits_append hre (displayOctet octet) 0 0
    (fun c hc => Nat.isDigit_of_mem_toDigits (by omega) (by omega) hc)
    (by simpa using displayOctet_length octet)
  have hv : Nat.ofDigitChars 10 (displayOctet octet) 0 = octet.toNat :=
    Nat.ofDigitChars_toDigits (by omega) (by omega)
  have hco : (displayOctet octet).length ≠ 0 := by simpa using hne
  have hz : ((displayOctet octet ++ rest).head? == some '0' &&
      decide (1 < (displayOctet octet).length)) = false := by
    obtain hp | hp := Nat.eq_zero_or_pos octet.toNat
    · rw [displayOctet, hp]
      rfl
    · simp [displayOctet, head?_toDigits octet.toNat hp]
  have hs : octet.toNat < 256 := octet.toNat_lt
  simp only [readNumber, hr, hv, bind_eq_bind, bind_some, Nat.zero_add, hco,
    if_false, Bool.not_false, Bool.true_and, hz, Bool.false_eq_true, hs, if_true]

theorem endsNumber_dot (rest) : EndsNumber 10 ('.' :: rest) := by
  intro c hc
  obtain rfl : '.' = c := by simpa using hc
  decide

theorem endsNumber_nil (radix : ℕ) : EndsNumber radix [] := by
  intro c hc
  simp at hc

theorem readOctet_zero (octet : UInt8) (hr : EndsNumber 10 rest) :
    readOctet 0 (displayOctet octet ++ rest) = some (octet, rest) := by
  simp [readOctet, readSeparator, readNumber_displayOctet octet hr]

theorem readOctet_succ (index : ℕ) (octet : UInt8) (hr : EndsNumber 10 rest) :
    readOctet (index + 1) ('.' :: (displayOctet octet ++ rest)) = some (octet, rest) := by
  simp [readOctet, readSeparator, readGivenChar, readNumber_displayOctet octet hr]

/-- A displayed IPv4 address is read back. -/
theorem parseIp_display (v4 : Ipv4Addr) : parseIp v4.display = some (.v4 v4) := by
  have hl : readOctet 3 ('.' :: displayOctet v4.d) = some (v4.d, []) := by
    simpa using readOctet_succ 2 v4.d (endsNumber_nil 10)
  have hr : readIpv4Addr v4.display.toList = some (v4, []) := by
    rw [readIpv4Addr, Ipv4Addr.display, String.toList_ofList,
      readOctet_zero v4.a (endsNumber_dot _)]
    simp only [bind_eq_bind, bind_some, readOctet_succ 0 v4.b (endsNumber_dot _),
      readOctet_succ 1 v4.c (endsNumber_dot _), hl]
  rw [parseIp, hr]
  rfl

/-! ## Brackets -/

theorem readNumber_bracket (radix maxDigits size : ℕ) (allowZeroPrefix rest) :
    readNumber radix maxDigits allowZeroPrefix size ('[' :: rest) = none := by
  have hd : toDigit radix '[' = none := rfl
  simp [readNumber, readDigits, hd]

theorem readIpv4Addr_bracket (rest) : readIpv4Addr ('[' :: rest) = none := by
  simp [readIpv4Addr, readOctet, readSeparator, readNumber_bracket]

/-- A text that opens with a bracket is no address. -/
theorem parseIp_bracket {s : String} (hs : s.toList = '[' :: rest) : parseIp s = none := by
  have hg : readGroups 8 0 ('[' :: rest) = (([], false), '[' :: rest) := by
    simp [readGroups, readSeparator, readIpv4Addr_bracket, readNumber_bracket]
  have hr : readIpv6Addr ('[' :: rest) = none := by
    simp [readIpv6Addr, hg, readGivenChar]
  simp only [parseIp, hs, readIpv4Addr_bracket, hr]

end Uptrakit.Net
