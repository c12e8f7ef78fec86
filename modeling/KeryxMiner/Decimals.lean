import Mathlib.Algebra.Group.Nat.Defs
import Mathlib.Data.List.Basic

/-!
Numbers in decimal texts, with zeros in front or none, and reading them as 64-bit words.
-/

namespace KeryxMiner.Decimals

def decimal (value : Nat) : List Char := Nat.toDigits 10 value

/-- `{:0width}`. -/
def paddedDecimal (width value : Nat) : List Char :=
  List.replicate (width - (decimal value).length) '0' ++ decimal value

def unsigned : List Char → List Char
  | '+' :: digits => digits
  | digits => digits

/-- `parse::<u64>()`. -/
def parseU64 (text : List Char) : Option Nat :=
  let digits := unsigned text
  if digits ≠ [] ∧ digits.all Char.isDigit = true ∧ Nat.ofDigitChars 10 digits 0 < 2 ^ 64 then
    some (Nat.ofDigitChars 10 digits 0)
  else none

/-- `rsplit(separator).next()`, the text behind the last separator. -/
def lastPart (separator : Char) (text : List Char) : List Char :=
  (text.reverse.takeWhile (· ≠ separator)).reverse

/-- `char::is_whitespace`. -/
def isWhitespace (c : Char) : Bool :=
  (0x09 ≤ c.toNat && c.toNat ≤ 0x0D) || c.toNat == 0x20 || c.toNat == 0x85 || c.toNat == 0xA0 ||
    c.toNat == 0x1680 || (0x2000 ≤ c.toNat && c.toNat ≤ 0x200A) || c.toNat == 0x2028 ||
    c.toNat == 0x2029 || c.toNat == 0x202F || c.toNat == 0x205F || c.toNat == 0x3000

def trim (text : List Char) : List Char :=
  ((text.dropWhile isWhitespace).reverse.dropWhile isWhitespace).reverse

/-! Decimal texts. -/

theorem decimal_digit {value : Nat} {c : Char} (member : c ∈ decimal value) : c.isDigit = true :=
  Nat.isDigit_of_mem_toDigits (by decide) (by decide) member

theorem digit_bounds {c : Char} (digit : c.isDigit = true) : 48 ≤ c.toNat ∧ c.toNat ≤ 57 := by
  rw [Char.isDigit, Bool.and_eq_true, decide_eq_true_iff, decide_eq_true_iff] at digit
  exact digit

theorem decimal_unsigned (value : Nat) : unsigned (decimal value) = decimal value := by
  unfold unsigned
  split
  · rename_i digits plus
    have digit := @decimal_digit value '+' (by rw [plus]; exact List.mem_cons_self)
    exact absurd digit (by decide)
  · rfl

theorem parse_decimal (value : Nat) :
    parseU64 (decimal value) = if value < 2 ^ 64 then some value else none := by
  have read : Nat.ofDigitChars 10 (decimal value) 0 = value := Nat.ofDigitChars_ten_toDigits
  have digits : (decimal value).all Char.isDigit = true :=
    List.all_eq_true.mpr fun c member => decimal_digit member
  have present : decimal value ≠ [] := Nat.toDigits_ne_nil
  unfold parseU64
  simp only [decimal_unsigned, read, digits, present, ne_eq, not_false_eq_true, true_and]

theorem last_part_decimal (before : List Char) (value : Nat) :
    lastPart '/' (before ++ '/' :: decimal value) = decimal value := by
  have digits : ∀ c ∈ (decimal value).reverse, decide (c ≠ '/') = true := by
    intro c member
    rw [decide_eq_true_iff]
    rintro rfl
    exact absurd (decimal_digit (List.mem_reverse.mp member)) (by decide)
  rw [lastPart, List.reverse_append, List.reverse_cons, List.append_assoc,
    List.takeWhile_append_of_pos digits]
  simp

theorem drop_none {keep : Char → Bool} {text : List Char} (none : ∀ c ∈ text, keep c = false) :
    text.dropWhile keep = text := by
  cases text with
  | nil => rfl
  | cons c rest => rw [List.dropWhile_cons, none c List.mem_cons_self]; rfl

theorem trim_decimal (value : Nat) : trim (decimal value) = decimal value := by
  have solid {c : Char} (member : c ∈ decimal value) : isWhitespace c = false := by
    have bounds := digit_bounds (decimal_digit member)
    simp only [isWhitespace, Bool.or_eq_false_iff, Bool.and_eq_false_iff, decide_eq_false_iff_not,
      beq_eq_false_iff_ne]
    omega
  rw [trim, drop_none fun c member => solid member,
    drop_none fun c member => solid (List.mem_reverse.mp member), List.reverse_reverse]

theorem padded_value (width value : Nat) : Nat.ofDigitChars 10 (paddedDecimal width value) 0 = value := by
  rw [paddedDecimal, Nat.ofDigitChars_append, Nat.ofDigitChars_replicate_zero, Nat.mul_zero]
  exact Nat.ofDigitChars_ten_toDigits

theorem padded_injective (width : Nat) : Function.Injective (paddedDecimal width) := by
  intro left right same
  rw [← padded_value width left, same, padded_value]

end KeryxMiner.Decimals
