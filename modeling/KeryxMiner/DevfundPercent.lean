import KeryxMiner.Decimals
import Mathlib.Data.Rat.Cast.Order
import Mathlib.Tactic.NormNum
import Mathlib.Tactic.Ring

/-!
The percentage of the development fund: `parse_devfund_percent` of `src/cli.rs`, and the
decimal numbers that its texts stand for.
-/

namespace KeryxMiner.DevfundPercent

open Decimals

/-! Reading the option. -/

/-- `parse::<u16>()`. -/
def parseU16 (text : List Char) : Option UInt16 :=
  let digits := unsigned text
  if digits ≠ [] ∧ digits.all Char.isDigit = true ∧ Nat.ofDigitChars 10 digits 0 < 2 ^ 16 then
    some (UInt16.ofNat (Nat.ofDigitChars 10 digits 0))
  else none

/-- `len` of a string slice, in bytes. -/
def byteLength (text : List Char) : Nat := (text.map Char.utf8Size).sum

def err : String :=
  "devfund-percent should be --devfund-percent=XX.YY up to 2 numbers after the dot"

/-- From the length checks on. -/
def percentOf (prefixPart postfixPart : List Char) : Except String UInt16 :=
  if 2 < byteLength prefixPart ∨ 2 < byteLength postfixPart then .error err
  else
    match parseU16 postfixPart, parseU16 prefixPart with
    | some fraction, some whole =>
        if 100 ≤ whole ∨ 100 ≤ fraction then .error err
        else if whole < 2 then .ok 200
        else .ok (whole * 100 + fraction)
    | _, _ => .error err

def parseDevfundPercent (s : String) : Except String UInt16 :=
  match s.toList.splitOn '.' with
  | [] => .error err
  | [prefixPart] => percentOf prefixPart ['0']
  | [prefixPart, postfixPart] => percentOf prefixPart postfixPart
  | _ :: _ :: _ :: _ => .error err

/-! What a text denotes. -/

def Plain (part : List Char) : Prop :=
  (part.length = 1 ∨ part.length = 2) ∧ part.all Char.isDigit = true

def number (digits : List Char) : Nat := Nat.ofDigitChars 10 digits 0

/-- One or two digits, and as many behind a point. -/
inductive Denotes : List Char → ℚ → Prop where
  | whole {digits : List Char} (plain : Plain digits) : Denotes digits (number digits)
  | point {digits fraction : List Char} (plain : Plain digits) (behind : Plain fraction) :
      Denotes (digits ++ '.' :: fraction) (number digits + number fraction / 10 ^ fraction.length)

/-- Accepted are the texts of a decimal number, with a hundred times the number or else 200. -/
def ReadsDecimal (s : String) : Prop :=
  ∀ result, parseDevfundPercent s = .ok result ↔
    ∃ value, Denotes s.toList value ∧ (result.toNat : ℚ) = max 200 (100 * value)

/-! Where the two part. -/

def SignedPart (part : List Char) : Prop := ∃ digit, digit.isDigit = true ∧ part = ['+', digit]

/-- A number with a plus sign in front of one or both of its parts. -/
def Signed (text : List Char) : Prop :=
  (text.splitOn '.').length ≤ 2 ∧
    (∀ part ∈ text.splitOn '.', Plain part ∨ SignedPart part) ∧
    ∃ part ∈ text.splitOn '.', SignedPart part

/-- A percentage from 2 on with a single digit, not zero, behind the point. -/
def Tenth (text : List Char) : Prop :=
  ∃ digits digit, text = digits ++ ['.', digit] ∧ Plain digits ∧ 2 ≤ number digits ∧
    digit.isDigit = true ∧ digit ≠ '0'

/-! Parts. -/

def Part (part : List Char) : Prop := Plain part ∨ SignedPart part

def amount (part : List Char) : Nat := number (unsigned part)

theorem digit_bytes {c : Char} (digit : c.isDigit = true) : c.utf8Size = 1 := by
  have bounds := digit_bounds digit
  have low : c.val.toNat ≤ 57 := bounds.2
  unfold Char.utf8Size
  rw [if_pos]
  exact UInt32.le_iff_toNat_le.mpr (low.trans (by decide))

theorem digits_bytes {part : List Char} (digits : part.all Char.isDigit = true) :
    byteLength part = part.length := by
  induction part with
  | nil => rfl
  | cons c rest ih =>
      rw [List.all_cons, Bool.and_eq_true] at digits
      rw [byteLength, List.map_cons, List.sum_cons, digit_bytes digits.1, List.length_cons,
        Nat.add_comm]
      exact congrArg (· + 1) (ih digits.2)

theorem digit_unsigned {c : Char} (digit : c.isDigit = true) (rest : List Char) :
    unsigned (c :: rest) = c :: rest := by
  unfold unsigned
  split
  · rename_i digits plus
    obtain rfl : c = '+' := (List.cons.inj plus).1
    exact absurd digit (by decide)
  · rfl

theorem plain_cases {part : List Char} (plain : Plain part) :
    (∃ c, c.isDigit = true ∧ part = [c]) ∨
      ∃ c d, c.isDigit = true ∧ d.isDigit = true ∧ part = [c, d] := by
  obtain ⟨one | two, digits⟩ := plain
  · obtain ⟨c, rfl⟩ := List.length_eq_one_iff.mp one
    exact Or.inl ⟨c, by simpa using digits, rfl⟩
  · obtain ⟨c, d, rfl⟩ := List.length_eq_two.mp two
    have both : c.isDigit = true ∧ d.isDigit = true := by simpa using digits
    exact Or.inr ⟨c, d, both.1, both.2, rfl⟩

theorem plain_unsigned {part : List Char} (plain : Plain part) : unsigned part = part := by
  obtain ⟨c, digit, rfl⟩ | ⟨c, d, digit, _, rfl⟩ := plain_cases plain
  · exact digit_unsigned digit []
  · exact digit_unsigned digit [d]

theorem plain_number {part : List Char} (plain : Plain part) : number part < 100 := by
  obtain ⟨c, digit, rfl⟩ | ⟨c, d, first, second, rfl⟩ := plain_cases plain
  · have bounds := digit_bounds digit
    simp only [number, Nat.ofDigitChars_cons, Nat.ofDigitChars_nil, Char.reduceToNat]
    omega
  · have high := digit_bounds first
    have low := digit_bounds second
    simp only [number, Nat.ofDigitChars_cons, Nat.ofDigitChars_nil, Char.reduceToNat]
    omega

theorem signed_unsigned (digit : Char) : unsigned ['+', digit] = [digit] := rfl

theorem part_digits {part : List Char} (held : Part part) :
    byteLength part ≤ 2 ∧ Plain (unsigned part) := by
  rcases held with plain | ⟨digit, isDigit, rfl⟩
  · rw [digits_bytes plain.2, plain_unsigned plain]
    exact ⟨plain.1.elim (fun one => by omega) fun two => by omega, plain⟩
  · refine ⟨?_, Or.inl rfl, by simpa [signed_unsigned] using isDigit⟩
    have plus : '+'.utf8Size = 1 := rfl
    simp [byteLength, digit_bytes isDigit, plus]

theorem part_reads {part : List Char} (held : Part part) :
    parseU16 part = some (UInt16.ofNat (amount part)) := by
  obtain ⟨_, plain⟩ := part_digits held
  have small := plain_number plain
  have nonempty : unsigned part ≠ [] := by
    intro empty
    rw [empty] at plain
    exact plain.1.elim (fun one => by contradiction) fun two => by contradiction
  unfold parseU16
  exact if_pos ⟨nonempty, plain.2, small.trans (by decide)⟩

theorem length_le_bytes (part : List Char) : part.length ≤ byteLength part := by
  induction part with
  | nil => exact Nat.le_refl 0
  | cons c rest ih =>
      rw [byteLength, List.map_cons, List.sum_cons, List.length_cons, Nat.add_comm]
      exact Nat.add_le_add c.utf8Size_pos ih

theorem unsigned_cases (part : List Char) :
    unsigned part = part ∨ part = '+' :: unsigned part := by
  unfold unsigned
  split
  · exact Or.inr rfl
  · exact Or.inl rfl

/-- What the checks let through is a part. -/
theorem part_of_reads {part : List Char} {value : UInt16} (short : byteLength part ≤ 2)
    (reads : parseU16 part = some value) : Part part := by
  unfold parseU16 at reads
  dsimp only at reads
  split at reads
  · rename_i checked
    obtain ⟨nonempty, digits, _⟩ := checked
    have length := (length_le_bytes part).trans short
    have present := List.length_pos_iff.mpr nonempty
    rcases unsigned_cases part with same | plus
    · rw [same] at digits present
      exact Or.inl ⟨by omega, digits⟩
    · have one : (unsigned part).length = 1 := by
        rw [plus, List.length_cons] at length
        omega
      obtain ⟨digit, only⟩ := List.length_eq_one_iff.mp one
      rw [only] at digits plus
      exact Or.inr ⟨digit, by simpa using digits, plus⟩
  · contradiction

theorem part_value {part : List Char} {value : UInt16} (short : byteLength part ≤ 2)
    (reads : parseU16 part = some value) :
    Part part ∧ value.toNat = amount part ∧ amount part < 100 := by
  have held := part_of_reads short reads
  have small : amount part < 100 := plain_number (part_digits held).2
  rw [part_reads held, Option.some_inj] at reads
  rw [← reads]
  exact ⟨held, UInt16.toNat_ofNat_of_lt' (small.trans (by decide)), small⟩

theorem percent_of_ok (prefixPart postfixPart : List Char) (result : UInt16) :
    percentOf prefixPart postfixPart = .ok result ↔
      Part prefixPart ∧ Part postfixPart ∧ result.toNat =
        if amount prefixPart < 2 then 200 else amount prefixPart * 100 + amount postfixPart := by
  unfold percentOf
  split
  · rename_i long
    refine iff_of_false (by simp) ?_
    rintro ⟨whole, fraction, _⟩
    have first := (part_digits whole).1
    have second := (part_digits fraction).1
    omega
  · rename_i short
    rw [not_or, not_lt, not_lt] at short
    split
    · rename_i fraction whole fraction_reads whole_reads
      obtain ⟨first, whole_value, high⟩ := part_value short.1 whole_reads
      obtain ⟨second, fraction_value, low⟩ := part_value short.2 fraction_reads
      have within : ¬ (100 ≤ whole ∨ 100 ≤ fraction) := by
        rw [UInt16.le_iff_toNat_le, UInt16.le_iff_toNat_le, whole_value, fraction_value]
        simp only [UInt16.reduceToNat]
        omega
      have least : whole < 2 ↔ amount prefixPart < 2 := by
        rw [UInt16.lt_iff_toNat_lt, whole_value]
        rfl
      have sum : (whole * 100 + fraction).toNat =
          amount prefixPart * 100 + amount postfixPart := by
        rw [UInt16.toNat_add, UInt16.toNat_mul, whole_value, fraction_value]
        simp only [UInt16.reduceToNat]
        omega
      rw [if_neg within]
      simp only [first, second, true_and, least]
      split
      · rw [Except.ok.injEq, ← UInt16.toNat_inj, eq_comm]
        rfl
      · rw [Except.ok.injEq, ← UInt16.toNat_inj, sum, eq_comm]
    · rename_i unread
      refine iff_of_false (by simp) ?_
      rintro ⟨whole, fraction, _⟩
      exact unread _ _ (part_reads fraction) (part_reads whole)

/-! The answer for two parts. -/

theorem signed_not_plain {part : List Char} (held : SignedPart part) : ¬ Plain part := by
  obtain ⟨digit, _, rfl⟩ := held
  rintro ⟨_, digits⟩
  exact absurd (List.all_eq_true.mp digits '+' List.mem_cons_self) (by decide)

/-- A hundred times the number, the digits behind the point filled up to two. -/
def hundredths (digits fraction : List Char) : Nat :=
  100 * number digits + number fraction * 10 ^ (2 - fraction.length)

def SignedPair (prefixPart postfixPart : List Char) : Prop :=
  Part prefixPart ∧ Part postfixPart ∧ (SignedPart prefixPart ∨ SignedPart postfixPart)

def TenthPair (prefixPart postfixPart : List Char) : Prop :=
  Plain prefixPart ∧ 2 ≤ number prefixPart ∧
    ∃ digit, postfixPart = [digit] ∧ digit.isDigit = true ∧ digit ≠ '0'

theorem digit_number_zero {digit : Char} (isDigit : digit.isDigit = true) :
    number [digit] = 0 ↔ digit = '0' := by
  have bounds := digit_bounds isDigit
  rw [number, Nat.ofDigitChars_cons, Nat.ofDigitChars_nil, ← Char.toNat_inj]
  simp only [Char.reduceToNat]
  omega

/-- A single digit counts hundredths in the code, unless the percentage is raised to 200. -/
theorem sum_iff {digits fraction : List Char} (whole : Plain digits) (behind : Plain fraction) :
    (if number digits < 2 then 200 else number digits * 100 + number fraction) =
        max 200 (hundredths digits fraction) ↔
      ¬ TenthPair digits fraction := by
  have small := plain_number behind
  unfold hundredths TenthPair
  obtain ⟨c, digit, rfl⟩ | ⟨c, d, _, _, rfl⟩ := plain_cases behind
  · have tenth : (∃ other, [c] = [other] ∧ other.isDigit = true ∧ other ≠ '0') ↔
        number [c] ≠ 0 := by
      rw [ne_eq, digit_number_zero digit]
      constructor
      · rintro ⟨other, same, _, nonzero⟩
        obtain rfl : c = other := List.singleton_inj.mp same
        exact nonzero
      · exact fun nonzero => ⟨c, rfl, digit, nonzero⟩
    have single : number [c] < 10 := by
      have bounds := digit_bounds digit
      rw [number, Nat.ofDigitChars_cons, Nat.ofDigitChars_nil]
      simp only [Char.reduceToNat]
      omega
    rw [tenth]
    simp only [whole, true_and, List.length_singleton, Nat.reduceSub, pow_one]
    split <;> omega
  · have two : ¬ ∃ other, [c, d] = [other] ∧ other.isDigit = true ∧ other ≠ '0' := by
      rintro ⟨other, same, _⟩
      exact absurd (congrArg List.length same) (by simp)
    simp only [two, and_false, not_false_eq_true, iff_true, List.length_cons, List.length_nil,
      Nat.reduceAdd, Nat.sub_self, pow_zero, mul_one]
    split <;> omega

theorem pair_reads (prefixPart postfixPart : List Char) :
    (∀ result, percentOf prefixPart postfixPart = .ok result ↔
      Plain prefixPart ∧ Plain postfixPart ∧
        result.toNat = max 200 (hundredths prefixPart postfixPart)) ↔
      ¬ SignedPair prefixPart postfixPart ∧ ¬ TenthPair prefixPart postfixPart := by
  by_cases parts : Part prefixPart ∧ Part postfixPart
  · obtain ⟨first, second⟩ := parts
    have high : amount prefixPart < 100 := plain_number (part_digits first).2
    have low : amount postfixPart < 100 := plain_number (part_digits second).2
    generalize answer : (if amount prefixPart < 2 then 200
      else amount prefixPart * 100 + amount postfixPart) = sum
    have small : sum < 2 ^ 16 := by
      rw [← answer]
      split <;> omega
    have answered (result : UInt16) :
        percentOf prefixPart postfixPart = .ok result ↔ result.toNat = sum := by
      rw [percent_of_ok, answer]
      simp only [first, second, true_and]
    have held : (UInt16.ofNat sum).toNat = sum := UInt16.toNat_ofNat_of_lt' small
    by_cases signed : SignedPart prefixPart ∨ SignedPart postfixPart
    · refine iff_of_false ?_ fun neither => neither.1 ⟨first, second, signed⟩
      intro reads
      have plain := (reads (UInt16.ofNat sum)).mp ((answered _).mpr held)
      exact signed.elim (fun sign => signed_not_plain sign plain.1)
        fun sign => signed_not_plain sign plain.2.1
    · have whole := first.resolve_right fun sign => signed (Or.inl sign)
      have behind := second.resolve_right fun sign => signed (Or.inr sign)
      rw [amount, amount, plain_unsigned whole, plain_unsigned behind] at answer
      have exactly : sum = max 200 (hundredths prefixPart postfixPart) ↔
          ¬ TenthPair prefixPart postfixPart := answer ▸ sum_iff whole behind
      rw [← exactly]
      simp only [answered, whole, behind, true_and]
      constructor
      · intro reads
        refine ⟨fun sign => signed sign.2.2, ?_⟩
        rw [← held]
        exact (reads _).mp held
      · rintro ⟨_, same⟩ result
        rw [same]
  · have refused (result : UInt16) : percentOf prefixPart postfixPart ≠ .ok result := fun ok =>
      parts ⟨((percent_of_ok ..).mp ok).1, ((percent_of_ok ..).mp ok).2.1⟩
    refine iff_of_true (fun result => iff_of_false (refused result) ?_) ⟨?_, ?_⟩
    · exact fun plain => parts ⟨Or.inl plain.1, Or.inl plain.2.1⟩
    · exact fun signed => parts ⟨signed.1, signed.2.1⟩
    · rintro ⟨whole, _, digit, rfl, isDigit, _⟩
      exact parts ⟨Or.inl whole, Or.inl ⟨Or.inl rfl, by simpa using isDigit⟩⟩

/-! Texts by their parts. -/

theorem zero_plain : Plain ['0'] := ⟨Or.inl rfl, rfl⟩

theorem plain_solid {part : List Char} (plain : Plain part) : '.' ∉ part := fun member =>
  absurd (List.all_eq_true.mp plain.2 '.' member) (by decide)

theorem split_one {part : List Char} (solid : '.' ∉ part) : part.splitOn '.' = [part] := by
  have split : (['.'].intercalate [part]).splitOn '.' = [part] :=
    List.splitOn_intercalate '.' (by simpa using solid) (by simp)
  simpa using split

theorem split_two {digits fraction : List Char} (whole : '.' ∉ digits) (behind : '.' ∉ fraction) :
    (digits ++ '.' :: fraction).splitOn '.' = [digits, fraction] := by
  have split : (['.'].intercalate [digits, fraction]).splitOn '.' = [digits, fraction] :=
    List.splitOn_intercalate '.' (by simp [whole, behind]) (by simp)
  simpa using split

theorem joined_one {text part : List Char} (split : text.splitOn '.' = [part]) : text = part := by
  have joined : ['.'].intercalate (text.splitOn '.') = text := List.intercalate_splitOn '.'
  rw [split] at joined
  simpa using joined.symm

theorem joined_two {text digits fraction : List Char}
    (split : text.splitOn '.' = [digits, fraction]) : text = digits ++ '.' :: fraction := by
  have joined : ['.'].intercalate (text.splitOn '.') = text := List.intercalate_splitOn '.'
  rw [split] at joined
  simpa using joined.symm

theorem denotes_iff (text : List Char) (value : ℚ) :
    Denotes text value ↔
      (∃ digits, text.splitOn '.' = [digits] ∧ Plain digits ∧ value = number digits) ∨
      ∃ digits fraction, text.splitOn '.' = [digits, fraction] ∧ Plain digits ∧ Plain fraction ∧
        value = number digits + number fraction / 10 ^ fraction.length := by
  constructor
  · rintro (plain | ⟨plain, behind⟩)
    · exact Or.inl ⟨_, split_one (plain_solid plain), plain, rfl⟩
    · exact Or.inr ⟨_, _, split_two (plain_solid plain) (plain_solid behind), plain, behind, rfl⟩
  · rintro (⟨digits, split, plain, rfl⟩ | ⟨digits, fraction, split, plain, behind, rfl⟩)
    · rw [joined_one split]
      exact .whole plain
    · rw [joined_two split]
      exact .point plain behind

theorem scaled_iff {digits fraction : List Char} (behind : Plain fraction) (result : UInt16) :
    (result.toNat : ℚ) =
        max 200 (100 * ((number digits : ℚ) + number fraction / 10 ^ fraction.length)) ↔
      result.toNat = max 200 (hundredths digits fraction) := by
  have scaled : 100 * ((number digits : ℚ) + number fraction / 10 ^ fraction.length) =
      (hundredths digits fraction : ℕ) := by
    unfold hundredths
    rcases behind.1 with one | two
    · rw [one]
      push_cast
      ring
    · rw [two]
      push_cast
      ring
  rw [scaled]
  exact_mod_cast Iff.rfl

section Text
variable {s : String} {text digits fraction : List Char}

theorem reads_one (split : s.toList.splitOn '.' = [digits]) :
    ReadsDecimal s ↔ ∀ result, percentOf digits ['0'] = .ok result ↔
      Plain digits ∧ Plain ['0'] ∧ result.toNat = max 200 (hundredths digits ['0']) := by
  have value : (number digits : ℚ) = number digits + number ['0'] / 10 ^ ['0'].length := by
    have none : number ['0'] = 0 := rfl
    rw [none, Nat.cast_zero, zero_div, add_zero]
  unfold ReadsDecimal parseDevfundPercent
  simp only [split, denotes_iff]
  refine forall_congr' fun result => iff_congr Iff.rfl ?_
  rw [← scaled_iff zero_plain, ← value]
  simp [zero_plain]

theorem reads_two (split : s.toList.splitOn '.' = [digits, fraction]) :
    ReadsDecimal s ↔ ∀ result, percentOf digits fraction = .ok result ↔
      Plain digits ∧ Plain fraction ∧ result.toNat = max 200 (hundredths digits fraction) := by
  unfold ReadsDecimal parseDevfundPercent
  simp only [split, denotes_iff]
  refine forall_congr' fun result => iff_congr Iff.rfl ?_
  constructor
  · rintro ⟨_, ⟨_, one, _⟩ | ⟨_, _, two, whole, behind, rfl⟩, same⟩
    · exact absurd one (by simp)
    · obtain ⟨rfl, rfl⟩ : digits = _ ∧ fraction = _ := by simpa using two
      exact ⟨whole, behind, (scaled_iff behind result).mp same⟩
  · rintro ⟨whole, behind, same⟩
    exact ⟨_, Or.inr ⟨digits, fraction, rfl, whole, behind, rfl⟩,
      (scaled_iff behind result).mpr same⟩

theorem tenth_split (tenth : Tenth text) :
    ∃ digits digit, text.splitOn '.' = [digits, [digit]] ∧ Plain digits ∧ 2 ≤ number digits ∧
      digit.isDigit = true ∧ digit ≠ '0' := by
  obtain ⟨digits, digit, rfl, plain, large, isDigit, nonzero⟩ := tenth
  have behind : Plain [digit] := ⟨Or.inl rfl, by simpa using isDigit⟩
  exact ⟨digits, digit, split_two (plain_solid plain) (plain_solid behind), plain, large, isDigit,
    nonzero⟩

theorem tenth_iff (split : text.splitOn '.' = [digits, fraction]) :
    Tenth text ↔ TenthPair digits fraction := by
  constructor
  · intro tenth
    obtain ⟨whole, digit, parts, plain, large, isDigit, nonzero⟩ := tenth_split tenth
    obtain ⟨rfl, rfl⟩ : digits = whole ∧ fraction = [digit] := by simpa [split] using parts
    exact ⟨plain, large, digit, rfl, isDigit, nonzero⟩
  · rintro ⟨plain, large, digit, rfl, isDigit, nonzero⟩
    exact ⟨digits, digit, joined_two split, plain, large, isDigit, nonzero⟩

theorem signed_one (split : text.splitOn '.' = [digits]) :
    Signed text ↔ SignedPair digits ['0'] := by
  have unsigned : ¬ SignedPart ['0'] := fun signed => signed_not_plain signed zero_plain
  simp only [Signed, SignedPair, split, Part, List.length_singleton, List.mem_singleton,
    forall_eq, exists_eq_left, zero_plain, unsigned, or_false, true_and, Nat.one_le_ofNat]

theorem signed_two (split : text.splitOn '.' = [digits, fraction]) :
    Signed text ↔ SignedPair digits fraction := by
  simp [Signed, SignedPair, split, Part, and_assoc]

end Text

/-- Read as decimals are all texts but those with a plus sign and those with a single digit,
not zero, behind the point of a percentage from 2 on. -/
theorem reads_decimal_iff (s : String) :
    ReadsDecimal s ↔ ¬ Signed s.toList ∧ ¬ Tenth s.toList := by
  match split : s.toList.splitOn '.' with
  | [] => exact absurd split (List.splitOn_ne_nil '.' s.toList)
  | [digits] =>
      have whole : ¬ Tenth s.toList := by
        intro tenth
        obtain ⟨_, _, two, _⟩ := tenth_split tenth
        rw [split] at two
        exact absurd two (by simp)
      have none : ¬ TenthPair digits ['0'] := by
        rintro ⟨_, _, digit, same, _, nonzero⟩
        exact nonzero (List.singleton_inj.mp same).symm
      rw [reads_one split, pair_reads, signed_one split]
      simp only [whole, none]
  | [digits, fraction] => rw [reads_two split, pair_reads, signed_two split, tenth_iff split]
  | first :: second :: third :: rest =>
      refine iff_of_true ?_ ⟨?_, ?_⟩
      · intro result
        simp [parseDevfundPercent, split, denotes_iff]
      · rintro ⟨short, _⟩
        rw [split] at short
        simp only [List.length_cons] at short
        omega
      · intro tenth
        obtain ⟨_, _, two, _⟩ := tenth_split tenth
        rw [split] at two
        exact absurd two (by simp)

/-- `5.5` stands for 550 hundredths, and `+5` for none. -/
theorem point_and_sign_misread :
    (parseDevfundPercent "5.5" = .ok 505 ∧ ¬ ReadsDecimal "5.5") ∧
      parseDevfundPercent "+5" = .ok 500 ∧ ¬ ReadsDecimal "+5" := by
  have five : Plain ['5'] := ⟨Or.inl rfl, rfl⟩
  have half : parseDevfundPercent "5.5" = .ok 505 := by decide +kernel
  have plus : parseDevfundPercent "+5" = .ok 500 := by decide +kernel
  refine ⟨⟨half, fun reads => ?_⟩, plus, fun reads => ?_⟩
  · have refused : ¬ percentOf ['5'] ['5'] = .ok 550 := by decide +kernel
    have split : "5.5".toList.splitOn '.' = [['5'], ['5']] := by decide +kernel
    exact refused (((reads_two split).mp reads 550).mpr ⟨five, five, by decide +kernel⟩)
  · have split : "+5".toList.splitOn '.' = [['+', '5']] := by decide +kernel
    have signed : SignedPart ['+', '5'] := ⟨'5', rfl, rfl⟩
    exact signed_not_plain signed
      (((reads_one split).mp reads 500).mp (by decide +kernel)).1

end KeryxMiner.DevfundPercent
