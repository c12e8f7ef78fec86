import Mathlib.Data.Nat.Digits.Lemmas

/-!
Conversion of a number between bases, a digit of the source at a time. The digits of the
target stand with the least significant first; zero is one digit, not none.
-/

namespace KeryxMiner.BaseConversion

variable {base scale : Nat}

/-- The digits times `scale` plus the carry. -/
def absorb (base scale : Nat) : List Nat → Nat → List Nat
  | [], carry => Nat.digits base carry
  | digit :: rest, carry =>
      (carry + digit * scale) % base :: absorb base scale rest ((carry + digit * scale) / base)

def padded (base value : Nat) : List Nat := if value = 0 then [0] else Nat.digits base value

/-- The number of digits that stand with the most significant first. -/
def number (base : Nat) (digits : List Nat) : Nat := digits.foldl (fun value d => value * base + d) 0

theorem absorb_digits (wide : 1 < base) (positive : 0 < scale) (value carry : Nat) :
    absorb base scale (Nat.digits base value) carry = Nat.digits base (value * scale + carry) := by
  induction value using Nat.strongRecOn generalizing carry with
  | ind value ih =>
      rcases Nat.eq_zero_or_pos value with rfl | present
      · rw [Nat.digits_zero, absorb, Nat.zero_mul, Nat.zero_add]
      · have product : 0 < value * scale + carry := by
          have := Nat.mul_pos present positive
          omega
        have parts : value * scale + carry =
            carry + value % base * scale + base * (value / base * scale) := by
          conv_lhs => rw [← Nat.mod_add_div value base]
          ring
        rw [Nat.digits_def' wide present, absorb, ih _ (Nat.div_lt_self present wide),
          Nat.digits_def' wide product, parts, Nat.add_mul_mod_self_left,
          Nat.add_mul_div_left _ _ (by omega), Nat.add_comm (value / base * scale)]

theorem absorb_padded (wide : 1 < base) (positive : 0 < scale) (value carry : Nat) :
    absorb base scale (padded base value) carry = padded base (value * scale + carry) := by
  unfold padded
  split
  · rename_i none
    rw [none, Nat.zero_mul, Nat.zero_add, absorb, Nat.zero_mul, Nat.add_zero, absorb]
    split
    · rename_i zero
      rw [zero, Nat.zero_mod, Nat.zero_div, Nat.digits_zero]
    · rename_i present
      exact (Nat.digits_def' wide (Nat.pos_of_ne_zero present)).symm
  · rename_i present
    have product : value * scale + carry ≠ 0 := by
      have := Nat.mul_pos (Nat.pos_of_ne_zero present) positive
      omega
    rw [absorb_digits wide positive, if_neg product]

/-! Digits of a number and back. -/

theorem number_eq (digits : List Nat) : number base digits = Nat.ofDigits base digits.reverse := by
  rw [number, Nat.ofDigits_eq_foldr, List.foldr_reverse]
  congr 1
  funext value digit
  exact (Nat.add_comm ..).trans (by rw [Nat.mul_comm]; rfl)

theorem number_digits (value : Nat) : number base (Nat.digits base value).reverse = value := by
  rw [number_eq, List.reverse_reverse, Nat.ofDigits_digits]

/-- Digits without a zero in front are those of their number. -/
theorem digits_number (wide : 1 < base) {first : Nat} {rest : List Nat}
    (small : ∀ digit ∈ first :: rest, digit < base) (nonzero : first ≠ 0) :
    Nat.digits base (number base (first :: rest)) = (first :: rest).reverse := by
  rw [number_eq]
  apply Nat.digits_ofDigits base wide
  · intro digit member
    exact small digit (List.mem_reverse.mp member)
  · intro present
    rw [List.getLast_reverse]
    exact nonzero

theorem number_nonzero (wide : 1 < base) {first : Nat} {rest : List Nat}
    (small : ∀ digit ∈ first :: rest, digit < base) (nonzero : first ≠ 0) :
    number base (first :: rest) ≠ 0 := by
  intro zero
  have digits := digits_number wide small nonzero
  rw [zero, Nat.digits_zero] at digits
  simp at digits

theorem padded_number (wide : 1 < base) {first : Nat} {rest : List Nat}
    (small : ∀ digit ∈ first :: rest, digit < base) (nonzero : first ≠ 0) :
    padded base (number base (first :: rest)) = (first :: rest).reverse := by
  rw [padded, if_neg (number_nonzero wide small nonzero), digits_number wide small nonzero]

theorem padded_small (wide : 1 < base) (value : Nat) : ∀ digit ∈ padded base value, digit < base := by
  unfold padded
  split
  · intro digit member
    obtain rfl := List.mem_singleton.mp member
    omega
  · exact fun digit member => Nat.digits_lt_base wide member

/-- A number above zero has no zero in front. -/
theorem padded_head {value : Nat} (nonzero : value ≠ 0) :
    ∃ first rest, (padded base value).reverse = first :: rest ∧ first ≠ 0 := by
  rw [padded, if_neg nonzero]
  have present : Nat.digits base value ≠ [] := Nat.digits_ne_nil_iff_ne_zero.mpr nonzero
  refine ⟨_, _, (List.cons_head_tail (List.reverse_ne_nil_iff.mpr present)).symm, ?_⟩
  rw [List.head_reverse]
  exact Nat.getLast_digit_ne_zero base nonzero

/-- A conversion and the one back, of digits without a zero in front. -/
theorem convert_back {other : Nat} (wide : 1 < base) {first : Nat} {rest : List Nat}
    (small : ∀ digit ∈ first :: rest, digit < base) (nonzero : first ≠ 0) :
    padded base (number other (padded other (number base (first :: rest))).reverse) =
      (first :: rest).reverse := by
  have converted : number other (padded other (number base (first :: rest))).reverse =
      number base (first :: rest) := by
    rw [padded, if_neg (number_nonzero wide small nonzero), number_digits]
  rw [converted, padded_number wide small nonzero]

/-! Digits of a fixed width. -/

/-- The digits of the number, the most significant first, with zeros in front or cut off. -/
def fixed (base : Nat) : Nat → Nat → List Nat
  | 0, _ => []
  | width + 1, value => fixed base width (value / base) ++ [value % base]

theorem fixed_length (base width value : Nat) : (fixed base width value).length = width := by
  induction width generalizing value with
  | zero => rfl
  | succ width ih => rw [fixed, List.length_append, ih, List.length_singleton]

theorem fixed_small (positive : 0 < base) (width value : Nat) :
    ∀ digit ∈ fixed base width value, digit < base := by
  induction width generalizing value with
  | zero => exact fun _ none => absurd none List.not_mem_nil
  | succ width ih =>
      intro digit member
      rcases List.mem_append.mp member with before | last
      · exact ih (value / base) digit before
      · rw [List.mem_singleton.mp last]
        exact Nat.mod_lt value positive

theorem number_append (digits : List Nat) (digit : Nat) :
    number base (digits ++ [digit]) = number base digits * base + digit :=
  List.foldl_append ..

theorem number_fixed (base width value : Nat) :
    number base (fixed base width value) = value % base ^ width := by
  induction width generalizing value with
  | zero => rw [Nat.pow_zero, Nat.mod_one, fixed, number, List.foldl_nil]
  | succ width ih =>
      rw [fixed, number_append, ih, Nat.pow_succ', Nat.mod_mul, Nat.add_comm, Nat.mul_comm]

theorem fixed_number {digits : List Nat} (small : ∀ digit ∈ digits, digit < base) :
    fixed base digits.length (number base digits) = digits := by
  induction digits using List.reverseRecOn with
  | nil => rfl
  | append_singleton before digit ih =>
      have below : digit < base := small digit (by simp)
      have earlier := ih fun other member => small other (List.mem_append_left _ member)
      rw [List.length_append, List.length_singleton, fixed, number_append,
        Nat.mul_add_mod_of_lt below, Nat.mul_comm, Nat.mul_add_div (by omega),
        Nat.div_eq_of_lt below, Nat.add_zero, earlier]

theorem number_lt (positive : 0 < base) {digits : List Nat}
    (small : ∀ digit ∈ digits, digit < base) : number base digits < base ^ digits.length := by
  rw [← fixed_number small, number_fixed, fixed_length]
  exact Nat.mod_lt _ (Nat.pow_pos positive)

/-! Digits in bytes, and texts of digits. -/

def naturals (digits : List UInt8) : List Nat := digits.map UInt8.toNat

theorem naturals_injective : Function.Injective naturals :=
  List.map_injective_iff.mpr fun _ _ => UInt8.toNat_inj.mp

theorem naturals_reverse (digits : List UInt8) :
    naturals digits.reverse = (naturals digits).reverse :=
  List.map_reverse ..

theorem all_found {α β : Type} {read : α → Option β} {sources : List α} {found : List β} :
    sources.mapM read = some found ↔ sources.map read = found.map some := by
  induction sources generalizing found with
  | nil => cases found <;> simp
  | cons source rest ih =>
      rw [List.mapM_cons, List.map_cons]
      cases first : read source with
      | none => cases found <;> simp
      | some value =>
          cases found with
          | nil => cases rest.mapM read <;> simp
          | cons other others => simp [Option.bind_eq_some_iff, ih, and_comm]

/-- Where reading and writing an item are inverse, so are they on lists. -/
theorem read_back {α β : Type} {read : α → Option β} {write : β → Option α}
    (inverse : ∀ item value, read item = some value ↔ write value = some item)
    {items : List α} {values : List β} :
    items.map read = values.map some ↔ values.map write = items.map some := by
  induction items generalizing values with
  | nil => cases values <;> simp
  | cons item rest ih =>
      cases values with
      | nil => simp
      | cons value others => simp [inverse, ih]

end KeryxMiner.BaseConversion
