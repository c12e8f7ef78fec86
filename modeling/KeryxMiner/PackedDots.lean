import Mathlib.Algebra.BigOperators.Group.Finset.Basic
import Mathlib.Algebra.BigOperators.Intervals
import Mathlib.Algebra.Order.BigOperators.Group.Finset

/-!
Dot products summed in a machine word. An accumulator that adds modulo its width is
exact as long as the sum fits, and a sum over groups or packed lanes is the plain sum.
-/

namespace KeryxMiner.PackedDots

def dot (row vec : Nat → Nat) (count : Nat) : Nat := ∑ j ∈ Finset.range count, row j * vec j

theorem dot_bounded {row vec : Nat → Nat} {bound count : Nat}
    (rows : ∀ j < count, row j ≤ bound) (vecs : ∀ j < count, vec j ≤ bound) :
    dot row vec count ≤ count * (bound * bound) := by
  have each := Finset.sum_le_card_nsmul (Finset.range count) (fun j => row j * vec j)
    (bound * bound) fun j member =>
      Nat.mul_le_mul (rows j (Finset.mem_range.mp member)) (vecs j (Finset.mem_range.mp member))
  rwa [Finset.card_range, Nat.nsmul_eq_mul] at each

theorem dot_mono (row vec : Nat → Nat) {fewer count : Nat} (within : fewer ≤ count) :
    dot row vec fewer ≤ dot row vec count :=
  Finset.sum_le_sum_of_subset (Finset.range_mono within)

theorem dot_congr {row row' vec vec' : Nat → Nat} {count : Nat}
    (rows : ∀ j < count, row j = row' j) (vecs : ∀ j < count, vec j = vec' j) :
    dot row vec count = dot row' vec' count :=
  Finset.sum_congr rfl fun j member => by
    rw [rows j (Finset.mem_range.mp member), vecs j (Finset.mem_range.mp member)]

/-! Accumulators. -/

section Accumulators
variable {Word : Type} (read : Word → Nat) (modulus : Nat) (step : Word → Nat → Word)
  (amount : Nat → Nat)

theorem fold_mod (bounded : ∀ word, read word < modulus)
    (adds : ∀ word j, read (step word j) = (read word + amount j) % modulus)
    (start : Word) (count : Nat) :
    read ((List.range count).foldl step start) =
      (read start + ∑ j ∈ Finset.range count, amount j) % modulus := by
  induction count with
  | zero => simp [Nat.mod_eq_of_lt (bounded start)]
  | succ count ih =>
      rw [List.range_succ, List.foldl_append, List.foldl_cons, List.foldl_nil, adds, ih,
        Nat.mod_add_mod, Finset.sum_range_succ, Nat.add_assoc]

/-- An accumulator that adds `amount` holds the exact sum while the sum fits. -/
theorem fold_exact (adds : ∀ word j, read (step word j) = (read word + amount j) % modulus)
    (start : Word) (count : Nat)
    (fits : read start + ∑ j ∈ Finset.range count, amount j < modulus) :
    read ((List.range count).foldl step start) =
      read start + ∑ j ∈ Finset.range count, amount j := by
  induction count with
  | zero => simp
  | succ count ih =>
      rw [Finset.sum_range_succ] at fits ⊢
      rw [List.range_succ, List.foldl_append, List.foldl_cons, List.foldl_nil, adds,
        ih (by omega), Nat.add_assoc, Nat.mod_eq_of_lt fits]

end Accumulators

/-! Groups of `width` summands. -/

theorem sum_groups (width count : Nat) (amount : Nat → Nat) :
    ∑ i ∈ Finset.range count, ∑ k ∈ Finset.range width, amount (width * i + k) =
      ∑ j ∈ Finset.range (width * count), amount j := by
  induction count with
  | zero => simp
  | succ count ih =>
      rw [Finset.sum_range_succ, ih, Nat.mul_succ, Finset.sum_range_add]

theorem sum_pairs (count : Nat) (amount : Nat → Nat) :
    ∑ i ∈ Finset.range count, (amount (2 * i) + amount (2 * i + 1)) =
      ∑ j ∈ Finset.range (2 * count), amount j := by
  rw [← sum_groups]
  simp [Finset.sum_range_succ]

/-- The lanes of a group, each summed on its own. -/
theorem sum_lanes (width count : Nat) (amount : Nat → Nat) :
    ∑ k ∈ Finset.range width, ∑ i ∈ Finset.range count, amount (width * i + k) =
      ∑ j ∈ Finset.range (width * count), amount j := by
  rw [Finset.sum_comm, sum_groups]

/-! Packed lanes. -/

def lane (base word k : Nat) : Nat := word / base ^ k % base

theorem lane_cons (base low high k : Nat) (small : low < base) :
    lane base (low + base * high) (k + 1) = lane base high k := by
  have positive : 0 < base := Nat.zero_lt_of_lt small
  rw [lane, lane, Nat.pow_succ', ← Nat.div_div_eq_div_mul, Nat.add_mul_div_left _ _ positive,
    Nat.div_eq_of_lt small, Nat.zero_add]

theorem lane_zero (base low high : Nat) (small : low < base) :
    lane base (low + base * high) 0 = low := by
  rw [lane, Nat.pow_zero, Nat.div_one, Nat.add_mul_mod_self_left, Nat.mod_eq_of_lt small]

/-- A lane of twice the bits is a pair of lanes. -/
theorem lane_square_low (base word k : Nat) :
    lane base word (2 * k) = lane (base * base) word k % base := by
  rw [lane, lane, Nat.pow_mul, Nat.pow_two, Nat.mod_mul_right_mod]

theorem lane_square_high (base word k : Nat) :
    lane base word (2 * k + 1) = lane (base * base) word k / base := by
  rw [lane, lane, Nat.pow_succ, Nat.pow_mul, Nat.pow_two, ← Nat.div_div_eq_div_mul,
    Nat.mod_mul_right_div_self]

end KeryxMiner.PackedDots
