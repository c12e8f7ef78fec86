import Mathlib.Algebra.BigOperators.Group.Finset.Basic
import Mathlib.Algebra.BigOperators.Ring.Finset
import Mathlib.Algebra.Group.Hom.End
import Mathlib.Data.Nat.Bitwise

/-!
Polynomials over the field of two elements as numbers, the bit of weight `2 ^ i` for the
`i`th power, and their values at an element of a ring where every element is its own
negation. Products are reduced by a relation of the element's powers.
-/

namespace KeryxMiner.BitPolynomials

/-! Numbers. The modulus is `2 ^ degree` with `low` below it. -/

section Numbers
variable (degree low : Nat)

/-- A polynomial times the variable. -/
def shifted (poly : Nat) : Nat := (2 * poly % 2 ^ degree) ^^^ (2 * poly / 2 ^ degree * low)

/-- The product by the `count` lowest coefficients of `right`, from the highest. -/
def productFrom (left right : Nat) : Nat → Nat → Nat
  | 0, poly => poly
  | count + 1, poly =>
      productFrom left right count (shifted degree low poly ^^^ (right / 2 ^ count % 2 * left))

def product (left right : Nat) : Nat := productFrom degree low left right degree 0

def squared : Nat → Nat → Nat
  | 0, poly => poly
  | count + 1, poly => squared count (product degree low poly poly)

theorem shifted_small {degree low poly : Nat} (lowSmall : low < 2 ^ degree)
    (small : poly < 2 ^ degree) : shifted degree low poly < 2 ^ degree := by
  have carry : 2 * poly / 2 ^ degree < 2 := by
    rw [Nat.div_lt_iff_lt_mul (Nat.two_pow_pos degree)]
    omega
  refine Nat.xor_lt_two_pow (Nat.mod_lt _ (Nat.two_pow_pos degree)) ?_
  exact Nat.lt_of_le_of_lt (Nat.mul_le_mul_right low (Nat.le_of_lt_succ carry)) (by omega)

theorem coefficient_small {degree left : Nat} (right count : Nat) (small : left < 2 ^ degree) :
    right / 2 ^ count % 2 * left < 2 ^ degree := by
  have bit := Nat.le_of_lt_succ (Nat.mod_lt (right / 2 ^ count) Nat.two_pos)
  exact Nat.lt_of_le_of_lt (Nat.mul_le_mul_right left bit) (by omega)

theorem product_from_small {degree low left : Nat} (lowSmall : low < 2 ^ degree) (right : Nat)
    (leftSmall : left < 2 ^ degree) (count : Nat) {poly : Nat} (small : poly < 2 ^ degree) :
    productFrom degree low left right count poly < 2 ^ degree := by
  induction count generalizing poly with
  | zero => exact small
  | succ count ih =>
      exact ih (Nat.xor_lt_two_pow (shifted_small lowSmall small)
        (coefficient_small right count leftSmall))

theorem product_small {degree low left : Nat} (lowSmall : low < 2 ^ degree) (right : Nat)
    (leftSmall : left < 2 ^ degree) : product degree low left right < 2 ^ degree :=
  product_from_small lowSmall right leftSmall degree (Nat.two_pow_pos degree)

end Numbers

/-! Values. -/

section Values
variable {R : Type} [Ring R] (t : R)

def value (width poly : Nat) : R :=
  ∑ i ∈ Finset.range width, if poly.testBit i then t ^ i else 0

theorem value_none (poly : Nat) : value t 0 poly = 0 := Finset.sum_range_zero _

theorem value_zero (width : Nat) : value t width 0 = 0 := by
  simp [value]

theorem value_succ (width poly : Nat) :
    value t (width + 1) poly = value t width poly + if poly.testBit width then t ^ width else 0 :=
  Finset.sum_range_succ ..

theorem value_one (width : Nat) : value t (width + 1) 1 = 1 := by
  rw [value, Finset.sum_range_succ', Finset.sum_eq_zero]
  · simp
  · intro i _
    simp [Nat.testBit_succ]

theorem value_mod (width poly : Nat) : value t width (poly % 2 ^ width) = value t width poly := by
  apply Finset.sum_congr rfl
  intro i member
  rw [Nat.testBit_mod_two_pow, decide_eq_true (Finset.mem_range.mp member), Bool.true_and]

theorem value_twice (width poly : Nat) :
    value t (width + 1) (2 * poly) = t * value t width poly := by
  rw [value, Finset.sum_range_succ', value, Finset.mul_sum]
  simp [Nat.testBit_succ, pow_succ']

theorem value_variable (width : Nat) : value t (width + 2) 2 = t :=
  (value_twice t (width + 1) 1).trans (by rw [value_one, mul_one])

/-- Two polynomials in one number. -/
theorem value_joined (width others low high : Nat) (small : low < 2 ^ width) :
    value t (width + others) (low + 2 ^ width * high) =
      value t width low + t ^ width * value t others high := by
  rw [value, Finset.sum_range_add]
  congr 1
  · rw [← value, ← value_mod, Nat.add_mul_mod_self_left, value_mod]
  · rw [value, Finset.mul_sum]
    apply Finset.sum_congr rfl
    intro i _
    rw [Nat.add_comm width i, Nat.testBit_add, Nat.add_mul_div_left _ _ (Nat.two_pow_pos width),
      Nat.div_eq_of_lt small, Nat.zero_add, Nat.add_comm i width, pow_add]
    split
    · rfl
    · rw [mul_zero]

theorem value_commutes (width poly : Nat) : Commute t (value t width poly) := by
  apply Commute.sum_right
  intro i _
  split
  · exact Commute.self_pow t i
  · exact Commute.zero_right t

end Values

/-! Products. -/

section Products
variable {R : Type} [Ring R] (double : ∀ r : R, r + r = 0) (t : R) {degree low : Nat}
include double

theorem value_xor (width left right : Nat) :
    value t width (left ^^^ right) = value t width left + value t width right := by
  rw [value, value, value, ← Finset.sum_add_distrib]
  apply Finset.sum_congr rfl
  intro i _
  rw [Nat.testBit_xor]
  cases left.testBit i <;> cases right.testBit i <;> simp [double]

variable (relation : t ^ degree = value t degree low)
include relation

theorem value_shifted {poly : Nat} (small : poly < 2 ^ degree) :
    value t degree (shifted degree low poly) = t * value t degree poly := by
  rw [shifted, value_xor double, value_mod, ← value_twice, value_succ,
    Nat.testBit_eq_decide_div_mod_eq]
  -- the bit that leaves the width is worth the relation's right side
  have carry : 2 * poly / 2 ^ degree < 2 := by
    rw [Nat.div_lt_iff_lt_mul (Nat.two_pow_pos degree)]
    omega
  congr 1
  rcases Nat.le_one_iff_eq_zero_or_eq_one.mp (Nat.le_of_lt_succ carry) with none | one
  · simp [none, value_zero]
  · simp [one, relation]

theorem value_product_from (lowSmall : low < 2 ^ degree) {left : Nat} (right : Nat)
    (leftSmall : left < 2 ^ degree) (count : Nat) {poly : Nat} (small : poly < 2 ^ degree) :
    value t degree (productFrom degree low left right count poly) =
      t ^ count * value t degree poly + value t count right * value t degree left := by
  induction count generalizing poly with
  | zero => rw [productFrom, pow_zero, one_mul, value_none, zero_mul, add_zero]
  | succ count ih =>
      have next : shifted degree low poly ^^^ (right / 2 ^ count % 2 * left) < 2 ^ degree :=
        Nat.xor_lt_two_pow (shifted_small lowSmall small) (coefficient_small right count leftSmall)
      rw [productFrom, ih next, value_xor double, value_shifted double t relation small,
        value_succ, Nat.testBit_eq_decide_div_mod_eq, mul_add, pow_succ, mul_assoc, add_mul,
        add_assoc]
      congr 1
      rcases Nat.mod_two_eq_zero_or_one (right / 2 ^ count) with absent | present
      · simp [absent, value_zero]
      · simp [present, add_comm]

theorem value_product (lowSmall : low < 2 ^ degree) {left : Nat} (right : Nat)
    (leftSmall : left < 2 ^ degree) :
    value t degree (product degree low left right) =
      value t degree right * value t degree left := by
  rw [product, value_product_from double t relation lowSmall right leftSmall degree
    (Nat.two_pow_pos degree), value_zero, mul_zero, zero_add]

theorem value_squared (lowSmall : low < 2 ^ degree) (count : Nat) {poly : Nat}
    (small : poly < 2 ^ degree) :
    value t degree (squared degree low count poly) = value t degree poly ^ 2 ^ count := by
  induction count generalizing poly with
  | zero => rw [squared, pow_zero, pow_one]
  | succ count ih =>
      have next : product degree low poly poly < 2 ^ degree :=
        product_small lowSmall poly small
      rw [squared, ih next, value_product double t relation lowSmall poly small, ← pow_two,
        ← pow_mul, ← pow_succ']

end Products

/-! A loop that sums `step ^ i` of a start over the coefficients of a polynomial. -/

section Loops
variable {M : Type} [AddCommGroup M] (step : AddMonoid.End M)

/-- The sum so far and the state. -/
def accumulate (poly : Nat) (loop : M × M) (i : Nat) : M × M :=
  (if poly.testBit i then loop.1 + loop.2 else loop.1, step loop.2)

theorem accumulate_range (poly : Nat) (loop : M × M) (width : Nat) :
    (List.range width).foldl (accumulate step poly) loop =
      (loop.1 + value step width poly loop.2, (step ^ width) loop.2) := by
  induction width with
  | zero => simp [value]
  | succ width ih =>
      have summed (f g : AddMonoid.End M) : (f + g) loop.2 = f loop.2 + g loop.2 := rfl
      rw [List.range_succ, List.foldl_append, ih, List.foldl_cons, List.foldl_nil, accumulate,
        value_succ, summed, ← add_assoc, pow_succ']
      congr 1
      cases poly.testBit width with
      | false => exact (add_zero _).symm
      | true => rfl

end Loops

end KeryxMiner.BitPolynomials
