import Mathlib.Data.Nat.Basic
import Mathlib.Tactic.Ring

/-!
Division by a fixed divisor as one multiplication by a rounded-up reciprocal.
`magic * divisor` exceeds `unit` by `excess`; whether a dividend is divided
exactly depends only on that excess, and below a bound the hardest dividend is
the last one before a multiple of the divisor.
-/

namespace KeryxMiner.Reciprocal

variable {unit divisor magic excess : Nat}

theorem scaled_product (product : magic * divisor = unit + excess) (a : Nat) :
    a * magic * divisor = a * unit + a * excess := by
  rw [Nat.mul_assoc, product, Nat.mul_add]

theorem quotient_ge (positive : 0 < divisor) (some_unit : 0 < unit)
    (product : magic * divisor = unit + excess) (a : Nat) :
    a / divisor ≤ a * magic / unit := by
  rw [Nat.le_div_iff_mul_le some_unit]
  apply Nat.le_of_mul_le_mul_right _ positive
  rw [scaled_product product]
  have below : a / divisor * divisor * unit ≤ a * unit :=
    Nat.mul_le_mul_right _ (Nat.div_mul_le_self a divisor)
  calc a / divisor * unit * divisor = a / divisor * divisor * unit := by ring
    _ ≤ a * unit + a * excess := Nat.le_add_right_of_le below

theorem quotient_lt_iff (positive : 0 < divisor) (some_unit : 0 < unit)
    (product : magic * divisor = unit + excess) (a bound : Nat) :
    a * magic / unit < bound ↔ a * unit + a * excess < bound * divisor * unit := by
  rw [Nat.div_lt_iff_lt_mul some_unit, ← Nat.mul_lt_mul_right positive, scaled_product product,
    Nat.mul_right_comm]

theorem quotient_exact_iff (positive : 0 < divisor) (some_unit : 0 < unit)
    (product : magic * divisor = unit + excess) (a : Nat) :
    a * magic / unit = a / divisor ↔ a * excess < (divisor - a % divisor) * unit := by
  have lower := quotient_ge positive some_unit product a
  have exact_iff : a * magic / unit = a / divisor ↔ a * magic / unit < a / divisor + 1 := by omega
  have small := Nat.mod_lt a positive
  have split : (a / divisor + 1) * divisor = a + (divisor - a % divisor) := by
    have division := Nat.div_add_mod a divisor
    rw [Nat.add_mul, Nat.one_mul, Nat.mul_comm (a / divisor)]
    omega
  rw [exact_iff, quotient_lt_iff positive some_unit product, split, Nat.add_mul]
  omega

/-- The rounded-up reciprocal is off by at most one. -/
theorem quotient_le (positive : 0 < divisor) (some_unit : 0 < unit)
    (product : magic * divisor = unit + excess) (rounded : excess ≤ divisor) (a : Nat)
    (inside : a ≤ unit) : a * magic / unit ≤ a / divisor + 1 := by
  apply Nat.le_of_lt_succ
  rw [quotient_lt_iff positive some_unit product]
  have above : a + 1 ≤ (a / divisor + 1) * divisor := Nat.lt_div_mul_add positive |>.trans_eq (by ring)
  have scaled : (a + 1) * unit ≤ (a / divisor + 1) * divisor * unit := Nat.mul_le_mul_right _ above
  have extra : a * excess ≤ divisor * unit := by
    rw [Nat.mul_comm divisor]
    exact Nat.mul_le_mul inside rounded
  have total : (a / divisor + 1 + 1) * divisor * unit =
      (a / divisor + 1) * divisor * unit + divisor * unit := by ring
  rw [Nat.add_mul, Nat.one_mul] at scaled
  rw [Nat.succ_eq_add_one, total]
  omega

/-- The largest dividend below `bound` with the largest remainder. -/
def hardest (divisor bound : Nat) : Nat := divisor * (bound / divisor) - 1

theorem hardest_remainder {bound : Nat} (positive : 0 < divisor) (small : divisor ≤ bound) :
    hardest divisor bound < bound ∧ hardest divisor bound % divisor = divisor - 1 ∧
      divisor ≤ hardest divisor bound + 1 := by
  have below := Nat.mul_div_le bound divisor
  have quotient : 0 < bound / divisor := Nat.div_pos small positive
  obtain ⟨before, same⟩ : ∃ before, bound / divisor = before + 1 := ⟨bound / divisor - 1, by omega⟩
  have split : divisor * (bound / divisor) = divisor * before + divisor := by
    rw [same, Nat.mul_succ]
  refine ⟨by unfold hardest; omega, ?_, by unfold hardest; omega⟩
  have value : hardest divisor bound = divisor - 1 + divisor * before := by
    unfold hardest
    omega
  rw [value, Nat.add_mul_mod_self_left, Nat.mod_eq_of_lt (by omega)]

theorem exact_below_iff {bound : Nat} (positive : 0 < divisor) (some_unit : 0 < unit)
    (product : magic * divisor = unit + excess) (small : divisor ≤ bound) :
    (∀ a < bound, a * magic / unit = a / divisor) ↔ hardest divisor bound * excess < unit := by
  obtain ⟨inside, remainder, large⟩ := hardest_remainder positive small
  constructor
  · intro divides
    have bad := (quotient_exact_iff positive some_unit product _).mp (divides _ inside)
    rwa [remainder, show divisor - (divisor - 1) = 1 by omega, Nat.one_mul] at bad
  · intro tight a below
    rw [quotient_exact_iff positive some_unit product]
    have division := Nat.div_add_mod a divisor
    have rest := Nat.mod_lt a positive
    have quotient : a / divisor ≤ bound / divisor := Nat.div_le_div_right (Nat.le_of_lt below)
    have scaled : divisor * (a / divisor) ≤ divisor * (bound / divisor) :=
      Nat.mul_le_mul_left _ quotient
    rcases Nat.lt_or_ge (a % divisor + 1) divisor with inner | last
    · -- two units of slack, and a is at most twice the hardest dividend
      have double : a ≤ 2 * hardest divisor bound := by
        unfold hardest at large ⊢
        omega
      have twice : a * excess ≤ 2 * (hardest divisor bound * excess) := by
        rw [← Nat.mul_assoc]
        exact Nat.mul_le_mul_right _ double
      have slack : 2 * unit ≤ (divisor - a % divisor) * unit :=
        Nat.mul_le_mul_right _ (by omega)
      omega
    · have quotient_lt : a / divisor < bound / divisor := by
        rw [Nat.lt_iff_add_one_le, Nat.le_div_iff_mul_le positive, Nat.add_mul, Nat.one_mul,
          Nat.mul_comm]
        omega
      have next : divisor * (a / divisor + 1) ≤ divisor * (bound / divisor) :=
        Nat.mul_le_mul_left _ quotient_lt
      have under : a ≤ hardest divisor bound := by
        rw [Nat.mul_succ] at next
        unfold hardest
        omega
      have product_le : a * excess ≤ hardest divisor bound * excess :=
        Nat.mul_le_mul_right _ under
      rw [show divisor - a % divisor = 1 by omega, Nat.one_mul]
      omega

end KeryxMiner.Reciprocal
