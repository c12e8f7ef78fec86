import Mathlib.Algebra.Order.Group.Unbundled.Abs
import Mathlib.Algebra.Order.Ring.Int
import Mathlib.Data.List.Perm.Subperm
import Mathlib.Tactic.Ring

/-!
Sums of bounded integers, in any order, in a signed word.
-/

namespace KeryxMiner.BoundedSums

/-- A sum that leaves the word is `none`. -/
def addWithin (bits : Nat) (acc term : Int) : Option Int :=
  if -2 ^ (bits - 1) ≤ acc + term ∧ acc + term < 2 ^ (bits - 1) then some (acc + term) else none

section Bounds
variable {terms : List Int} {bound : Int}

theorem sum_bound (each : ∀ term ∈ terms, |term| ≤ bound) : |terms.sum| ≤ terms.length * bound := by
  induction terms with
  | nil => simp
  | cons term rest ih =>
      have first := each term List.mem_cons_self
      have others := ih fun other member => each other (List.mem_cons_of_mem term member)
      rw [List.sum_cons, List.length_cons]
      calc |term + rest.sum| ≤ |term| + |rest.sum| := abs_add_le ..
        _ ≤ bound + rest.length * bound := Int.add_le_add first others
        _ = (rest.length + 1 : Nat) * bound := by
          push_cast
          ring

/-- A sum of some of the terms. -/
theorem part_bound (each : ∀ term ∈ terms, |term| ≤ bound) (nonneg : 0 ≤ bound) {part : List Int}
    (within : part.Subperm terms) : |part.sum| ≤ terms.length * bound := by
  have shorter : (part.length : Int) ≤ terms.length := Int.ofNat_le.mpr within.length_le
  calc |part.sum| ≤ part.length * bound :=
        sum_bound fun term member => each term (within.subset member)
    _ ≤ terms.length * bound := Int.mul_le_mul_of_nonneg_right shorter nonneg

end Bounds

theorem add_within {bits : Nat} {acc term : Int} (small : |acc + term| < 2 ^ (bits - 1)) :
    addWithin bits acc term = some (acc + term) := by
  obtain ⟨above, below⟩ := abs_lt.mp small
  exact if_pos ⟨Int.le_of_lt above, below⟩

/-- What comes next is added to a sum of some of the terms. -/
theorem accumulate_rest {bits : Nat} {order : List Int}
    (small : ∀ part : List Int, part.Subperm order → |part.sum| < 2 ^ (bits - 1)) (before rest : List Int)
    (split : order = before ++ rest) :
    rest.foldlM (addWithin bits) before.sum = some order.sum := by
  induction rest generalizing before with
  | nil =>
      rw [split, List.append_nil]
      rfl
  | cons term rest ih =>
      have grown : order = (before ++ [term]) ++ rest := by
        rw [split, List.append_assoc]
        rfl
      have within : (before ++ [term]).Subperm order := by
        rw [grown]
        exact (List.sublist_append_left _ rest).subperm
      have added := small _ within
      have total := ih (before ++ [term]) grown
      rw [List.sum_append, List.sum_singleton] at added total
      rw [List.foldlM_cons, add_within added]
      exact total

theorem accumulate_exact {bits : Nat} {order : List Int}
    (small : ∀ part : List Int, part.Subperm order → |part.sum| < 2 ^ (bits - 1)) :
    order.foldlM (addWithin bits) 0 = some order.sum :=
  accumulate_rest small [] order rfl

end KeryxMiner.BoundedSums
