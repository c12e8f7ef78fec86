import Mathlib.Algebra.Group.Nat.Defs
import Mathlib.Data.LawfulXor.Equiv
import Mathlib.Data.UInt
import Mathlib.Logic.Function.Iterate

/-!
Permutations of 64-bit words: the steps of mixers, and folds of them.
-/

namespace KeryxMiner.WordPermutations

/-! A word and its shift under exclusive or. -/

def xorShift (count : Nat) (word : UInt64) : UInt64 :=
  ⟨word.toBitVec ^^^ (word.toBitVec >>> count)⟩

theorem xor_shift_twice (count : Nat) (word : UInt64) :
    xorShift count (xorShift count word) = xorShift (count + count) word := by
  apply UInt64.toBitVec_inj.mp
  -- the two shifts by one count cancel
  simp only [xorShift, BitVec.ushiftRight_xor_distrib, ← BitVec.shiftRight_add]
  rw [BitVec.xor_assoc, ← BitVec.xor_assoc (word.toBitVec >>> count), BitVec.xor_self,
    BitVec.zero_xor]

theorem xor_shift_iterate (doublings count : Nat) :
    (xorShift count)^[2 ^ doublings] = xorShift (2 ^ doublings * count) := by
  induction doublings with
  | zero => rw [Nat.pow_zero, Nat.one_mul, Function.iterate_one]
  | succ doublings ih =>
      funext word
      rw [Nat.pow_succ, Nat.mul_two, Function.iterate_add_apply, ih, xor_shift_twice, Nat.add_mul]

theorem xor_shift_past {count : Nat} (past : 64 ≤ count) (word : UInt64) :
    xorShift count word = word := by
  apply UInt64.toBitVec_inj.mp
  rw [xorShift, BitVec.ushiftRight_eq_zero past, BitVec.xor_zero]

theorem xor_shift_cycle {count : Nat} (positive : 0 < count) (word : UInt64) :
    (xorShift count)^[64] word = word := by
  have doubled : (xorShift count)^[64] word = xorShift (64 * count) word :=
    congrFun (xor_shift_iterate 6 count) word
  rwa [xor_shift_past (Nat.le_mul_of_pos_right 64 positive)] at doubled

def xorShifted (count : Nat) (positive : 0 < count) : Equiv.Perm UInt64 where
  toFun := xorShift count
  invFun := (xorShift count)^[63]
  left_inv word := by
    rw [← Function.iterate_succ_apply, xor_shift_cycle positive]
  right_inv word := by
    rw [← Function.iterate_succ_apply' (xorShift count), xor_shift_cycle positive]

/-! Products, sums and rotations. -/

def multiplied (factor inverse : UInt64) (unit : factor * inverse = 1) : Equiv.Perm UInt64 where
  toFun word := word * factor
  invFun word := word * inverse
  left_inv word := by
    dsimp only
    rw [UInt64.mul_assoc, unit, UInt64.mul_one]
  right_inv word := by
    dsimp only
    rw [UInt64.mul_assoc, UInt64.mul_comm inverse, unit, UInt64.mul_one]

def increased (term : UInt64) : Equiv.Perm UInt64 where
  toFun word := word + term
  invFun word := word - term
  left_inv word := UInt64.add_sub_cancel word term
  right_inv word := UInt64.sub_add_cancel word term

theorem rotate_back (word : BitVec 64) (count : Nat) :
    (word.rotateLeft count).rotateRight count = word := by
  have bound : count % 64 < 64 := Nat.mod_lt count (by decide)
  apply BitVec.eq_of_getElem_eq
  intro i inside
  simp only [BitVec.getElem_rotateRight, BitVec.getElem_rotateLeft]
  split
  · rw [dif_neg (by omega)]
    congr 1
    omega
  · rw [dif_pos (by omega)]
    congr 1
    omega

theorem rotate_forth (word : BitVec 64) (count : Nat) :
    (word.rotateRight count).rotateLeft count = word := by
  have bound : count % 64 < 64 := Nat.mod_lt count (by decide)
  apply BitVec.eq_of_getElem_eq
  intro i inside
  simp only [BitVec.getElem_rotateRight, BitVec.getElem_rotateLeft]
  split
  · rw [dif_neg (by omega)]
    congr 1
    omega
  · rw [dif_pos (by omega)]
    congr 1
    omega

def rotated (count : Nat) : Equiv.Perm UInt64 where
  toFun word := ⟨word.toBitVec.rotateLeft count⟩
  invFun word := ⟨word.toBitVec.rotateRight count⟩
  left_inv word := UInt64.toBitVec_inj.mp (rotate_back word.toBitVec count)
  right_inv word := UInt64.toBitVec_inj.mp (rotate_forth word.toBitVec count)

/-! Folds. -/

section Folds
variable {State Item : Type} (permutation : Item → Equiv.Perm State)

/-- The steps of a list, the first one first. -/
def folded : List Item → Equiv.Perm State
  | [] => Equiv.refl State
  | item :: rest => (permutation item).trans (folded rest)

theorem folded_apply (items : List Item) (state : State) :
    folded permutation items state =
      items.foldl (fun state item => permutation item state) state := by
  induction items generalizing state with
  | nil => rfl
  | cons item rest ih => exact ih (permutation item state)

theorem folded_symm_apply (items : List Item) (state : State) :
    (folded permutation items).symm state =
      items.reverse.foldl (fun state item => (permutation item).symm state) state := by
  induction items generalizing state with
  | nil => rfl
  | cons item rest ih =>
      rw [List.reverse_cons, List.foldl_append, ← ih]
      rfl

end Folds

end KeryxMiner.WordPermutations
