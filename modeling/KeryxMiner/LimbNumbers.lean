import Mathlib.Order.Compare
import Mathlib.Tactic.Ring

/-!
Numbers in limbs of 64 bits, the lowest limb first.
-/

namespace KeryxMiner.LimbNumbers

def number : List UInt64 → Nat
  | [] => 0
  | limb :: rest => limb.toNat + 2 ^ 64 * number rest

theorem number_lt (limbs : List UInt64) : number limbs < 2 ^ (64 * limbs.length) := by
  induction limbs with
  | nil => decide
  | cons limb rest ih =>
      have bound := limb.toNat_lt
      have widen : 2 ^ (64 * (rest.length + 1)) = 2 ^ 64 * 2 ^ (64 * rest.length) := by
        rw [← Nat.pow_add]
        congr 1
        omega
      rw [number, List.length_cons, widen]
      omega

theorem number_append (low high : List UInt64) :
    number (low ++ high) = number low + 2 ^ (64 * low.length) * number high := by
  induction low with
  | nil => simp [number]
  | cons limb rest ih =>
      rw [List.cons_append, number, ih, number, List.length_cons, Nat.mul_succ, Nat.pow_add]
      ring

/-! One limb. -/

theorem limb_eq (limbs : List UInt64) {k : Nat} (inside : k < limbs.length) :
    limbs[k].toNat = number limbs / 2 ^ (64 * k) % 2 ^ 64 := by
  induction limbs generalizing k with
  | nil => cases inside
  | cons limb rest ih =>
      have bound := limb.toNat_lt
      cases k with
      | zero =>
          rw [List.getElem_cons_zero, number, Nat.mul_zero, Nat.pow_zero, Nat.div_one]
          omega
      | succ k =>
          have shift : 2 ^ (64 * (k + 1)) = 2 ^ 64 * 2 ^ (64 * k) := by
            rw [← Nat.pow_add]
            congr 1
            omega
          have dropped : (limb.toNat + 2 ^ 64 * number rest) / 2 ^ 64 = number rest := by omega
          rw [List.getElem_cons_succ, ih (Nat.lt_of_succ_lt_succ inside), number, shift,
            ← Nat.div_div_eq_div_mul, dropped]

/-- A sum in one limb is a sum of the number. -/
theorem number_set (limbs : List UInt64) {k : Nat} (inside : k < limbs.length) {term : UInt64}
    (fits : limbs[k].toNat + term.toNat < 2 ^ 64) :
    number (limbs.set k (limbs[k] + term)) = number limbs + term.toNat * 2 ^ (64 * k) := by
  induction limbs generalizing k with
  | nil => cases inside
  | cons limb rest ih =>
      cases k with
      | zero =>
          rw [List.getElem_cons_zero] at fits ⊢
          rw [List.set_cons_zero, number, number, UInt64.toNat_add, Nat.mod_eq_of_lt fits]
          omega
      | succ k =>
          rw [List.getElem_cons_succ] at fits ⊢
          rw [List.set_cons_succ, number, number, ih (Nat.lt_of_succ_lt_succ inside) fits,
            Nat.mul_succ, Nat.pow_add]
          ring

theorem number_take_succ (limbs : List UInt64) {k : Nat} (inside : k < limbs.length) :
    number (limbs.take (k + 1)) = number (limbs.take k) + limbs[k].toNat * 2 ^ (64 * k) := by
  rw [List.take_add_one, List.getElem?_eq_getElem inside, number_append, List.length_take,
    Nat.min_eq_left (Nat.le_of_lt inside), Option.toList_some, number, number, Nat.mul_zero,
    Nat.add_zero, Nat.mul_comm]

/-! A limb shifted across two. -/

section Shifts
variable (word : UInt64) {count : Nat}

theorem shifted_low (bound : count < 64) :
    (word <<< UInt64.ofNat count).toNat = word.toNat * 2 ^ count % 2 ^ 64 := by
  have amount : (UInt64.ofNat count).toNat % 64 = count := by
    rw [UInt64.toNat_ofNat']
    omega
  rw [UInt64.toNat_shiftLeft, amount, Nat.shiftLeft_eq]

theorem shifted_high (positive : 0 < count) (bound : count < 64) :
    (word >>> UInt64.ofNat (64 - count)).toNat = word.toNat * 2 ^ count / 2 ^ 64 := by
  have amount : (UInt64.ofNat (64 - count)).toNat % 64 = 64 - count := by
    rw [UInt64.toNat_ofNat']
    omega
  have whole : 2 ^ 64 = 2 ^ (64 - count) * 2 ^ count := by
    rw [← Nat.pow_add, Nat.sub_add_cancel (Nat.le_of_lt bound)]
  rw [UInt64.toNat_shiftRight, amount, Nat.shiftRight_eq_div_pow, whole,
    Nat.mul_div_mul_right _ _ (Nat.two_pow_pos count)]

/-- What a shift leaves in the lower limb, below the bits that come from the limb before. -/
theorem shifted_low_room (bound : count < 64) :
    word.toNat * 2 ^ count % 2 ^ 64 + 2 ^ count ≤ 2 ^ 64 := by
  have whole : 2 ^ 64 = 2 ^ (64 - count) * 2 ^ count := by
    rw [← Nat.pow_add, Nat.sub_add_cancel (Nat.le_of_lt bound)]
  have below : word.toNat % 2 ^ (64 - count) + 1 ≤ 2 ^ (64 - count) :=
    Nat.mod_lt _ (Nat.two_pow_pos _)
  rw [whole, Nat.mul_mod_mul_right, ← Nat.succ_mul]
  exact Nat.mul_le_mul_right _ below

end Shifts

/-! The order. -/

theorem compare_split {low high base : Nat} (a b : Nat) (left : low < base) (right : high < base) :
    compare (low + base * a) (high + base * b) = (compare a b).then (compare low high) := by
  rcases Nat.lt_trichotomy a b with less | rfl | more
  · have step : base * (a + 1) ≤ base * b := Nat.mul_le_mul_left base less
    rw [Nat.mul_succ] at step
    rw [compare_lt_iff_lt.mpr less]
    change _ = Ordering.lt
    rw [compare_lt_iff_lt]
    omega
  · rw [compare_eq_iff_eq.mpr rfl]
    change _ = compare low high
    rcases Nat.lt_trichotomy low high with below | rfl | above
    · rw [compare_lt_iff_lt.mpr below, compare_lt_iff_lt]
      omega
    · rw [compare_eq_iff_eq.mpr rfl, compare_eq_iff_eq.mpr rfl]
    · rw [compare_gt_iff_gt.mpr above, compare_gt_iff_gt]
      omega
  · have step : base * (b + 1) ≤ base * a := Nat.mul_le_mul_left base more
    rw [Nat.mul_succ] at step
    rw [compare_gt_iff_gt.mpr more]
    change _ = Ordering.gt
    rw [compare_gt_iff_gt]
    omega

end KeryxMiner.LimbNumbers
