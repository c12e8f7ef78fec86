import KeryxMiner.HeavyHash
import KeryxMiner.LimbNumbers

/-!
`Uint256` of `src/target.rs` as a number of 256 bits: its shift, its order and the compact
form of a target. A limb addition that overflows is `none`.
-/

namespace KeryxMiner.Targets

open ByteCodec HeavyHash LimbNumbers PomPrimitives

def value (x : Words) : Nat := number x.items

/-! `Uint256`. -/

def fromU64 (init : UInt64) : Words := ⟨[init, 0, 0, 0], rfl⟩

/-- `Default::default()`. -/
def zero : Words := ⟨[0, 0, 0, 0], rfl⟩

/-- `ret[i] += term`. -/
def addLimb (ret : Words) (i : Nat) (term : UInt64) : Option Words :=
  if inside : i < ret.items.length then
    if ret.items[i].toNat + term.toNat < 2 ^ 64 then
      some ⟨ret.items.set i (ret.items[i] + term), by rw [List.length_set, ret.sized]⟩
    else none
  else none

/-- The turn of `shl` for one limb: the shift, then the carry. -/
def shlLimb (wordShift bitShift : Nat) (original : Words) (ret : Words) (i : Fin 4) :
    Option Words := do
  let shifted ←
    if bitShift < 64 ∧ i.val + wordShift < 4 then
      addLimb ret (i.val + wordShift) (original.get i <<< UInt64.ofNat bitShift)
    else some ret
  if 0 < bitShift ∧ i.val + wordShift + 1 < 4 then
    addLimb shifted (i.val + wordShift + 1) (original.get i >>> UInt64.ofNat (64 - bitShift))
  else some shifted

def shl (x : Words) (shift : Nat) : Option Words :=
  (List.finRange 4).foldlM (shlLimb (shift / 64) (shift % 64) x) zero

def u256FromCompactTarget (bits : UInt32) : Option Words :=
  let unshiftedExpt := bits >>> 24
  let (mant, expt) : UInt32 × UInt32 :=
    if unshiftedExpt ≤ 3 then ((bits &&& 0xFFFFFF) >>> ((8 : UInt32) * (3 - unshiftedExpt)), 0)
    else (bits &&& 0xFFFFFF, (8 : UInt32) * ((bits >>> 24) - 3))
  if 0x7FFFFF < mant then some zero else shl (fromU64 mant.toUInt64) expt.toNat

/-! The shift. -/

theorem value_lt (x : Words) : value x < 2 ^ 256 := by
  have bound := number_lt x.items
  rwa [x.sized] at bound

theorem get_eq (x : Words) (i : Fin 4) (inside : i.val < x.items.length) :
    x.get i = x.items[i.val] := rfl

theorem add_limb_value {ret : Words} {i : Nat} (inside : i < 4) {term : UInt64}
    (fits : value ret / 2 ^ (64 * i) % 2 ^ 64 + term.toNat < 2 ^ 64) :
    ∃ sum, addLimb ret i term = some sum ∧ value sum = value ret + term.toNat * 2 ^ (64 * i) := by
  have within : i < ret.items.length := by
    rw [ret.sized]
    exact inside
  rw [value, ← limb_eq ret.items within] at fits
  unfold addLimb
  rw [dif_pos within, if_pos fits]
  exact ⟨_, rfl, number_set ret.items within fits⟩

/-- The carry goes into a limb that is still zero. -/
theorem add_carry {ret : Words} {k count : Nat} (word : UInt64) (positive : 0 < count)
    (bound : count < 64) (below : value ret < 2 ^ (64 * (k + 1))) (inside : k + 1 < 4) :
    ∃ sum, addLimb ret (k + 1) (word >>> UInt64.ofNat (64 - count)) = some sum ∧
      value sum = value ret + word.toNat * 2 ^ count / 2 ^ 64 * 2 ^ (64 * (k + 1)) := by
  have carried := shifted_high word positive bound
  rw [← carried]
  apply add_limb_value inside
  rw [Nat.div_eq_of_lt below, Nat.zero_mod, Nat.zero_add]
  exact UInt64.toNat_lt _

theorem add_shifted {ret : Words} {k count : Nat} (word : UInt64) (bound : count < 64)
    (below : value ret < 2 ^ count * 2 ^ (64 * k)) (inside : k < 4) :
    ∃ sum, addLimb ret k (word <<< UInt64.ofNat count) = some sum ∧
      value sum = value ret + word.toNat * 2 ^ count % 2 ^ 64 * 2 ^ (64 * k) ∧
      value sum < 2 ^ (64 * (k + 1)) := by
  have room := shifted_low_room word bound
  have shifted := shifted_low word bound
  have quotient : value ret / 2 ^ (64 * k) < 2 ^ count :=
    Nat.div_lt_of_lt_mul (by rwa [Nat.mul_comm])
  have low : value ret / 2 ^ (64 * k) % 2 ^ 64 ≤ value ret / 2 ^ (64 * k) := Nat.mod_le ..
  obtain ⟨sum, added, summed⟩ := @add_limb_value ret k inside (word <<< UInt64.ofNat count)
    (by omega)
  rw [shifted] at summed
  refine ⟨sum, added, summed, ?_⟩
  have widen : 2 ^ (64 * (k + 1)) = 2 ^ 64 * 2 ^ (64 * k) := by
    rw [← Nat.pow_add]
    congr 1
    omega
  calc value sum < 2 ^ count * 2 ^ (64 * k) + word.toNat * 2 ^ count % 2 ^ 64 * 2 ^ (64 * k) := by
        omega
    _ = (2 ^ count + word.toNat * 2 ^ count % 2 ^ 64) * 2 ^ (64 * k) := (Nat.add_mul ..).symm
    _ ≤ 2 ^ 64 * 2 ^ (64 * k) := Nat.mul_le_mul_right _ (by omega)
    _ = 2 ^ (64 * (k + 1)) := widen.symm

/-- The limbs before the `i`th are shifted. -/
def Shifted (x : Words) (shift i : Nat) (ret : Words) : Prop :=
  value ret = number (x.items.take i) * 2 ^ shift % 2 ^ 256

/-- A turn whose limb stays inside, from a number that ends within the shifted limb. -/
theorem near_turn (x : Words) {wordShift count : Nat} (bound : count < 64) (i : Fin 4)
    (near : i.val + wordShift < 4) {ret : Words}
    (below : value ret < 2 ^ count * 2 ^ (64 * (i.val + wordShift))) :
    ∃ next, shlLimb wordShift count x ret i = some next ∧ value next =
      (value ret + (x.get i).toNat * 2 ^ count * 2 ^ (64 * (i.val + wordShift))) % 2 ^ 256 := by
  obtain ⟨shifted, added, summed, small⟩ := add_shifted (x.get i) bound below near
  have exact : value ret + (x.get i).toNat * 2 ^ count * 2 ^ (64 * (i.val + wordShift)) =
      value shifted + (x.get i).toNat * 2 ^ count / 2 ^ 64 * 2 ^ (64 * (i.val + wordShift + 1)) := by
    have parts := Nat.mod_add_div ((x.get i).toNat * 2 ^ count) (2 ^ 64)
    rw [summed, Nat.mul_succ, Nat.pow_add, Nat.add_assoc]
    nth_rewrite 1 [← parts]
    ring
  unfold shlLimb
  rw [if_pos ⟨bound, near⟩, added, Option.bind_eq_bind, Option.bind_some]
  dsimp only
  split
  · rename_i carries
    obtain ⟨next, carried, total⟩ := add_carry (x.get i) carries.1 bound small carries.2
    refine ⟨next, carried, ?_⟩
    rw [exact, ← total, Nat.mod_eq_of_lt (value_lt next)]
  · rename_i drops
    refine ⟨shifted, rfl, ?_⟩
    -- no carry without a shift, and the carry of the last limb is a multiple of the modulus
    rcases Nat.eq_zero_or_pos count with rfl | positive
    · have whole : (x.get i).toNat * 2 ^ 0 / 2 ^ 64 = 0 := by
        rw [Nat.pow_zero, Nat.mul_one]
        exact Nat.div_eq_of_lt (UInt64.toNat_lt _)
      rw [exact, whole, Nat.zero_mul, Nat.add_zero, Nat.mod_eq_of_lt (value_lt shifted)]
    · have last : 64 * (i.val + wordShift + 1) = 256 := by omega
      rw [exact, last, Nat.add_mul_mod_self_right, Nat.mod_eq_of_lt (value_lt shifted)]

theorem shl_limb_shifted (x : Words) (shift : Nat) (i : Fin 4) {ret : Words}
    (shifted : Shifted x shift i ret) :
    ∃ next, shlLimb (shift / 64) (shift % 64) x ret i = some next ∧
      Shifted x shift (i + 1) next := by
  have bound : shift % 64 < 64 := Nat.mod_lt _ (by decide)
  have inside : i.val < x.items.length := by
    rw [x.sized]
    exact i.isLt
  have place : 2 ^ (64 * i.val) * 2 ^ shift = 2 ^ (shift % 64) * 2 ^ (64 * (i.val + shift / 64)) := by
    rw [← Nat.pow_add, ← Nat.pow_add]
    congr 1
    omega
  have total : number (x.items.take (i + 1)) * 2 ^ shift = number (x.items.take i) * 2 ^ shift +
      (x.get i).toNat * 2 ^ (shift % 64) * 2 ^ (64 * (i.val + shift / 64)) := by
    rw [number_take_succ x.items inside, Nat.add_mul, Nat.mul_assoc, place, ← Nat.mul_assoc,
      get_eq x i inside]
  unfold Shifted at shifted ⊢
  rw [total]
  by_cases near : i.val + shift / 64 < 4
  · have before : number (x.items.take i) * 2 ^ shift <
        2 ^ (shift % 64) * 2 ^ (64 * (i.val + shift / 64)) := by
      have start := number_lt (x.items.take i)
      rw [List.length_take, Nat.min_eq_left (Nat.le_of_lt inside)] at start
      rw [← place]
      exact Nat.mul_lt_mul_of_pos_right start (Nat.two_pow_pos shift)
    have fits : 2 ^ (shift % 64) * 2 ^ (64 * (i.val + shift / 64)) ≤ 2 ^ 256 := by
      rw [← Nat.pow_add]
      exact Nat.pow_le_pow_right (by decide) (by omega)
    rw [Nat.mod_eq_of_lt (Nat.lt_of_lt_of_le before fits)] at shifted
    rw [← shifted] at before ⊢
    exact near_turn x bound i near before
  · have far : 2 ^ (64 * (i.val + shift / 64)) = 2 ^ (64 * (i.val + shift / 64) - 256) * 2 ^ 256 := by
      rw [← Nat.pow_add]
      congr 1
      omega
    refine ⟨ret, ?_, ?_⟩
    · unfold shlLimb
      rw [if_neg (by omega), Option.bind_eq_bind, Option.bind_some]
      exact if_neg (by omega)
    · rw [far, ← Nat.mul_assoc, Nat.add_mul_mod_self_right]
      exact shifted

theorem turns_shifted (x : Words) (shift : Nat) {turns : List (Fin 4)} {start : Nat}
    (order : turns.map Fin.val = List.range' start turns.length) {ret : Words}
    (shifted : Shifted x shift start ret) :
    ∃ last, turns.foldlM (shlLimb (shift / 64) (shift % 64) x) ret = some last ∧
      Shifted x shift (start + turns.length) last := by
  induction turns generalizing start ret with
  | nil => exact ⟨ret, rfl, shifted⟩
  | cons i rest ih =>
      rw [List.map_cons, List.length_cons, List.range'_succ, List.cons.injEq] at order
      obtain ⟨rfl, later⟩ := order
      obtain ⟨next, turned, further⟩ := shl_limb_shifted x shift i shifted
      obtain ⟨last, ran, whole⟩ := ih later further
      refine ⟨last, ?_, ?_⟩
      · rw [List.foldlM_cons, turned]
        exact ran
      · rw [List.length_cons, Nat.add_comm rest.length, ← Nat.add_assoc]
        exact whole

theorem shl_value (x : Words) (shift : Nat) :
    ∃ shifted, shl x shift = some shifted ∧ value shifted = value x * 2 ^ shift % 2 ^ 256 := by
  have start : Shifted x shift 0 zero := by
    rw [Shifted, List.take_zero, number, Nat.zero_mul, Nat.zero_mod]
    rfl
  obtain ⟨last, ran, shifted⟩ := @turns_shifted x shift (List.finRange 4) 0 rfl zero start
  refine ⟨last, ran, ?_⟩
  rwa [Shifted, List.take_of_length_le] at shifted
  rw [x.sized]
  exact Nat.le_refl 4

/-! Compact targets. -/

theorem from_u64_value (init : UInt64) : value (fromU64 init) = init.toNat := rfl

/-- The mantissa after the shift of a small exponent. -/
def shiftedMantissa (bits : UInt32) : Nat :=
  if bits.toNat / 2 ^ 24 ≤ 3 then bits.toNat % 2 ^ 24 / 256 ^ (3 - bits.toNat / 2 ^ 24)
  else bits.toNat % 2 ^ 24

/-- `m * 256 ^ (e - 3)`, rounded down, in 256 bits. -/
def compactValue (bits : UInt32) : Nat :=
  if 0x7FFFFF < shiftedMantissa bits then 0
  else bits.toNat % 2 ^ 24 * 256 ^ (bits.toNat / 2 ^ 24) / 256 ^ 3 % 2 ^ 256

theorem expt_value (bits : UInt32) : (bits >>> 24).toNat = bits.toNat / 2 ^ 24 := by
  rw [UInt32.toNat_shiftRight, Nat.shiftRight_eq_div_pow]
  rfl

theorem mant_value (bits : UInt32) : (bits &&& 0xFFFFFF).toNat = bits.toNat % 2 ^ 24 := by
  rw [UInt32.toNat_and]
  exact Nat.and_two_pow_sub_one_eq_mod bits.toNat 24

/-- The mantissa at the position of its exponent, unless it is negative. -/
theorem guarded_value (mant : UInt32) {shift expt exact : Nat} (amount : shift = 8 * expt)
    (scaled : mant.toNat * 256 ^ expt = exact) :
    ∃ target, (if 0x7FFFFF < mant then some zero else shl (fromU64 mant.toUInt64) shift) =
        some target ∧
      value target = if 0x7FFFFF < mant.toNat then 0 else exact % 2 ^ 256 := by
  have negative : 0x7FFFFF < mant ↔ 0x7FFFFF < mant.toNat := UInt32.lt_iff_toNat_lt
  by_cases large : 0x7FFFFF < mant
  · rw [if_pos large, if_pos (negative.mp large)]
    exact ⟨zero, rfl, rfl⟩
  · obtain ⟨target, shifted, placed⟩ := shl_value (fromU64 mant.toUInt64) shift
    rw [if_neg large, if_neg (large ∘ negative.mpr)]
    refine ⟨target, shifted, ?_⟩
    rw [placed, from_u64_value, UInt32.toNat_toUInt64, ← scaled, amount, Nat.pow_mul]

theorem compact_low (bits : UInt32) (low : bits >>> 24 ≤ 3) :
    ((bits &&& 0xFFFFFF) >>> ((8 : UInt32) * ((3 : UInt32) - (bits >>> 24)))).toNat =
      bits.toNat % 2 ^ 24 / 256 ^ (3 - bits.toNat / 2 ^ 24) := by
  have amount : ((8 : UInt32) * ((3 : UInt32) - (bits >>> 24))).toNat = 8 * (3 - bits.toNat / 2 ^ 24) := by
    rw [UInt32.toNat_mul, UInt32.toNat_sub_of_le _ _ low, expt_value]
    exact Nat.mod_eq_of_lt (by simp; omega)
  have short : 8 * (3 - bits.toNat / 2 ^ 24) < 32 := by omega
  rw [UInt32.toNat_shiftRight, amount, Nat.mod_eq_of_lt short, mant_value,
    Nat.shiftRight_eq_div_pow, Nat.pow_mul]

theorem compact_high (bits : UInt32) (high : ¬ bits >>> 24 ≤ 3) :
    ((8 : UInt32) * ((bits >>> 24) - 3)).toNat = 8 * (bits.toNat / 2 ^ 24 - 3) := by
  have above : (3 : UInt32) ≤ bits >>> 24 := UInt32.le_of_lt (UInt32.not_le.mp high)
  have bound := bits.toNat_lt
  rw [UInt32.toNat_mul, UInt32.toNat_sub_of_le _ _ above, expt_value]
  exact Nat.mod_eq_of_lt (by simp; omega)

theorem compact_value (bits : UInt32) : ∃ target, u256FromCompactTarget bits = some target ∧
    value target = compactValue bits := by
  have expt : bits >>> 24 ≤ 3 ↔ bits.toNat / 2 ^ 24 ≤ 3 := by
    rw [UInt32.le_iff_toNat_le, expt_value]
    rfl
  unfold u256FromCompactTarget compactValue shiftedMantissa
  dsimp only
  by_cases low : bits >>> 24 ≤ 3
  · have lowered := compact_low bits low
    have place : 256 ^ 3 = 256 ^ (3 - bits.toNat / 2 ^ 24) * 256 ^ (bits.toNat / 2 ^ 24) := by
      rw [← Nat.pow_add, Nat.sub_add_cancel (expt.mp low)]
    rw [if_pos low, if_pos (expt.mp low), ← lowered]
    apply guarded_value _ (Nat.mul_zero 8).symm
    rw [lowered, Nat.pow_zero, Nat.mul_one, place,
      Nat.mul_div_mul_right _ _ (Nat.pow_pos (by decide))]
  · have raised := compact_high bits low
    have place : 256 ^ (bits.toNat / 2 ^ 24) = 256 ^ (bits.toNat / 2 ^ 24 - 3) * 256 ^ 3 := by
      rw [← Nat.pow_add, Nat.sub_add_cancel (Nat.le_of_not_le (low ∘ expt.mpr))]
    rw [if_neg low, if_neg (low ∘ expt.mpr), ← mant_value]
    apply guarded_value _ raised
    rw [place, ← Nat.mul_assoc, Nat.mul_div_cancel _ (by decide)]

/-! The orders. -/

theorem iterator_cmp_cons (a b : UInt64) (rest others : List UInt64) :
    iteratorCmp (a :: rest) (b :: others) = (compare a b).then (iteratorCmp rest others) := by
  rw [iteratorCmp]
  cases compare a b <;> rfl

theorem compare_words (a b : UInt64) : compare a b = compare a.toNat b.toNat := by
  change compareOfLessAndEq a b = compareOfLessAndEq a.toNat b.toNat
  unfold compareOfLessAndEq
  simp only [UInt64.lt_iff_toNat_lt, ← UInt64.toNat_inj]

/-- Limbs from the last one are compared like the numbers. -/
theorem iterator_cmp_number (first second : List UInt64) (width : first.length = second.length) :
    iteratorCmp first.reverse second.reverse = compare (number first) (number second) := by
  induction first using List.reverseRecOn generalizing second with
  | nil =>
      obtain rfl : second = [] := by simpa using width.symm
      rfl
  | append_singleton low a ih =>
      rcases List.eq_nil_or_concat' second with rfl | ⟨high, b, rfl⟩
      · simp at width
      · have lower : low.length = high.length := by simpa using width
        have bound := number_lt high
        rw [← lower] at bound
        rw [List.reverse_concat, List.reverse_concat, iterator_cmp_cons, ih high lower,
          number_append, number_append, ← lower, compare_split _ _ (number_lt low) bound,
          compare_words]
        simp only [number, Nat.mul_zero, Nat.add_zero]

theorem uint256_cmp_value (a b : Words) : uint256Cmp a b = compare (value a) (value b) :=
  iterator_cmp_number a.items b.items (a.sized.trans b.sized.symm)

theorem decode_concat (limbs : List UInt64) :
    decode (concat (limbs.map toLeBytes)) = number limbs := by
  induction limbs with
  | nil => rfl
  | cons limb rest ih =>
      rw [List.map_cons, concat_cons, decode_append, decode_toLeBytes, (toLeBytes limb).sized, ih,
        number]
      rfl

theorem le_bytes_value (x : Words) : decode (wordsToBytes x).items = value x := by
  rw [words_to_bytes_concat, decode_concat, value]

/-- The limbs are the integers: shifts without an overflow, compact targets and both orders. -/
theorem target_arithmetic_exact :
    (∀ x shift, ∃ shifted, shl x shift = some shifted ∧
        value shifted = value x * 2 ^ shift % 2 ^ 256) ∧
      (∀ bits, ∃ target, u256FromCompactTarget bits = some target ∧
        value target = compactValue bits) ∧
      (∀ a b, uint256Cmp a b = compare (value a) (value b)) ∧
      ∀ a b, leLeq (wordsToBytes a) (wordsToBytes b) = true ↔ value a ≤ value b := by
  refine ⟨shl_value, compact_value, uint256_cmp_value, ?_⟩
  intro a b
  rw [le_leq_iff, le_bytes_value, le_bytes_value]

end KeryxMiner.Targets
