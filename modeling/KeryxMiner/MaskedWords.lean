import Mathlib.Algebra.Order.Ring.Nat
import Mathlib.Data.List.Count
import Mathlib.Data.List.Nodup
import Mathlib.Data.Nat.Bitwise
import Mathlib.Data.Nat.ModEq

/-!
Words whose low bits run and whose high bits are fixed. The mask has the low `width`
bits, and the fixed part has none of them.
-/

namespace KeryxMiner.MaskedWords

variable {width : Nat} {mask fixed : UInt64}

theorem width_le (masks : mask.toNat = 2 ^ width - 1) : width ≤ 64 := by
  have bound := mask.toNat_lt
  by_contra wide
  have large : 2 ^ 65 ≤ 2 ^ width := Nat.pow_le_pow_right (by decide) (by omega)
  omega

theorem masked (masks : mask.toNat = 2 ^ width - 1) (word : UInt64) :
    (word &&& mask).toNat = word.toNat % 2 ^ width := by
  rw [UInt64.toNat_and, masks, Nat.and_two_pow_sub_one_eq_mod]

theorem disjoint_iff (masks : mask.toNat = 2 ^ width - 1) :
    fixed &&& mask = 0 ↔ fixed.toNat % 2 ^ width = 0 := by
  rw [← UInt64.toNat_inj, masked masks, UInt64.toNat_zero]

theorem placed (masks : mask.toNat = 2 ^ width - 1) (disjoint : fixed &&& mask = 0)
    (word : UInt64) :
    ((word &&& mask) ||| fixed).toNat = fixed.toNat + word.toNat % 2 ^ width := by
  have whole : fixed.toNat = 2 ^ width * (fixed.toNat / 2 ^ width) :=
    (Nat.mul_div_cancel' (Nat.dvd_of_mod_eq_zero ((disjoint_iff masks).mp disjoint))).symm
  have low : word.toNat % 2 ^ width < 2 ^ width := Nat.mod_lt _ (Nat.two_pow_pos width)
  rw [UInt64.toNat_or, masked masks, Nat.or_comm, whole, ← Nat.two_pow_add_eq_or_of_lt low]

theorem placed_low (masks : mask.toNat = 2 ^ width - 1) (disjoint : fixed &&& mask = 0)
    {low : Nat} (within : low ≤ width) (word : UInt64) :
    ((word &&& mask) ||| fixed).toNat % 2 ^ low = word.toNat % 2 ^ low := by
  have divides : 2 ^ low ∣ 2 ^ width := Nat.pow_dvd_pow 2 within
  have none : fixed.toNat % 2 ^ low = 0 := by
    rw [← Nat.mod_mod_of_dvd _ divides, (disjoint_iff masks).mp disjoint, Nat.zero_mod]
  rw [placed masks disjoint, Nat.add_mod, none, Nat.zero_add, Nat.mod_mod,
    Nat.mod_mod_of_dvd _ divides]

/-- The words placed are those with the fixed part's high bits. -/
theorem placed_iff (masks : mask.toNat = 2 ^ width - 1) (disjoint : fixed &&& mask = 0)
    (word : UInt64) : (∃ counter, word = (counter &&& mask) ||| fixed) ↔
      word.toNat / 2 ^ width = fixed.toNat / 2 ^ width := by
  have whole := Nat.mul_div_cancel' (Nat.dvd_of_mod_eq_zero ((disjoint_iff masks).mp disjoint))
  constructor
  · rintro ⟨counter, rfl⟩
    have low : counter.toNat % 2 ^ width < 2 ^ width := Nat.mod_lt _ (Nat.two_pow_pos width)
    rw [placed masks disjoint, ← whole, Nat.mul_add_div (Nat.two_pow_pos width),
      Nat.div_eq_of_lt low, Nat.add_zero, whole]
  · intro same
    refine ⟨word, UInt64.toNat_inj.mp ?_⟩
    rw [placed masks disjoint, ← whole, ← same, Nat.div_add_mod]

/-- Placing a word first does not change where a later one is placed. -/
theorem placed_add (masks : mask.toNat = 2 ^ width - 1) (disjoint : fixed &&& mask = 0)
    (word count : UInt64) : ((((word &&& mask) ||| fixed) + count) &&& mask) ||| fixed =
      ((word + count) &&& mask) ||| fixed := by
  have low := (disjoint_iff masks).mp disjoint
  have divides : 2 ^ width ∣ 2 ^ 64 := Nat.pow_dvd_pow 2 (width_le masks)
  have same : (((word &&& mask) ||| fixed) + count).toNat % 2 ^ width =
      (word + count).toNat % 2 ^ width := by
    rw [UInt64.toNat_add, UInt64.toNat_add, Nat.mod_mod_of_dvd _ divides,
      Nat.mod_mod_of_dvd _ divides, placed masks disjoint, Nat.add_mod, Nat.add_mod fixed.toNat, low,
      Nat.zero_add, Nat.mod_mod, Nat.mod_mod, ← Nat.add_mod]
  rw [← UInt64.toNat_inj, placed masks disjoint, placed masks disjoint, same]

/-- The words placed in a full turn of the low bits, from any word on. -/
theorem turn_once (masks : mask.toNat = 2 ^ width - 1) (disjoint : fixed &&& mask = 0)
    (first word : UInt64) :
    ((List.range (2 ^ width)).map fun i =>
      ((first + UInt64.ofNat i) &&& mask) ||| fixed).count ((word &&& mask) ||| fixed) = 1 := by
  have divides : 2 ^ width ∣ 2 ^ 64 := Nat.pow_dvd_pow 2 (width_le masks)
  have value (i : Nat) : (((first + UInt64.ofNat i) &&& mask) ||| fixed).toNat =
      fixed.toNat + (first.toNat + i) % 2 ^ width := by
    rw [placed masks disjoint, UInt64.toNat_add, Nat.mod_mod_of_dvd _ divides, UInt64.toNat_ofNat',
      Nat.add_mod, Nat.mod_mod_of_dvd _ divides, ← Nat.add_mod]
  apply List.count_eq_one_of_mem
  · apply List.Nodup.map_on _ List.nodup_range
    intro i inside j inside' same
    have values := congrArg UInt64.toNat same
    rw [value, value] at values
    have congruent : i ≡ j [MOD 2 ^ width] :=
      Nat.ModEq.add_left_cancel' first.toNat (Nat.add_left_cancel values)
    exact congruent.eq_of_lt_of_lt (List.mem_range.mp inside) (List.mem_range.mp inside')
  · -- the distance from the first word, in the low bits
    rw [List.mem_map]
    refine ⟨(word - first).toNat % 2 ^ width,
      List.mem_range.mpr (Nat.mod_lt _ (Nat.two_pow_pos width)), ?_⟩
    rw [← UInt64.toNat_inj, value, placed masks disjoint, Nat.add_mod_mod]
    congr 1
    rw [← Nat.mod_mod_of_dvd _ divides, ← UInt64.toNat_add, UInt64.add_comm, UInt64.sub_add_cancel]

end KeryxMiner.MaskedWords
