import KeryxMiner.Reciprocal
import Mathlib.Data.Nat.Log
import Mathlib.Data.Nat.Prime.Basic

/-!
`mod_magic` of `src/pom_gpu.rs` and `fast_mod` of `cuda/pom_mine.cu`. The scan
records the amount of every shift it performs on its 128-bit numerator; a shift
of 128 or more is taken modulo 128, as compiled without overflow checks. The
sampling self-test is kept as it is and never evaluated.
-/

namespace KeryxMiner.ModMagic

open Reciprocal

def mulhi64 (a b : UInt64) : UInt64 := UInt64.ofNat (a.toNat * b.toNat / 2 ^ 64)

structure Magic where
  magic : UInt64
  shift : Nat

/-- The kernel's remainder; magic 0 selects the plain one. -/
def fastMod (a magic : UInt64) (shift : Nat) (d : UInt64) : UInt64 :=
  if magic = 0 then a % d
  else
    let q := mulhi64 a magic >>> UInt64.ofNat shift
    a - q * d

/-! The self-test. -/

def check (m : Magic) (d a : UInt64) : Bool :=
  let q := mulhi64 a m.magic >>> UInt64.ofNat m.shift
  a - q * d == a % d

def sampleRounds : Nat := 1000000

/-- A splitmix64 generator; every sample must pass. -/
def samplesPass (test : UInt64 → Bool) : Nat → UInt64 → Bool
  | 0, _ => true
  | rounds + 1, rng =>
      let rng := rng + 0x9E3779B97F4A7C15
      let z := rng
      let z := (z ^^^ (z >>> 30)) * 0xBF58476D1CE4E5B9
      let z := (z ^^^ (z >>> 27)) * 0x94D049BB133111EB
      let z := z ^^^ (z >>> 31)
      test z && samplesPass test rounds rng

def edgeCases (d : UInt64) : List UInt64 :=
  [0, 1, d - 1, d, d + 1, 0xFFFFFFFFFFFFFFFF, d * 2 - 1, d * 2, d * 2 + 1, d * 3]

def verifyModMagic (m : Magic) (d : UInt64) : Bool :=
  if m.magic = 0 ∨ 63 < m.shift then false
  else samplesPass (check m d) sampleRounds 0 && (edgeCases d).all (check m d)

/-! The scan. -/

structure Scan where
  found : Magic
  /-- Amounts of the 128-bit shifts performed, in order. -/
  shifts : List Nat

def noMagic : Magic := { magic := 0, shift := 0 }

/-- `ceil(2^(64+shift) / d)` on a 128-bit numerator. -/
def numerator (d shift : Nat) : Nat := (2 ^ ((64 + shift) % 128) + d - 1) / d

def scan (d : UInt64) (p : Nat) : List Nat → Scan
  | [] => { found := noMagic, shifts := [] }
  | extra :: rest =>
      let shift := p - 1 + extra
      -- the sum in the source stays far below 2^128, only the shift can leave the width
      let num := numerator d.toNat shift
      let candidate := { magic := UInt64.ofNat num, shift }
      if num ≤ 2 ^ 64 - 1 ∧ verifyModMagic candidate d = true then
        { found := candidate, shifts := [64 + shift] }
      else
        let later := scan d p rest
        { later with shifts := (64 + shift) :: later.shifts }

/-- The number of leading zeros of a positive 64-bit word is `63 - log2`. -/
def modMagic (d : UInt64) : Scan :=
  if d ≤ 1 then { found := noMagic, shifts := [] }
  else scan d (64 - (63 - d.toNat.log2)) (List.range 64)

/-! One reduction on the fast path. -/

theorem shifted_quotient (a magic : UInt64) {shift : Nat} (small : shift < 64) :
    (mulhi64 a magic >>> UInt64.ofNat shift).toNat =
      a.toNat * magic.toNat / 2 ^ (64 + shift) := by
  have a_bound := a.toNat_lt
  have magic_bound := magic.toNat_lt
  have high : a.toNat * magic.toNat / 2 ^ 64 < 2 ^ 64 := by
    rw [Nat.div_lt_iff_lt_mul (by decide)]
    exact Nat.mul_lt_mul'' a_bound magic_bound
  have amount : (UInt64.ofNat shift).toNat % 64 = shift := by
    rw [UInt64.toNat_ofNat']
    omega
  rw [UInt64.toNat_shiftRight, amount, mulhi64, UInt64.toNat_ofNat', Nat.mod_eq_of_lt high,
    Nat.shiftRight_eq_div_pow, Nat.div_div_eq_div_mul, ← Nat.pow_add]

/-- With a quotient that is at most one too large, the wrapped remainder is right
only when the quotient is. -/
theorem remainder_iff (a q d : UInt64) (positive : 0 < d.toNat)
    (lower : a.toNat / d.toNat ≤ q.toNat) (upper : q.toNat ≤ a.toNat / d.toNat + 1) :
    a - q * d = a % d ↔ q.toNat = a.toNat / d.toNat := by
  have division := Nat.div_add_mod a.toNat d.toNat
  have rest := Nat.mod_lt a.toNat positive
  have a_bound := a.toNat_lt
  have d_bound := d.toNat_lt
  rw [← UInt64.toNat_inj, UInt64.toNat_sub, UInt64.toNat_mul, UInt64.toNat_mod]
  rcases Nat.eq_or_lt_of_le lower with same | above
  · rw [← same, Nat.mul_comm (a.toNat / d.toNat)]
    omega
  · have next : q.toNat * d.toNat = d.toNat * (a.toNat / d.toNat) + d.toNat := by
      rw [show q.toNat = a.toNat / d.toNat + 1 by omega]
      rw [Nat.add_mul, Nat.one_mul, Nat.mul_comm]
    rw [next]
    omega

/-- A rounded-up reciprocal that fits 64 bits, at the least shift. -/
structure Candidate (d m : UInt64) (shift excess : Nat) : Prop where
  positive : 0 < d.toNat
  small : shift < 64
  some_magic : m ≠ 0
  product : m.toNat * d.toNat = 2 ^ (64 + shift) + excess
  rounded : excess ≤ d.toNat

theorem check_iff {d m : UInt64} {shift excess : Nat} (candidate : Candidate d m shift excess)
    (a : UInt64) :
    check { magic := m, shift } d a = true ↔
      a.toNat * m.toNat / 2 ^ (64 + shift) = a.toNat / d.toNat := by
  obtain ⟨positive, small, _, product, rounded⟩ := candidate
  have some_unit : 0 < 2 ^ (64 + shift) := Nat.two_pow_pos _
  have inside : a.toNat ≤ 2 ^ (64 + shift) := by
    have grows : 2 ^ 64 ≤ 2 ^ (64 + shift) := Nat.pow_le_pow_right (by decide) (by omega)
    have bound := a.toNat_lt
    omega
  have lower := quotient_ge positive some_unit product a.toNat
  have upper := quotient_le positive some_unit product rounded a.toNat inside
  rw [← shifted_quotient a m small] at lower upper ⊢
  rw [check, beq_iff_eq]
  exact remainder_iff a _ d positive lower upper

theorem fast_mod_iff {d m : UInt64} {shift excess : Nat} (candidate : Candidate d m shift excess) :
    (∀ a, fastMod a m shift d = a % d) ↔ hardest d.toNat (2 ^ 64) * excess < 2 ^ (64 + shift) := by
  have some_unit : 0 < 2 ^ (64 + shift) := Nat.two_pow_pos _
  rw [← exact_below_iff candidate.positive some_unit candidate.product
    (Nat.le_of_lt d.toNat_lt)]
  have each : ∀ a, fastMod a m shift d = a % d ↔
      a.toNat * m.toNat / 2 ^ (64 + shift) = a.toNat / d.toNat := by
    intro a
    rw [fastMod, if_neg candidate.some_magic, ← check_iff candidate, check, beq_iff_eq]
  constructor
  · intro reduces a below
    have word := (each (UInt64.ofNat a)).mp (reduces _)
    rwa [UInt64.toNat_ofNat', Nat.mod_eq_of_lt below] at word
  · intro divides a
    exact (each a).mpr (divides a.toNat a.toNat_lt)

theorem samples_pass (test : UInt64 → Bool) (passes : ∀ a, test a = true) (rounds : Nat)
    (rng : UInt64) : samplesPass test rounds rng = true := by
  induction rounds generalizing rng with
  | zero => rfl
  | succ rounds ih => simp [samplesPass, passes, ih]

/-- An exact candidate passes the self-test. -/
theorem verify_exact {d m : UInt64} {shift excess : Nat} (candidate : Candidate d m shift excess)
    (tight : hardest d.toNat (2 ^ 64) * excess < 2 ^ (64 + shift)) :
    verifyModMagic { magic := m, shift } d = true := by
  have passes : ∀ a, check { magic := m, shift } d a = true := by
    intro a
    have reduces := (fast_mod_iff candidate).mpr tight a
    rw [fastMod, if_neg candidate.some_magic] at reduces
    rw [check, beq_iff_eq]
    exact reduces
  have allowed : ¬ (m = 0 ∨ 63 < shift) := by
    have small := candidate.small
    rintro (zero | large)
    · exact candidate.some_magic zero
    · omega
  rw [verifyModMagic, if_neg allowed, samples_pass _ passes]
  simp [passes]

/-! The scan over shifts. Only its first candidate can fit 64 bits: one shift
more and the reciprocal needs 65, until the shift itself leaves the kernel's range. -/

def Rejected (d : UInt64) (shift : Nat) : Prop :=
  ¬ (numerator d.toNat shift ≤ 2 ^ 64 - 1 ∧
    verifyModMagic { magic := UInt64.ofNat (numerator d.toNat shift), shift } d = true)

theorem scan_rejected (d : UInt64) (p : Nat) (extras : List Nat)
    (rejected : ∀ extra ∈ extras, Rejected d (p - 1 + extra)) :
    scan d p extras =
      { found := noMagic, shifts := extras.map fun extra => 64 + (p - 1 + extra) } := by
  induction extras with
  | nil => rfl
  | cons extra rest ih =>
      have here := rejected extra (by simp)
      rw [scan, if_neg here, ih fun later member => rejected later (List.mem_cons_of_mem _ member)]
      rfl

theorem wide_rejected (d : UInt64) {shift : Nat} (positive : 0 < d.toNat)
    (wide : d.toNat ≤ 2 ^ shift ∨ 63 < shift) : Rejected d shift := by
  rintro ⟨fits, verified⟩
  rcases Nat.lt_or_ge 63 shift with large | small
  · rw [verifyModMagic, if_pos (Or.inr large)] at verified
    contradiction
  · have covered : d.toNat ≤ 2 ^ shift := by
      rcases wide with covered | large
      · exact covered
      · omega
    have amount : (64 + shift) % 128 = 64 + shift := by omega
    have quotient : 2 ^ 64 ≤ numerator d.toNat shift := by
      rw [numerator, amount, Nat.le_div_iff_mul_le positive, Nat.pow_add]
      have scaled : 2 ^ 64 * d.toNat ≤ 2 ^ 64 * 2 ^ shift := Nat.mul_le_mul_left _ covered
      omega
    omega

/-- Off the powers of two the reciprocal at the least shift fits 64 bits. -/
theorem first_candidate (d : UInt64) (several : 2 ≤ d.toNat)
    (uneven : d.toNat ≠ 2 ^ d.toNat.log2) :
    numerator d.toNat d.toNat.log2 ≤ 2 ^ 64 - 1 ∧
      Candidate d (UInt64.ofNat (numerator d.toNat d.toNat.log2)) d.toNat.log2
        (d.toNat - 2 ^ (64 + d.toNat.log2) % d.toNat) := by
  have bound := d.toNat_lt
  have low := Nat.log2_self_le (n := d.toNat) (by omega)
  have small : d.toNat.log2 < 64 := (Nat.log2_lt (by omega)).mpr bound
  have half : 2 ^ d.toNat.log2 ≤ 2 ^ 63 := Nat.pow_le_pow_right (by decide) (by omega)
  have amount : (64 + d.toNat.log2) % 128 = 64 + d.toNat.log2 := by omega
  have unit : 2 ^ (64 + d.toNat.log2) = 2 ^ 64 * 2 ^ d.toNat.log2 := Nat.pow_add 2 64 _
  have remainder : 0 < 2 ^ (64 + d.toNat.log2) % d.toNat := by
    rw [Nat.pos_iff_ne_zero, ne_eq, ← Nat.dvd_iff_mod_eq_zero]
    intro divides
    obtain ⟨exponent, _, power⟩ := (Nat.dvd_prime_pow Nat.prime_two).mp divides
    exact uneven (by rw [power, Nat.log2_two_pow])
  have rest := Nat.mod_lt (2 ^ (64 + d.toNat.log2)) (show 0 < d.toNat by omega)
  have division := Nat.div_add_mod (2 ^ (64 + d.toNat.log2)) d.toNat
  obtain ⟨q, quotient⟩ : ∃ q, 2 ^ (64 + d.toNat.log2) / d.toNat = q := ⟨_, rfl⟩
  rw [quotient] at division
  have ceiling : numerator d.toNat d.toNat.log2 = q + 1 := by
    rw [numerator, amount, ← division]
    rw [show d.toNat * q + 2 ^ (64 + d.toNat.log2) % d.toNat + d.toNat - 1 =
      2 ^ (64 + d.toNat.log2) % d.toNat - 1 + d.toNat * (q + 1) by rw [Nat.mul_succ]; omega,
      Nat.add_mul_div_left _ _ (by omega), Nat.div_eq_of_lt (by omega), Nat.zero_add]
  have fits : q + 1 ≤ 2 ^ 64 - 1 := by
    have under : q < 2 ^ 64 - 1 := by
      rw [← quotient, Nat.div_lt_iff_lt_mul (by omega), unit]
      omega
    omega
  have word : (UInt64.ofNat (q + 1)).toNat = q + 1 := by
    rw [UInt64.toNat_ofNat']
    omega
  rw [ceiling]
  refine ⟨fits, by omega, small, ?_, ?_, Nat.sub_le _ _⟩
  · intro zero
    rw [zero] at word
    simp at word
  · rw [word, Nat.mul_comm, Nat.mul_succ]
    omega

theorem scan_start (d : UInt64) (several : 2 ≤ d.toNat) :
    modMagic d = scan d (d.toNat.log2 + 1) (List.range 64) := by
  have bound := d.toNat_lt
  have small : d.toNat.log2 < 64 := (Nat.log2_lt (by omega)).mpr bound
  have large : ¬ d ≤ 1 := by
    rw [UInt64.le_iff_toNat_le]
    have one : (1 : UInt64).toNat = 1 := rfl
    omega
  rw [modMagic, if_neg large, show 64 - (63 - d.toNat.log2) = d.toNat.log2 + 1 by omega]

theorem later_rejected (d : UInt64) (several : 2 ≤ d.toNat) (extra : Nat) (later : 1 ≤ extra) :
    Rejected d (d.toNat.log2 + 1 - 1 + extra) := by
  apply wide_rejected d (by omega)
  left
  have high := Nat.lt_log2_self (n := d.toNat)
  have grows : 2 ^ (d.toNat.log2 + 1) ≤ 2 ^ (d.toNat.log2 + 1 - 1 + extra) :=
    Nat.pow_le_pow_right (by decide) (by omega)
  omega

theorem mod_magic_fallback (d : UInt64) (several : 2 ≤ d.toNat)
    (rejected : Rejected d d.toNat.log2) :
    (modMagic d).found = noMagic ∧ 127 + d.toNat.log2 ∈ (modMagic d).shifts := by
  have all_rejected : ∀ extra ∈ List.range 64, Rejected d (d.toNat.log2 + 1 - 1 + extra) := by
    intro extra _
    rcases Nat.eq_zero_or_pos extra with rfl | later
    · exact rejected
    · exact later_rejected d several extra later
  rw [scan_start d several, scan_rejected d _ _ all_rejected]
  exact ⟨rfl, List.mem_map.mpr ⟨63, by decide, by omega⟩⟩

theorem mod_magic_first (d : UInt64) (several : 2 ≤ d.toNat)
    (accepted : ¬ Rejected d d.toNat.log2) :
    modMagic d =
      { found := { magic := UInt64.ofNat (numerator d.toNat d.toNat.log2), shift := d.toNat.log2 }
        shifts := [64 + d.toNat.log2] } := by
  have range : List.range 64 = 0 :: List.range' 1 63 := by decide
  rw [scan_start d several, range, scan, Nat.add_sub_cancel, Nat.add_zero,
    if_pos (not_not.mp accepted)]

/-- Reductions by `d` are exact, and the scan shifts within its 128 bits. -/
def ReducesExactly (d : UInt64) : Prop :=
  (∀ a, fastMod a (modMagic d).found.magic (modMagic d).found.shift d = a % d) ∧
    ∀ amount ∈ (modMagic d).shifts, amount < 128

/-- `d` is 1, or not a power of two and the hardest dividend stays below the
next quotient. -/
def ExactDivisor (d : UInt64) : Prop :=
  d = 1 ∨ (d.toNat ≠ 2 ^ d.toNat.log2 ∧
    (d.toNat * (2 ^ 64 / d.toNat) - 1) * (d.toNat - 2 ^ (64 + d.toNat.log2) % d.toNat) <
      2 ^ (64 + d.toNat.log2))

instance (d : UInt64) : Decidable (ExactDivisor d) := inferInstanceAs (Decidable (_ ∨ _))

theorem reduces_by_one : ReducesExactly 1 := by
  have plain : modMagic 1 = { found := noMagic, shifts := [] } := rfl
  refine ⟨fun a => ?_, ?_⟩
  · rw [plain]
    rfl
  · rw [plain]
    simp

theorem reduces_iff (d : UInt64) (several : 2 ≤ d.toNat) :
    ReducesExactly d ↔ ExactDivisor d := by
  have one : (1 : UInt64).toNat = 1 := rfl
  have not_one : d ≠ 1 := by
    rintro rfl
    omega
  -- once the first candidate is rejected the scan runs to its end and shifts too far
  by_cases rejected : Rejected d d.toNat.log2
  · obtain ⟨_, reached⟩ := mod_magic_fallback d several rejected
    have rises : 1 ≤ d.toNat.log2 := (Nat.le_log2 (by omega)).mpr (by omega)
    refine iff_of_false (fun exact_all => ?_) ?_
    · have inside := exact_all.2 _ reached
      omega
    · rintro (same | ⟨uneven, tight⟩)
      · exact not_one same
      · obtain ⟨fits, candidate⟩ := first_candidate d several uneven
        exact rejected ⟨fits, verify_exact candidate tight⟩
  · have uneven : d.toNat ≠ 2 ^ d.toNat.log2 := by
      intro power
      exact rejected (wide_rejected d (by omega) (Or.inl (by omega)))
    obtain ⟨_, candidate⟩ := first_candidate d several uneven
    have small := candidate.small
    rw [ReducesExactly, mod_magic_first d several rejected]
    simp only [List.mem_singleton, forall_eq, fast_mod_iff candidate, ExactDivisor, not_one,
      false_or, uneven, ne_eq, not_false_eq_true, true_and, hardest]
    exact and_iff_left (by omega)

theorem mod_magic_exact_iff (d : UInt64) (positive : 1 ≤ d) :
    ReducesExactly d ↔ ExactDivisor d := by
  rw [UInt64.le_iff_toNat_le] at positive
  have one : (1 : UInt64).toNat = 1 := rfl
  rcases Nat.lt_or_ge d.toNat 2 with single | several
  · obtain rfl : d = 1 := UInt64.toNat_inj.mp (by omega)
    exact iff_of_true reduces_by_one (Or.inl rfl)
  · exact reduces_iff d several

theorem mod_magic_exact_three : ReducesExactly 3 :=
  (mod_magic_exact_iff 3 (by decide)).mpr (by decide)

/-- Dividing by 2: the scan shifts by 128. -/
theorem mod_magic_overflows_two : ¬ ∀ d : UInt64, 1 ≤ d → ReducesExactly d := by
  intro claimed
  obtain ⟨_, inside⟩ := claimed 2 (by decide)
  have rejected : Rejected 2 (2 : UInt64).toNat.log2 :=
    wide_rejected 2 (by decide) (Or.inl (by decide))
  obtain ⟨_, reached⟩ := mod_magic_fallback 2 (by decide) rejected
  exact absurd (inside _ reached) (by decide)

end KeryxMiner.ModMagic
