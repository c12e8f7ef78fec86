import KeryxMiner.LimbNumbers
import KeryxMiner.MaskedWords
import KeryxMiner.StratumClient
import Mathlib.Tactic.IntervalCases

/-!
The target and the range of nonces that a pool sets. A target is the mantissa times
`0xffff` at a bit position that the exponent gives.
-/

namespace KeryxMiner.PoolSettings

open MinerJobs StratumMessages StratumClient

/-! Targets. -/

def targetValue (limbs : Limbs) : Nat :=
  limbs.toList.foldr (fun limb rest => limb.toNat + 2 ^ 64 * rest) 0

def newMantissa (difficulty : Difficulty) : UInt64 := difficulty.mantissa * difficulty1Target.1

/-- The bit position. -/
def newExponent (difficulty : Difficulty) : UInt64 :=
  (difficulty1Target.2 + difficulty.exponent).toInt64.toUInt64

def start (difficulty : Difficulty) : Nat := (newExponent difficulty / 64).toNat

def remainder (difficulty : Difficulty) : UInt64 := newExponent difficulty % 64

/-- The amounts of the shifts of `set_difficulty`. -/
def shiftAmounts (difficulty : Difficulty) : List UInt64 :=
  if start difficulty < 3 then [remainder difficulty, 64 - remainder difficulty]
  else [remainder difficulty]

/-- What `integer_decode` can give for the reciprocal of a positive difficulty. -/
structure Decoded (difficulty : Difficulty) : Prop where
  mantissa : difficulty.mantissa.toNat < 2 ^ 24
  low : -150 ≤ difficulty.exponent.toInt
  high : difficulty.exponent.toInt ≤ 104

def exactTarget (difficulty : Difficulty) : Nat :=
  difficulty.mantissa.toNat * 0xffff * 2 ^ (208 + difficulty.exponent.toInt).toNat

/-- A difficulty is refused exactly when its target does not fit. -/
structure SetsTarget (difficulty : Difficulty) (handler : StratumHandler) : Prop where
  shifts : ∀ amount ∈ shiftAmounts difficulty, amount < 64
  fits : exactTarget difficulty < 2 ^ 256 → ∃ target, targetValue target = exactTarget difficulty ∧
    setDifficulty difficulty handler = ({ handler with targetPool := target }, .ok)
  refused : 2 ^ 256 ≤ exactTarget difficulty → ∃ error,
    setDifficulty difficulty handler = (handler, .failed error)

theorem new_exponent_value {difficulty : Difficulty} (decoded : Decoded difficulty) :
    (newExponent difficulty).toNat = (208 + difficulty.exponent.toInt).toNat := by
  have low := decoded.low
  have high := decoded.high
  have sum : (difficulty1Target.2 + difficulty.exponent).toInt = 208 + difficulty.exponent.toInt := by
    rw [Int16.toInt_add]
    exact Int.bmod_eq_of_le (by simp [difficulty1Target]; omega) (by simp [difficulty1Target]; omega)
  have wide : 0 ≤ (difficulty1Target.2 + difficulty.exponent).toInt64 := by
    rw [Int64.le_iff_toInt_le, Int16.toInt_toInt64, sum, Int64.toInt_zero]
    omega
  rw [newExponent, Int64.toNat_toUInt64_of_le wide, ← Int64.toNat_toInt, Int16.toInt_toInt64, sum]

theorem leading_zeros_lt (word : UInt64) {count : Nat} (small : count < 64) :
    leadingZeros word < count ↔ 2 ^ 64 ≤ word.toNat * 2 ^ count := by
  have above : word.toNat < 2 ^ (64 - leadingZeros word) := BitVec.toNat_lt_two_pow_sub_clz
  constructor
  · intro few
    have present : word.toBitVec ≠ 0 := by
      rintro zero
      have all : leadingZeros word = 64 := by rw [leadingZeros, zero]; rfl
      omega
    have below : 2 ^ (63 - leadingZeros word) ≤ word.toNat :=
      BitVec.two_pow_sub_clz_le_toNat_of_ne_zero (by decide) present
    calc 2 ^ 64 ≤ 2 ^ (63 - leadingZeros word + count) := Nat.pow_le_pow_right (by decide) (by omega)
      _ = 2 ^ (63 - leadingZeros word) * 2 ^ count := Nat.pow_add ..
      _ ≤ word.toNat * 2 ^ count := Nat.mul_le_mul_right _ below
  · intro exceeds
    by_contra many
    have within : word.toNat * 2 ^ count < 2 ^ 64 :=
      calc word.toNat * 2 ^ count < 2 ^ (64 - leadingZeros word) * 2 ^ count :=
            Nat.mul_lt_mul_of_pos_right above (Nat.two_pow_pos count)
        _ = 2 ^ (64 - leadingZeros word + count) := (Nat.pow_add ..).symm
        _ ≤ 2 ^ 64 := Nat.pow_le_pow_right (by decide) (by
            have := Nat.le_of_not_lt many
            omega)
    omega

/-! Limbs. -/

theorem crossing (word count : UInt64) (positive : 0 < count.toNat) (small : count.toNat < 64) :
    (word <<< count).toNat + 2 ^ 64 * (word >>> (64 - count)).toNat =
      word.toNat * 2 ^ count.toNat := by
  have rest : 64 - count = UInt64.ofNat (64 - count.toNat) := by
    rw [← UInt64.toNat_inj, UInt64.toNat_sub_of_le _ _
      (UInt64.le_iff_toNat_le.mpr (Nat.le_of_lt small)), UInt64.toNat_ofNat']
    exact (Nat.mod_eq_of_lt (by simp; omega)).symm
  have left := LimbNumbers.shifted_low word small
  rw [UInt64.ofNat_toNat] at left
  rw [left, rest, LimbNumbers.shifted_high word positive small, Nat.mod_add_div]

def zeroLimbs : Limbs := Vector.replicate 4 0

theorem zero_limbs_eq : zeroLimbs = #v[0, 0, 0, 0] := rfl

theorem two_limbs {start : Nat} (top : start < 3) (bottom upper : UInt64) :
    targetValue ((zeroLimbs.set start bottom).set (start + 1) upper) =
      (bottom.toNat + 2 ^ 64 * upper.toNat) * 2 ^ (64 * start) := by
  interval_cases start
  · simp [targetValue, zero_limbs_eq]
  · simp [targetValue, zero_limbs_eq]
    omega
  · simp [targetValue, zero_limbs_eq]
    omega

theorem top_limb (limb : UInt64) :
    targetValue (zeroLimbs.set 3 limb) = limb.toNat * 2 ^ 192 := by
  simp [targetValue, zero_limbs_eq]
  omega

/-! The cases of `set_difficulty`. -/

section Cases
variable {difficulty : Difficulty}

def bottomLimb (difficulty : Difficulty) (bound : start difficulty < 4) : Limbs :=
  zeroLimbs.set (start difficulty) (newMantissa difficulty <<< remainder difficulty) bound

def crossedLimbs (difficulty : Difficulty) (top : start difficulty < 3) : Limbs :=
  (bottomLimb difficulty (by omega)).set (start difficulty + 1)
    (newMantissa difficulty >>> (64 - remainder difficulty))

theorem set_difficulty_eq (handler : StratumHandler) : setDifficulty difficulty handler =
    if bound : start difficulty < 4 then
      if top : start difficulty < 3 then
        ({ handler with targetPool := crossedLimbs difficulty top }, .ok)
      else if leadingZeros (newMantissa difficulty) < (remainder difficulty).toNat then
        (handler, .failed "Target is too big")
      else ({ handler with targetPool := bottomLimb difficulty bound }, .ok)
    else (handler, .panicked) := rfl

theorem start_eq : start difficulty = (newExponent difficulty).toNat / 64 := UInt64.toNat_div ..

theorem remainder_eq : (remainder difficulty).toNat = (newExponent difficulty).toNat % 64 :=
  UInt64.toNat_mod ..

theorem remainder_small : (remainder difficulty).toNat < 64 := by
  rw [remainder_eq]
  exact Nat.mod_lt _ (by decide)

theorem shifts_iff : (∀ amount ∈ shiftAmounts difficulty, amount < 64) ↔
    (start difficulty < 3 → 0 < (remainder difficulty).toNat) := by
  have small : remainder difficulty < 64 := UInt64.lt_iff_toNat_lt.mpr remainder_small
  have rest : (64 - remainder difficulty).toNat = 64 - (remainder difficulty).toNat := by
    rw [UInt64.toNat_sub_of_le _ _ (UInt64.le_of_lt small)]
    rfl
  have second : 64 - remainder difficulty < 64 ↔ 0 < (remainder difficulty).toNat := by
    have bound := @remainder_small difficulty
    rw [UInt64.lt_iff_toNat_lt, rest]
    change 64 - (remainder difficulty).toNat < 64 ↔ _
    omega
  unfold shiftAmounts
  split
  · rename_i low
    simp [low, small, second]
  · rename_i top
    simp [top, small]

variable (decoded : Decoded difficulty) (handler : StratumHandler)
include decoded

theorem new_mantissa_value :
    (newMantissa difficulty).toNat = difficulty.mantissa.toNat * 0xffff := by
  have small := decoded.mantissa
  rw [newMantissa, UInt64.toNat_mul]
  exact Nat.mod_eq_of_lt (by simp [difficulty1Target]; omega)

theorem exact_target_eq : exactTarget difficulty =
    (newMantissa difficulty).toNat * 2 ^ (remainder difficulty).toNat *
      2 ^ (64 * start difficulty) := by
  have position : (208 + difficulty.exponent.toInt).toNat =
      (remainder difficulty).toNat + 64 * start difficulty := by
    rw [← new_exponent_value decoded, remainder_eq, start_eq, Nat.mod_add_div]
  rw [exactTarget, ← new_mantissa_value decoded, position, Nat.pow_add, Nat.mul_assoc]

theorem low_fits (low : start difficulty < 3) : exactTarget difficulty < 2 ^ 256 := by
  have small : (newMantissa difficulty).toNat < 2 ^ 40 := by
    have mantissa := decoded.mantissa
    rw [new_mantissa_value decoded]
    omega
  have within : 2 ^ (remainder difficulty).toNat * 2 ^ (64 * start difficulty) ≤ 2 ^ 191 := by
    have bound := @remainder_small difficulty
    rw [← Nat.pow_add]
    exact Nat.pow_le_pow_right (by decide) (by omega)
  rw [exact_target_eq decoded, Nat.mul_assoc]
  calc _ ≤ (newMantissa difficulty).toNat * 2 ^ 191 := Nat.mul_le_mul_left _ within
    _ < 2 ^ 256 := by omega

/-- The product crosses into the next limb. -/
theorem sets_low (low : start difficulty < 3) :
    SetsTarget difficulty handler ↔ 0 < (remainder difficulty).toNat := by
  constructor
  · exact fun sets => shifts_iff.mp sets.shifts low
  · intro unaligned
    have exact := exact_target_eq decoded
    rw [← crossing _ _ unaligned remainder_small, ← two_limbs low] at exact
    constructor
    · exact shifts_iff.mpr fun _ => unaligned
    · intro _
      refine ⟨crossedLimbs difficulty low, exact.symm, ?_⟩
      rw [set_difficulty_eq, dif_pos (by omega), dif_pos low]
    · intro large
      exact absurd (low_fits decoded low) (Nat.not_lt.mpr large)

theorem sets_top (top : start difficulty = 3) : SetsTarget difficulty handler := by
  have exact := exact_target_eq decoded
  have fits : exactTarget difficulty < 2 ^ 256 ↔
      (newMantissa difficulty).toNat * 2 ^ (remainder difficulty).toNat < 2 ^ 64 := by
    rw [exact, top]
    omega
  have zeros := leading_zeros_lt (newMantissa difficulty) (@remainder_small difficulty)
  constructor
  · exact shifts_iff.mpr fun low => by omega
  · intro small
    have shifted : (newMantissa difficulty <<< remainder difficulty).toNat =
        (newMantissa difficulty).toNat * 2 ^ (remainder difficulty).toNat := by
      rw [UInt64.toNat_shiftLeft, Nat.mod_eq_of_lt remainder_small, Nat.shiftLeft_eq,
        Nat.mod_eq_of_lt (fits.mp small)]
    refine ⟨bottomLimb difficulty (by omega), ?_, ?_⟩
    · simp only [bottomLimb, top]
      rw [top_limb, shifted, exact, top]
    -- The test of the leading zeros is the test that no bit of the product is lost.
    · rw [set_difficulty_eq, dif_pos (by omega), dif_neg (by omega),
        if_neg (by rw [zeros]; exact Nat.not_le.mpr (fits.mp small))]
  · intro large
    refine ⟨"Target is too big", ?_⟩
    rw [set_difficulty_eq, dif_pos (by omega), dif_neg (by omega),
      if_pos (zeros.mpr (Nat.not_lt.mp fun small => absurd (fits.mpr small) (by omega)))]

omit decoded in
theorem sets_beyond (beyond : 4 ≤ start difficulty) : ¬ SetsTarget difficulty handler := by
  have panics : setDifficulty difficulty handler = (handler, .panicked) := by
    rw [set_difficulty_eq, dif_neg (by omega)]
  intro sets
  rcases Nat.lt_or_ge (exactTarget difficulty) (2 ^ 256) with small | large
  · obtain ⟨_, _, set⟩ := sets.fits small
    exact absurd (congrArg Prod.snd (panics.symm.trans set)) nofun
  · obtain ⟨_, refused⟩ := sets.refused large
    exact absurd (congrArg Prod.snd (panics.symm.trans refused)) nofun

end Cases

/-- The exact target, except at the exponents of a word boundary in the lower limbs and at
those past the top limb. -/
theorem set_difficulty_exact_iff (difficulty : Difficulty) (decoded : Decoded difficulty)
    (handler : StratumHandler) : SetsTarget difficulty handler ↔
      difficulty.exponent.toInt < 48 ∧ difficulty.exponent.toInt ≠ -144 ∧
        difficulty.exponent.toInt ≠ -80 := by
  have low := decoded.low
  have high := decoded.high
  have position := new_exponent_value decoded
  have start := @start_eq difficulty
  have rest := @remainder_eq difficulty
  -- Only where two limbs are written does the second shift go by the rest of the word.
  rcases Nat.lt_trichotomy (PoolSettings.start difficulty) 3 with lower | top | beyond
  · rw [sets_low decoded handler lower]
    omega
  · have sets := sets_top decoded handler top
    constructor
    · intro _
      omega
    · exact fun _ => sets
  · have never := sets_beyond handler beyond
    constructor
    · exact fun sets => absurd sets never
    · intro _
      omega

def connected : StratumHandler := StratumHandler.connect 0 ⟨0, 0, 0, 0, ∅⟩

theorem set_difficulty_exact_one : SetsTarget ⟨0x800000, -23⟩ connected :=
  (set_difficulty_exact_iff ⟨0x800000, -23⟩ ⟨by decide, by decide, by decide⟩ connected).mpr
    (by decide)

/-- A shift of the word width, and a limb past the top one. -/
theorem target_misplaced :
    ¬ SetsTarget ⟨0x800000, -80⟩ connected ∧ ¬ SetsTarget ⟨0x800000, 48⟩ connected := by
  constructor
  · intro sets
    exact absurd (sets.shifts 64 (by decide)) (by decide)
  · exact sets_beyond connected (by decide)

/-! Ranges of nonces. -/

def pushValue (value : Nat) (c : Char) : Nat := 16 * value + (hexDigit c).getD 0

/-- The number that a text of hex digits, with or without a plus sign, denotes. -/
def hexValue (text : String) : Nat :=
  match text.toList with
  | '+' :: digits => digits.foldl pushValue 0
  | digits => digits.foldl pushValue 0

/-- The extranonce is the high part of the nonces. -/
structure Placed (extranonce : String) (nonceSize : UInt32) (handler : StratumHandler) : Prop where
  shift : (nonceSize * 8).toUInt64 < 64
  mask : handler.nonceMask.toNat = 2 ^ (8 * nonceSize.toNat) - 1
  fixed : handler.nonceFixed.toNat = hexValue extranonce * 2 ^ (8 * nonceSize.toNat)
  disjoint : handler.nonceFixed &&& handler.nonceMask = 0
  nonces : ∀ nonce, (∃ counter, nonce = (counter &&& handler.nonceMask) ||| handler.nonceFixed) ↔
    nonce.toNat / 2 ^ (8 * nonceSize.toNat) = hexValue extranonce

/-- A failure changes nothing. -/
structure SameRange (before after : StratumHandler) : Prop where
  extranonce : after.extranonce = before.extranonce
  fixed : after.nonceFixed = before.nonceFixed
  mask : after.nonceMask = before.nonceMask

def SetsRange (extranonce : String) (nonceSize : UInt32) (handler : StratumHandler) : Prop :=
  match setExtranonce extranonce nonceSize handler with
  | (after, .ok) => Placed extranonce nonceSize after
  | (after, .failed _) => SameRange handler after
  | (_, .panicked) => False

def Fits (extranonce : String) (nonceSize : UInt32) (handler : StratumHandler) : Prop :=
  match fromStrRadix16 extranonce with
  | .error _ => handler.extranonce = some extranonce
  | .ok _ => nonceSize.toNat < 8 ∧ hexValue extranonce < 2 ^ (64 - 8 * nonceSize.toNat)

theorem push_digit_value {value next : Nat} {c : Char} (pushed : pushDigit value c = .ok next) :
    pushValue value c = next ∧ next < 2 ^ 64 := by
  unfold pushDigit at pushed
  split at pushed
  · cases pushed
  · rename_i digit present
    split at pushed
    · rename_i small
      obtain rfl := Except.ok.inj pushed
      exact ⟨by rw [pushValue, present, Option.getD_some], small⟩
    · cases pushed

theorem push_digits_value (digits : List Char) {value result : Nat}
    (pushed : digits.foldlM pushDigit value = .ok result) :
    digits.foldl pushValue value = result ∧ (value < 2 ^ 64 → result < 2 ^ 64) := by
  induction digits generalizing value with
  | nil =>
      obtain rfl := Except.ok.inj pushed
      exact ⟨rfl, id⟩
  | cons c rest ih =>
      rw [List.foldlM_cons] at pushed
      cases first : pushDigit value c with
      | error e =>
          rw [first] at pushed
          cases pushed
      | ok next =>
          rw [first] at pushed
          obtain ⟨value_next, small⟩ := push_digit_value first
          obtain ⟨folded, bounded⟩ := ih pushed
          rw [List.foldl_cons, value_next]
          exact ⟨folded, fun _ => bounded small⟩

theorem digits_value {digits : List Char} {word : UInt64}
    (parsed : (digits.foldlM pushDigit 0).map UInt64.ofNat = .ok word) :
    word.toNat = digits.foldl pushValue 0 := by
  cases pushed : digits.foldlM pushDigit 0 with
  | error e =>
      rw [pushed] at parsed
      cases parsed
  | ok result =>
      rw [pushed] at parsed
      obtain rfl := Except.ok.inj parsed
      obtain ⟨folded, bounded⟩ := push_digits_value digits pushed
      rw [folded, UInt64.toNat_ofNat', Nat.mod_eq_of_lt (bounded (by decide))]

theorem from_str_radix_value {text : String} {word : UInt64}
    (parsed : fromStrRadix16 text = .ok word) : word.toNat = hexValue text := by
  unfold fromStrRadix16 at parsed
  unfold hexValue
  split at parsed
  · cases parsed
  · cases parsed
  · rename_i digits _ characters
    rw [characters]
    exact digits_value parsed
  · rename_i _ _ unsigned
    split
    · rename_i digits characters
      exact absurd characters (unsigned digits)
    · exact digits_value parsed

/-! The cases of `set_extranonce`. -/

section Extranonces
variable {extranonce : String} {nonceSize : UInt32} (handler : StratumHandler)

theorem shift_amount (small : nonceSize.toNat < 8) :
    (nonceSize * 8).toUInt64.toNat = 8 * nonceSize.toNat := by
  rw [UInt32.toNat_toUInt64, UInt32.toNat_mul, Nat.mul_comm]
  exact Nat.mod_eq_of_lt (by
    change 8 * nonceSize.toNat < 2 ^ 32
    omega)

theorem shifted_value (small : nonceSize.toNat < 8) (word : UInt64) :
    (word <<< (nonceSize * 8).toUInt64).toNat =
      word.toNat * 2 ^ (8 * nonceSize.toNat) % 2 ^ 64 := by
  have amount : (nonceSize * 8).toUInt64.toNat % 64 = 8 * nonceSize.toNat := by
    rw [shift_amount small, Nat.mod_eq_of_lt (by omega)]
  rw [UInt64.toNat_shiftLeft, amount, Nat.shiftLeft_eq]

theorem unit_value (small : nonceSize.toNat < 8) :
    (1 <<< (nonceSize * 8).toUInt64 : UInt64).toNat = 2 ^ (8 * nonceSize.toNat) := by
  rw [shifted_value small, UInt64.toNat_one, Nat.one_mul]
  exact Nat.mod_eq_of_lt (Nat.pow_lt_pow_right (by decide) (by omega))

theorem mask_value (small : nonceSize.toNat < 8) (fixed : UInt64) :
    (handler.withExtranonce extranonce nonceSize fixed).nonceMask.toNat =
      2 ^ (8 * nonceSize.toNat) - 1 := by
  have positive : (1 : UInt64) ≤ 1 <<< (nonceSize * 8).toUInt64 := by
    rw [UInt64.le_iff_toNat_le, unit_value small]
    exact Nat.two_pow_pos _
  rw [StratumHandler.withExtranonce, UInt64.toNat_sub_of_le _ _ positive, unit_value small,
    UInt64.toNat_one]

/-- No bit of the extranonce is lost in a word when what is left of it is long enough. -/
theorem shifted_fits {width : Nat} (value : Nat) (within : width ≤ 64) :
    value * 2 ^ width < 2 ^ 64 ↔ value < 2 ^ (64 - width) := by
  have whole : 2 ^ 64 = 2 ^ (64 - width) * 2 ^ width := by
    rw [← Nat.pow_add, Nat.sub_add_cancel within]
  rw [whole]
  exact Nat.mul_lt_mul_right (Nat.two_pow_pos width)

theorem placed_of_fits {fixed : UInt64} (parsed : fromStrRadix16 extranonce = .ok fixed)
    (small : nonceSize.toNat < 8) (fits : hexValue extranonce < 2 ^ (64 - 8 * nonceSize.toNat)) :
    Placed extranonce nonceSize (handler.withExtranonce extranonce nonceSize fixed) := by
  have masks := @mask_value extranonce nonceSize handler small fixed
  have exact : (handler.withExtranonce extranonce nonceSize fixed).nonceFixed.toNat =
      hexValue extranonce * 2 ^ (8 * nonceSize.toNat) := by
    rw [StratumHandler.withExtranonce, shifted_value small, from_str_radix_value parsed]
    exact Nat.mod_eq_of_lt ((shifted_fits _ (by omega)).mpr fits)
  have disjoint := (MaskedWords.disjoint_iff masks).mpr (by rw [exact, Nat.mul_mod_left])
  constructor
  · rw [UInt64.lt_iff_toNat_lt, shift_amount small]
    change _ < 64
    omega
  · exact masks
  · exact exact
  · exact disjoint
  · intro nonce
    rw [MaskedWords.placed_iff masks disjoint, exact, Nat.mul_div_cancel _ (Nat.two_pow_pos _)]

theorem fits_of_placed (placed : Placed extranonce nonceSize handler) :
    nonceSize.toNat < 8 ∧ hexValue extranonce < 2 ^ (64 - 8 * nonceSize.toNat) := by
  have within := MaskedWords.width_le placed.mask
  have small : nonceSize.toNat < 8 := by
    by_contra large
    -- The mask has at most 64 bits, so only the size of the whole word is left.
    have eight : nonceSize = 8 := by
      apply UInt32.toNat_inj.mp
      change nonceSize.toNat = 8
      omega
    have shift := placed.shift
    rw [eight] at shift
    exact absurd shift (by decide)
  refine ⟨small, (shifted_fits _ within).mp ?_⟩
  rw [← placed.fixed]
  exact UInt64.toNat_lt _

end Extranonces

/-- A refused text changes nothing exactly when it is the one kept before. -/
theorem set_extranonce_exact_iff (extranonce : String) (nonceSize : UInt32)
    (handler : StratumHandler) :
    SetsRange extranonce nonceSize handler ↔ Fits extranonce nonceSize handler := by
  unfold SetsRange Fits setExtranonce
  cases parsed : fromStrRadix16 extranonce with
  -- The text is stored before it is parsed.
  | error e => exact ⟨fun same => same.extranonce.symm, fun kept => ⟨kept.symm, rfl, rfl⟩⟩
  | ok fixed =>
      constructor
      · exact fits_of_placed _
      · exact fun fits => placed_of_fits handler parsed fits.1 fits.2

/-- A refused text, a size of the whole word, and an extranonce longer than its part. -/
theorem range_misplaced : ¬ SetsRange "x" 4 connected ∧ ¬ SetsRange "0" 8 connected ∧
    ¬ SetsRange "1ff" 7 connected := by
  refine ⟨?_, ?_, ?_⟩
  · intro same
    exact absurd same.extranonce (by decide)
  · intro placed
    exact absurd placed.shift (by decide)
  · intro placed
    exact absurd placed.fixed (by decide)

end KeryxMiner.PoolSettings
