import KeryxMiner.BoundedSums
import KeryxMiner.FixedModel
import Mathlib.Algebra.BigOperators.Group.List.Basic
import Mathlib.Algebra.Order.Ring.Abs

/-!
The bounds of the fixed-point model, layer after layer.
-/

namespace KeryxMiner.ModelBounds

open BoundedSums ByteCodec FixedModel

/-! Weights. -/

theorem weight_range {he : Int} (positive : 0 < he) (bounded : he ≤ 2 ^ 31) (state : UInt64) :
    -he ≤ (lcgWeight state he).2.toInt ∧ (lcgWeight state he).2.toInt < he := by
  let upper := (state * 6364136223846793005 + 1442695040888963407) >>> 32
  have low := Int32.le_toInt upper.toUInt32.toInt32
  have high := Int32.toInt_lt upper.toUInt32.toInt32
  unfold lcgWeight
  dsimp only
  change _ ≤ (Int32.ofInt ((upper.toUInt32.toInt32.toInt * he) >>> (31 : Nat))).toInt ∧
    (Int32.ofInt ((upper.toUInt32.toInt32.toInt * he) >>> (31 : Nat))).toInt < he
  generalize upper.toUInt32.toInt32.toInt = raw at low high ⊢
  have floor : -he ≤ (raw * he) >>> (31 : Nat) ∧ (raw * he) >>> (31 : Nat) < he := by
    rw [Int.shiftRight_eq_div_pow]
    constructor
    · apply Int.le_ediv_of_mul_le (by decide)
      calc -he * 2 ^ 31 = -2 ^ 31 * he := by ring
        _ ≤ raw * he := Int.mul_le_mul_of_nonneg_right low (Int.le_of_lt positive)
    · apply Int.ediv_lt_of_lt_mul (by decide)
      rw [Int.mul_comm he]
      exact Int.mul_lt_mul_of_pos_right high positive
  rw [Int32.toInt_ofInt_of_le (by omega) (by omega)]
  exact floor

theorem weights_small {he : Int} (positive : 0 < he) (bounded : he ≤ 2 ^ 31) (count : Nat)
    (state : UInt64) : ∀ weight ∈ lcgWeights he count state, |weight.toInt| ≤ he := by
  induction count generalizing state with
  | zero => exact nofun
  | succ count ih =>
      intro weight member
      rcases List.mem_cons.mp member with rfl | later
      · obtain ⟨low, high⟩ := weight_range positive bounded state
        exact abs_le.mpr ⟨low, Int.le_of_lt high⟩
      · exact ih _ weight later

/-! Layers. -/

section Layers
variable {rows cols : Nat} (x : Vector Int cols)

/-- Products, their sums in part and in whole, and what the layer makes of the sums of a machine's
accumulator. -/
structure LayerBounds (w : Vector Int32 (rows * cols)) (after : Int → Int)
    (result : Vector Int rows) (bound : Int) : Prop where
  terms : ∀ i, ∀ product ∈ products x w i, |product| ≤ bound
  partials : ∀ i (part : List Int), part.Subperm (products x w i) → |part.sum| ≤ bound
  accumulates : ∀ (i : Fin rows) (order : List Int), order.Perm (products x w i) →
    ∀ bits, 32 ≤ bits →
      (order.foldlM (addWithin bits) 0).map after = some (result.get i)

/-- The shift of a hidden layer and its cut below zero. -/
def activation (sum : Int) : Int := max (sum >>> normShift) 0

theorem hidden_get (w : Vector Int32 (rows * cols)) (i : Fin rows) :
    (hidden x w).get i = activation (acc x w i) := by
  change (hidden x w)[i.val] = _
  simp [FixedModel.hidden, activation]

theorem output_get (w : Vector Int32 (rows * cols)) (i : Fin rows) :
    (output x w).get i = acc x w i := by
  change (output x w)[i.val] = _
  simp [FixedModel.output]

variable {x} {reach he : Int}

theorem weight_small (positive : 0 < he) (bounded : he ≤ 2 ^ 31) (layerId : UInt64)
    (place : Fin (rows * cols)) : |((makeWeights rows cols layerId he).get place).toInt| ≤ he := by
  have drawn : (makeWeights rows cols layerId he).get place =
      (lcgWeights he (rows * cols) (modelSeed + layerId * 0xDEADBEEFCAFE1337)).get
        ⟨place.val, by simp⟩ := rfl
  rw [drawn]
  exact weights_small positive bounded _ _ _ (List.get_mem _ _)

theorem product_small (inputs : ∀ j, |x.get j| ≤ reach) (positive : 0 < he)
    (bounded : he ≤ 2 ^ 31) (layerId : UInt64) (i : Fin rows) :
    ∀ product ∈ products x (makeWeights rows cols layerId he) i, |product| ≤ reach * he := by
  intro product member
  obtain ⟨j, rfl⟩ := List.mem_ofFn.mp member
  rw [abs_mul]
  exact Int.mul_le_mul (inputs j) (weight_small positive bounded layerId _) (abs_nonneg _)
    (Int.le_trans (abs_nonneg _) (inputs j))

/-- A layer whose bound fits in 32 bits. -/
theorem layer_bounds (inputs : ∀ j, |x.get j| ≤ reach) (present : 0 < cols)
    (positive : 0 < he) (bounded : he ≤ 2 ^ 31) (layerId : UInt64)
    (fits : cols * (reach * he) < 2 ^ 31) {after : Int → Int} {result : Vector Int rows}
    (computed : ∀ i : Fin rows,
      result.get i = after (acc x (makeWeights rows cols layerId he) i)) :
    LayerBounds x (makeWeights rows cols layerId he) after result (cols * (reach * he)) := by
  have small := @product_small rows cols x reach he inputs positive bounded layerId
  have nonneg : 0 ≤ reach * he := by
    have first := Int.le_trans (abs_nonneg _) (inputs ⟨0, present⟩)
    exact Int.mul_nonneg first (Int.le_of_lt positive)
  have parts (i : Fin rows) (part : List Int)
      (within : part.Subperm (products x (makeWeights rows cols layerId he) i)) :
      |part.sum| ≤ cols * (reach * he) := by
    have bound := part_bound (small i) nonneg within
    rwa [products, List.length_ofFn] at bound
  constructor
  · intro i product member
    calc |product| ≤ reach * he := small i product member
      _ = 1 * (reach * he) := (Int.one_mul _).symm
      _ ≤ cols * (reach * he) := Int.mul_le_mul_of_nonneg_right (by omega) nonneg
  · exact parts
  · intro i order permuted bits wide
    have small_parts : ∀ part : List Int, part.Subperm order → |part.sum| < 2 ^ (bits - 1) := by
      intro part within
      calc |part.sum| ≤ cols * (reach * he) := parts i part (within.trans permuted.subperm)
        _ < 2 ^ 31 := fits
        _ ≤ 2 ^ (bits - 1) := pow_le_pow_right₀ (by decide) (by omega)
    rw [accumulate_exact small_parts, permuted.sum_eq, computed]
    rfl

/-- The whole sum, shifted and cut off below zero. -/
theorem hidden_range {w : Vector Int32 (rows * cols)} {after : Int → Int}
    {result : Vector Int rows} {bound : Int} (bounds : LayerBounds x w after result bound)
    (i : Fin rows) : 0 ≤ (hidden x w).get i ∧ (hidden x w).get i ≤ bound / 1024 := by
  have whole := (abs_le.mp (bounds.partials i _ (List.Perm.refl _).subperm)).2
  have nonneg : 0 ≤ bound :=
    Int.le_trans (abs_nonneg _) (bounds.partials i [] (List.nil_subperm ..))
  have shifted : acc x w i >>> normShift ≤ bound / 1024 := by
    rw [normShift, Int.shiftRight_eq_div_pow]
    exact Int.ediv_le_ediv (by decide) whole
  have own : (hidden x w).get i = max (acc x w i >>> normShift) 0 := hidden_get x w i
  rw [own]
  exact ⟨Int.le_max_right .., Int.max_le.mpr ⟨shifted, Int.ediv_nonneg nonneg (by decide)⟩⟩

end Layers

/-! The network. -/

theorem centred_small (input : Bytes 32) (j : Fin 32) : |(centred input).get j| ≤ 128 := by
  have bound := (input.get j).toNat_lt
  have entry : (centred input).get j = ((input.get j).toNat : Int) - 128 := by
    change (centred input)[j.val] = _
    simp [centred]
  rw [entry, abs_le]
  omega

theorem folded_get (sums : Vector Int 32) (sized : (sums.toList.map fold).length = 32)
    (i : Fin 32) : (⟨sums.toList.map fold, sized⟩ : Bytes 32).get i = fold (sums.get i) := by
  simp only [FixedArray.get, List.get_eq_getElem, List.getElem_map, Vector.getElem_toList]
  rfl

structure Bounds (input : Bytes 32) : Prop where
  weights : ∀ he state, 0 < he → he ≤ 2 ^ 31 →
    -he ≤ (lcgWeight state he).2.toInt ∧ (lcgWeight state he).2.toInt < he
  layer1 : LayerBounds (centred input) (makeWeights 256 32 0 heL1) activation (h1 input) 1048576
  activations1 : ∀ i : Fin 256, 0 ≤ (h1 input).get i ∧ (h1 input).get i ≤ 1024
  layer2 : LayerBounds (h1 input) (makeWeights 128 256 1 heL2) activation (h2 input) 23592960
  activations2 : ∀ i : Fin 128, 0 ≤ (h2 input).get i ∧ (h2 input).get i ≤ 23040
  layer3 : LayerBounds (h2 input) (makeWeights 32 128 2 heL3) id (h3 input) 377487360
  outputs : ∀ i : Fin 32, |(h3 input).get i| ≤ 377487360 ∧
    (forward input).get i = fold ((h3 input).get i)

/-- Activations are in reach of their bound. -/
theorem reach_of_range {value bound : Int} (range : 0 ≤ value ∧ value ≤ bound) :
    |value| ≤ bound := by
  rw [abs_of_nonneg range.1]
  exact range.2

theorem model_bounded (input : Bytes 32) : Bounds input := by
  have layer1 :
      LayerBounds (centred input) (makeWeights 256 32 0 heL1) activation (h1 input) 1048576 :=
    layer_bounds (centred_small input) (by decide) (by decide) (by decide) 0 (by decide)
      (hidden_get _ _)
  have activations1 := hidden_range layer1
  have layer2 :
      LayerBounds (h1 input) (makeWeights 128 256 1 heL2) activation (h2 input) 23592960 :=
    layer_bounds (fun j => reach_of_range (activations1 j)) (by decide) (by decide) (by decide) 1
      (by decide) (hidden_get _ _)
  have activations2 := hidden_range layer2
  have layer3 : LayerBounds (h2 input) (makeWeights 32 128 2 heL3) id (h3 input) 377487360 :=
    layer_bounds (fun j => reach_of_range (activations2 j)) (by decide) (by decide) (by decide) 2
      (by decide) (output_get _ _)
  refine ⟨fun he state positive bounded => weight_range positive bounded state,
    layer1, activations1, layer2, activations2, layer3, fun i => ⟨?_, ?_⟩⟩
  · have sum : (h3 input).get i = acc (h2 input) (makeWeights 32 128 2 heL3) i := output_get _ _ i
    rw [sum]
    exact layer3.partials i _ (List.Perm.refl _).subperm
  · exact folded_get (h3 input) _ i

end KeryxMiner.ModelBounds
