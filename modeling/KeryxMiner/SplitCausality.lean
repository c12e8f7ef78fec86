import KeryxMiner.SplitRows

/-!
A forward pass of the split forks is causal. Where masked scores weigh nothing and every operation
computes row by row, a batch under the causal mask and a single row after its cache both give each
block's rows as one causal layer over the whole sequence does.
-/

namespace KeryxMiner.SplitCausality

open CausalLayers SplitForward SplitRows

variable {Number : Type}

/-- Positions whose score is minus infinity have no weight. -/
def MaskedWeighNothing (numerics : Numerics Number) : Prop :=
  ∀ scores values others, scores ≠ [] → scores.length = values.length →
    matmulAlone numerics
        (softmaxAlone numerics (scores ++ List.replicate others.length numerics.negInf))
        (values ++ others) =
      matmulAlone numerics (softmaxAlone numerics scores) values

/-! A row under the mask. -/

theorem causal_row {t i : Nat} (inside : i < t) :
    (causalBits t).getD i [] =
      List.replicate (i + 1) false ++ List.replicate (t - (i + 1)) true := by
  have row : (causalBits t).getD i [] = (List.range t).map fun j => decide (i < j) := by
    rw [causalBits, List.getD_eq_getElem?_getD, List.getElem?_map, List.getElem?_range inside]
    rfl
  rw [row]
  apply List.ext_getElem
  · simp only [List.length_map, List.length_range, List.length_append, List.length_replicate]
    omega
  · intro j _ _
    rw [List.getElem_map, List.getElem_range, List.getElem_append]
    split
    · rename_i early
      rw [List.length_replicate] at early
      rw [List.getElem_replicate]
      exact decide_eq_false (by omega)
    · rename_i late
      rw [List.length_replicate] at late
      rw [List.getElem_replicate]
      exact decide_eq_true (by omega)

theorem fill_kept (numerics : Numerics Number) (att : List Number) :
    maskedRow numerics (List.replicate att.length false) att = att := by
  induction att with
  | nil => rfl
  | cons score att ih =>
      rw [List.length_cons, List.replicate_succ, maskedRow, List.zipWith_cons_cons]
      exact congrArg _ ih

theorem fill_hidden (numerics : Numerics Number) (att : List Number) :
    maskedRow numerics (List.replicate att.length true) att =
      List.replicate att.length numerics.negInf := by
  induction att with
  | nil => rfl
  | cons score att ih =>
      rw [List.length_cons, List.replicate_succ, maskedRow, List.zipWith_cons_cons]
      exact congrArg _ ih

theorem fill_split (numerics : Numerics Number) (seen hidden : List Number) :
    maskedRow numerics
        (List.replicate seen.length false ++ List.replicate hidden.length true)
        (seen ++ hidden) =
      seen ++ List.replicate hidden.length numerics.negInf := by
  rw [maskedRow, List.zipWith_append (by rw [List.length_replicate])]
  exact congrArg₂ _ (fill_kept numerics seen) (fill_hidden numerics hidden)

section Attention
variable {numerics : Numerics Number} (weightless : MaskedWeighNothing numerics)
include weightless

/-- A masked row attends to the entries up to its own. -/
theorem attend_masked (layer : LayerWeights Number) (query : List (List Number))
    {entries : List (Entry Number)} {i : Nat} (inside : i < entries.length) :
    attendAlone numerics layer (maskedRow numerics ((causalBits entries.length).getD i [])) query
        entries =
      attendAlone numerics layer id query (entries.take (i + 1)) := by
  have own : (entries.take (i + 1)).length = i + 1 := by
    rw [List.length_take]
    omega
  have others : (entries.drop (i + 1)).length = entries.length - (i + 1) := List.length_drop
  have filled : ∀ h (score : List Number → Number),
      maskedRow numerics ((causalBits entries.length).getD i [])
          ((layer.keys h entries).map score) =
        (layer.keys h (entries.take (i + 1))).map score ++
          List.replicate (layer.values h (entries.drop (i + 1))).length numerics.negInf := by
    intro h score
    have split := fill_split numerics ((layer.keys h (entries.take (i + 1))).map score)
      ((layer.keys h (entries.drop (i + 1))).map score)
    simp only [LayerWeights.keys, List.length_map, own, others, ← List.map_append,
      List.take_append_drop] at split
    rw [causal_row inside, LayerWeights.keys, split, LayerWeights.keys, LayerWeights.values,
      List.length_map, others]
  have present : ∀ h (score : List Number → Number),
      (layer.keys h (entries.take (i + 1))).map score ≠ [] := by
    intro h score
    rw [LayerWeights.keys, ne_eq, List.map_eq_nil_iff, List.map_eq_nil_iff,
      ← List.length_eq_zero_iff, own]
    omega
  rw [attendAlone, attendAlone]
  congr 1
  refine List.flatMap_congr fun h _ => ?_
  have whole : layer.values h entries = layer.values h (entries.take (i + 1)) ++
      layer.values h (entries.drop (i + 1)) := by
    rw [LayerWeights.values, LayerWeights.values, LayerWeights.values, ← List.map_append,
      List.take_append_drop]
  rw [filled, whole, weightless _ _ _ (present h _) (by
    rw [LayerWeights.keys, LayerWeights.values, List.length_map, List.length_map,
      List.length_map])]
  rfl

end Attention

/-! A block. -/

section Block
variable (numerics : Numerics Number)

/-- The block as a layer over the rows of one sequence. -/
def causal (layer : LayerWeights Number) : Layer (List Number) (Entry Number) where
  entry position row := entryAlone layer position (alone layer.attentionNorm row)
  output position row kept :=
    let query := queryAlone layer position (alone layer.attentionNorm row)
    let residual := addAlone numerics (attendAlone numerics layer id query kept) row
    addAlone numerics (mlpAlone numerics layer.mlp (alone layer.ffnNorm residual)) residual

/-- What a pass at a position continues from. -/
def heldAt (indexPos : Nat) (layer : LayerWeights Number) : List (Entry Number) :=
  if indexPos = 0 then [] else layer.kvCache.getD []

/-- A pass over a whole prompt is masked, one over a single row is not. -/
def MaskedFor (indexPos count device : Nat) (mask : Option Mask) : Prop :=
  if count = 1 then mask = none else indexPos = 0 ∧ mask = some ⟨device, causalBits count⟩

variable {numerics}

theorem extended_held (layer : LayerWeights Number) (indexPos : Nat)
    (fresh : List (Entry Number)) :
    layer.extended indexPos fresh = heldAt indexPos layer ++ fresh := by
  rw [LayerWeights.extended, heldAt]
  cases layer.kvCache with
  | none => rw [Option.getD_none, ite_self, List.nil_append]
  | some cached =>
      dsimp only
      by_cases start : indexPos = 0
      · rw [if_pos start, if_pos start, List.nil_append]
      · rw [if_neg start, if_neg start, Option.getD_some]

theorem zip_mapped {Item : Type} (f : Nat → Item → Item) (g : Item → Item → Item)
    (items : List Item) :
    List.zipWith g (items.mapIdx f) items = items.mapIdx fun i item => g (f i item) item := by
  apply List.ext_getElem
  · simp only [List.length_zipWith, List.length_mapIdx, Nat.min_self]
  · intro i _ _
    simp only [List.getElem_zipWith, List.getElem_mapIdx]

/-- The residual additions and the feed-forward part of the loop's body. -/
theorem block_rows (numericsByRow : NumericsByRow numerics) {layer : LayerWeights Number}
    (byRow : LayerByRow layer) (attn : Nat → List Number → List Number) (rows : Rows Number) :
    numerics.add
        (layer.mlp.forward numerics (layer.ffnNorm (numerics.add (rows.mapIdx attn) rows)))
        (numerics.add (rows.mapIdx attn) rows) =
      rows.mapIdx fun i row =>
        addAlone numerics
          (mlpAlone numerics layer.mlp (alone layer.ffnNorm (addAlone numerics (attn i row) row)))
          (addAlone numerics (attn i row) row) := by
  rw [numericsByRow.add, numericsByRow.add, zip_mapped, byRow.ffnNorm, mlp_rows numericsByRow byRow]
  apply List.ext_getElem
  · simp only [List.length_zipWith, List.length_map, List.length_mapIdx, Nat.min_self]
  · intro i _ _
    simp only [List.getElem_zipWith, List.getElem_map, List.getElem_mapIdx]

theorem block_narrow {masks : List (Option Mask)} {indexPos : Nat} {layer : LayerWeights Number}
    (byRow : LayerByRow layer) {hidden : Hidden Number} {mask : Option Mask}
    (chosen : masks[layer.deviceIdx]? = some mask)
    (long : maxSeqLen < indexPos + hidden.rows.length) :
    blockForward numerics masks indexPos layer hidden = (.error .narrow, layer) := by
  rw [blockForward, chosen]
  dsimp only
  rw [device_rows, forwardAttn, byRow.attentionNorm, List.length_map, if_pos long]

/-- The attention of row `i` of a pass. -/
def attended (numerics : Numerics Number) (layer : LayerWeights Number) (indexPos : Nat)
    (rows : Rows Number) (i : Nat) (row : List Number) : List Number :=
  attendAlone numerics layer id
    (queryAlone layer (indexPos + i) (alone layer.attentionNorm row))
    (heldAt indexPos layer ++ ((causal numerics layer).entries indexPos rows).take (i + 1))

section Pass
variable (numericsByRow : NumericsByRow numerics) (weightless : MaskedWeighNothing numerics)
  {indexPos : Nat} {layer : LayerWeights Number} (byRow : LayerByRow layer)
include numericsByRow weightless byRow

theorem attn_runs {rows : Rows Number} {mask : Option Mask}
    (masked : MaskedFor indexPos rows.length layer.device mask)
    (short : indexPos + rows.length ≤ maxSeqLen) :
    forwardAttn numerics layer (layer.attentionNorm rows) mask indexPos =
      (.ok (rows.mapIdx (attended numerics layer indexPos rows)),
        { layer with
          kvCache :=
            some (heldAt indexPos layer ++ (causal numerics layer).entries indexPos rows) }) := by
  have fresh : layer.fresh indexPos (rows.map (alone layer.attentionNorm)) =
      (causal numerics layer).entries indexPos rows := by
    rw [fresh_rows byRow, idx_of_map]
    rfl
  have batch (kvCache : Option (List (Entry Number))) (bits : Option (List (List Bool)))
      (sized : ∀ lines, bits = some lines → lines.length = rows.length)
      (entries : List (Entry Number)) :
      attend numerics { layer with kvCache } bits rows.length
          (layer.queries indexPos (rows.map (alone layer.attentionNorm))) entries =
        rows.mapIdx fun i row => attendAlone numerics layer (rowMask numerics bits i)
          (queryAlone layer (indexPos + i) (alone layer.attentionNorm row)) entries := by
    have attends := batch_attends numericsByRow byRow bits
      (rows.map (alone layer.attentionNorm)) (by rwa [List.length_map]) indexPos entries
    rw [List.length_map, idx_of_map] at attends
    exact attends
  rw [forwardAttn, byRow.attentionNorm, List.length_map, if_neg (Nat.not_lt.mpr short)]
  dsimp only
  rw [fresh, extended_held]
  rw [MaskedFor] at masked
  split at masked
  · rename_i single
    subst masked
    obtain ⟨row, only⟩ := List.length_eq_one_iff.mp single
    dsimp only
    rw [batch _ none nofun]
    subst only
    rfl
  · obtain ⟨rfl, rfl⟩ := masked
    have whole : heldAt 0 layer ++ (causal numerics layer).entries 0 rows =
        (causal numerics layer).entries 0 rows := rfl
    have count : (causalBits rows.length).length = rows.length := by
      rw [causalBits, List.length_map, List.length_range]
    dsimp only
    rw [whole, if_neg (not_not.mpr (count.trans (entries_length ..).symm)),
      if_neg (not_not.mpr rfl), batch _ (some (causalBits rows.length)) (by
        rintro lines ⟨⟩
        exact count)]
    refine Prod.ext (congrArg Except.ok ?_) rfl
    apply List.ext_getElem
    · simp only [List.length_mapIdx]
    · intro i inside _
      have position : i < rows.length := by rwa [List.length_mapIdx] at inside
      have within : i < ((causal numerics layer).entries 0 rows).length := by rwa [entries_length]
      have hidden := attend_masked weightless layer
        (queryAlone layer (0 + i) (alone layer.attentionNorm rows[i])) within
      rw [entries_length] at hidden
      simp only [List.getElem_mapIdx]
      exact hidden

/-- A pass over a block is a run of the block's layer. -/
theorem block_runs {masks : List (Option Mask)} {hidden : Hidden Number} {mask : Option Mask}
    (chosen : masks[layer.deviceIdx]? = some mask)
    (masked : MaskedFor indexPos hidden.rows.length layer.device mask)
    (short : indexPos + hidden.rows.length ≤ maxSeqLen)
    (held : (heldAt indexPos layer).length = indexPos) :
    blockForward numerics masks indexPos layer hidden =
      (.ok ⟨layer.device,
          ((causal numerics layer).run (heldAt indexPos layer) hidden.rows).1⟩,
        { layer with
          kvCache :=
            some ((causal numerics layer).run (heldAt indexPos layer) hidden.rows).2 }) := by
  rw [blockForward, chosen]
  dsimp only
  rw [device_rows, attn_runs numericsByRow weightless byRow masked short]
  dsimp only
  rw [block_rows numericsByRow (byRow.moved _ layer.device layer.deviceIdx), run_outputs, run_kept,
    held]
  rfl

end Pass

end Block

end KeryxMiner.SplitCausality
