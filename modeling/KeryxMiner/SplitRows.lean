import KeryxMiner.SplitForward

/-!
Operations that give each row of a tensor what they give it in a batch of its own, and the
attention of a batch under them. Exact arithmetic has this property; a float kernel that picks the
order of its sums by the width of the batch, as those of `src/vendor/candle-kernels` do, has it up
to the rounding only.
-/

namespace KeryxMiner.SplitRows

open SplitForward

variable {Number : Type}

/-- The operation on a batch of one row. -/
def alone (f : Rows Number → Rows Number) (row : List Number) : List Number := (f [row]).headD []

def RowByRow (f : Rows Number → Rows Number) : Prop := ∀ x, f x = x.map (alone f)

/-! The arithmetic on single rows. -/

section Arithmetic
variable (numerics : Numerics Number)

def scoreAlone (headDim : Nat) (query key : List Number) : Number :=
  (((numerics.score headDim [[query]] [[key]]).headD []).headD []).headD numerics.negInf

def softmaxAlone (scores : List Number) : List Number :=
  ((numerics.softmaxLastDim [[scores]]).headD []).headD []

def matmulAlone (weights : List Number) (values : Rows Number) : List Number :=
  ((numerics.matmul [[weights]] [values]).headD []).headD []

def addAlone (left right : List Number) : List Number := (numerics.add [left] [right]).headD []

def siluMulAlone (left right : List Number) : List Number :=
  (numerics.siluMul [left] [right]).headD []

/-- A score depends on its query and its key, any other row of a result on its own row. -/
structure NumericsByRow : Prop where
  score : ∀ headDim queries keys, numerics.score headDim queries keys =
    List.zipWith (fun queries keys =>
      queries.map fun query => keys.map (scoreAlone numerics headDim query)) queries keys
  softmax : ∀ att, numerics.softmaxLastDim att =
    att.map fun head => head.map (softmaxAlone numerics)
  matmul : ∀ att v, numerics.matmul att v =
    List.zipWith (fun head values =>
      head.map fun weights => matmulAlone numerics weights values) att v
  add : ∀ left right, numerics.add left right = List.zipWith (addAlone numerics) left right
  siluMul : ∀ left right,
    numerics.siluMul left right = List.zipWith (siluMulAlone numerics) left right

end Arithmetic

/-! The weights on single rows. -/

def ropeAlone (layer : LayerWeights Number) (position : Nat) (row : List Number) : List Number :=
  ((layer.rope position [[row]]).headD []).headD []

structure LayerByRow (layer : LayerWeights Number) : Prop where
  wq : RowByRow layer.attentionWq
  wk : RowByRow layer.attentionWk
  wv : RowByRow layer.attentionWv
  wo : RowByRow layer.attentionWo
  attentionNorm : RowByRow layer.attentionNorm
  ffnNorm : RowByRow layer.ffnNorm
  w1 : RowByRow layer.mlp.feedForwardW1
  w2 : RowByRow layer.mlp.feedForwardW2
  w3 : RowByRow layer.mlp.feedForwardW3
  qNorm : ∀ norm, layer.headNorms.map Prod.fst = some norm → RowByRow norm
  kNorm : ∀ norm, layer.headNorms.map Prod.snd = some norm → RowByRow norm
  rope : ∀ indexPos x, layer.rope indexPos x =
    x.map fun head => head.mapIdx fun i row => ropeAlone layer (indexPos + i) row

/-- The property does not depend on the cache or on the device. -/
theorem LayerByRow.moved {layer : LayerWeights Number} (byRow : LayerByRow layer)
    (kvCache : Option (List (Entry Number))) (device deviceIdx : Nat) :
    LayerByRow { layer with kvCache, device, deviceIdx } where
  wq := byRow.wq
  wk := byRow.wk
  wv := byRow.wv
  wo := byRow.wo
  attentionNorm := byRow.attentionNorm
  ffnNorm := byRow.ffnNorm
  w1 := byRow.w1
  w2 := byRow.w2
  w3 := byRow.w3
  qNorm := byRow.qNorm
  kNorm := byRow.kNorm
  rope := byRow.rope

def headOf (dim h : Nat) (row : List Number) : List Number := (row.drop (h * dim)).take dim

def normed (norm : Option (Rows Number → Rows Number)) (head : List Number) : List Number :=
  match norm with
  | none => head
  | some norm => alone norm head

def rotatedAlone (layer : LayerWeights Number) (count : Nat)
    (norm : Option (Rows Number → Rows Number)) (position : Nat) (row : List Number) :
    List (List Number) :=
  (List.range count).map fun h =>
    ropeAlone layer position (normed norm (headOf layer.headDim h row))

def queryAlone (layer : LayerWeights Number) (position : Nat) (row : List Number) :
    List (List Number) :=
  rotatedAlone layer layer.nHead (layer.headNorms.map Prod.fst) position
    (alone layer.attentionWq row)

def entryAlone (layer : LayerWeights Number) (position : Nat) (row : List Number) :
    Entry Number where
  k := rotatedAlone layer layer.nKvHead (layer.headNorms.map Prod.snd) position
    (alone layer.attentionWk row)
  v := (List.range layer.nKvHead).map fun h => headOf layer.headDim h (alone layer.attentionWv row)

/-- A row of attention: `hide` is the masking of its scores. -/
def attendAlone (numerics : Numerics Number) (layer : LayerWeights Number)
    (hide : List Number → List Number) (query : List (List Number))
    (entries : List (Entry Number)) : List Number :=
  alone layer.attentionWo ((List.range layer.nHead).flatMap fun h =>
    matmulAlone numerics
      (softmaxAlone numerics (hide
        ((layer.keys h entries).map (scoreAlone numerics layer.headDim (query.getD h [])))))
      (layer.values h entries))

def mlpAlone (numerics : Numerics Number) (mlp : Mlp Number) (row : List Number) : List Number :=
  alone mlp.feedForwardW2
    (siluMulAlone numerics (alone mlp.feedForwardW1 row) (alone mlp.feedForwardW3 row))

/-! Heads. -/

theorem regrouped {Item : Type} (n : Nat) (groups : List (List Item))
    (even : ∀ group ∈ groups, group.length = n) :
    (List.range groups.length).map (fun h => (groups.flatten.drop (h * n)).take n) = groups := by
  induction groups with
  | nil => rfl
  | cons group groups ih =>
      have own : group.length = n := even group (List.mem_cons_self ..)
      have rest := ih fun other member => even other (List.mem_cons_of_mem _ member)
      have later : ∀ h, ((group ++ groups.flatten).drop ((h + 1) * n)).take n =
          (groups.flatten.drop (h * n)).take n := by
        intro h
        have split : (h + 1) * n = group.length + h * n := by
          rw [own, Nat.add_mul, Nat.one_mul, Nat.add_comm]
        rw [split, List.drop_length_add_append]
      rw [List.length_cons, List.range_succ_eq_map, List.map_cons, List.map_map, List.flatten_cons,
        Nat.zero_mul, List.drop_zero, ← own, List.take_left, own]
      simp only [Function.comp_def, Nat.succ_eq_add_one, later]
      rw [rest]

theorem norm_heads {norm : Option (Rows Number → Rows Number)}
    (byRow : ∀ f, norm = some f → RowByRow f) {seqLen : Nat} {x : Heads Number}
    (even : ∀ head ∈ x, head.length = seqLen) :
    normHeads norm seqLen x = x.map fun head => head.map (normed norm) := by
  cases norm with
  | none =>
      have same : normed (none : Option (Rows Number → Rows Number)) = id := rfl
      simp only [normHeads, same, List.map_id, List.map_id']
  | some norm =>
      have groups := regrouped seqLen (x.map fun head => head.map (alone norm)) (by
        intro group member
        obtain ⟨head, among, rfl⟩ := List.mem_map.mp member
        rw [List.length_map]
        exact even head among)
      rw [List.length_map] at groups
      rw [normHeads, byRow norm rfl, List.map_flatten]
      exact groups

/-- Position `i` of transposed heads. -/
theorem position_heads {count i : Nat} {x : Rows Number} (inside : i < x.length)
    (f : Nat → Nat → List Number → List Number) :
    ((List.range count).map fun h => x.mapIdx (f h)).map (fun head => head.getD i []) =
      (List.range count).map fun h => f h i x[i] := by
  rw [List.map_map]
  refine List.map_congr_left fun h _ => ?_
  rw [Function.comp_apply, List.getD_eq_getElem?_getD, List.getElem?_mapIdx,
    List.getElem?_eq_getElem inside]
  rfl

theorem idx_of_map {Source Item Result : Type} (f : Source → Item) (g : Nat → Item → Result)
    (x : List Source) : (x.map f).mapIdx g = x.mapIdx fun i item => g i (f item) := by
  apply List.ext_getElem
  · rw [List.length_mapIdx, List.length_map, List.length_mapIdx]
  · intro i _ _
    rw [List.getElem_mapIdx, List.getElem_map, List.getElem_mapIdx]

section Layer
variable {layer : LayerWeights Number} (byRow : LayerByRow layer)
include byRow

theorem rotated_rows (count : Nat) {norm : Option (Rows Number → Rows Number)}
    (normByRow : ∀ f, norm = some f → RowByRow f) (indexPos : Nat)
    (project : List Number → List Number) (x : Rows Number) :
    layer.rotated count norm indexPos x.length (x.map project) =
      (List.range count).map fun h => x.mapIdx fun i row =>
        ropeAlone layer (indexPos + i) (normed norm (headOf layer.headDim h (project row))) := by
  have split : heads count layer.headDim (x.map project) =
      (List.range count).map fun h => x.map fun row => headOf layer.headDim h (project row) := by
    simp only [heads, headOf, List.map_map, Function.comp_def]
  have even : ∀ head ∈ (List.range count).map fun h =>
      x.map fun row => headOf layer.headDim h (project row), head.length = x.length := by
    intro head member
    obtain ⟨h, _, rfl⟩ := List.mem_map.mp member
    exact List.length_map _
  rw [LayerWeights.rotated, split, norm_heads normByRow even, byRow.rope, List.map_map,
    List.map_map]
  simp only [Function.comp_def, idx_of_map]

theorem queries_rows (indexPos : Nat) (x : Rows Number) :
    layer.queries indexPos x = (List.range layer.nHead).map fun h =>
      (x.mapIdx fun i row => queryAlone layer (indexPos + i) row).map fun query =>
        query.getD h [] := by
  rw [LayerWeights.queries, byRow.wq, rotated_rows byRow layer.nHead byRow.qNorm]
  refine List.map_congr_left fun h inside => ?_
  apply List.ext_getElem
  · rw [List.length_mapIdx, List.length_map, List.length_mapIdx]
  · intro i _ _
    rw [List.getElem_mapIdx, List.getElem_map, List.getElem_mapIdx, queryAlone, rotatedAlone,
      List.getD_eq_getElem?_getD, List.getElem?_map,
      List.getElem?_range (List.mem_range.mp inside)]
    rfl

theorem fresh_rows (indexPos : Nat) (x : Rows Number) :
    layer.fresh indexPos x = x.mapIdx fun i row => entryAlone layer (indexPos + i) row := by
  rw [LayerWeights.fresh, byRow.wk, byRow.wv, rotated_rows byRow layer.nKvHead byRow.kNorm]
  apply List.ext_getElem
  · rw [List.length_map, List.length_range, List.length_mapIdx]
  · intro i inside _
    have position : i < x.length := by simpa only [List.length_map, List.length_range] using inside
    have values : (heads layer.nKvHead layer.headDim (x.map (alone layer.attentionWv))).map
        (fun head => head.getD i []) =
          (List.range layer.nKvHead).map fun h =>
            headOf layer.headDim h (alone layer.attentionWv x[i]) := by
      rw [heads, List.map_map]
      refine List.map_congr_left fun h _ => ?_
      rw [Function.comp_apply, List.getD_eq_getElem?_getD, List.getElem?_map, List.getElem?_map,
        List.getElem?_eq_getElem position]
      rfl
    rw [List.getElem_map, List.getElem_range, List.getElem_mapIdx, values,
      position_heads position]
    rfl

end Layer

/-! Attention and the feed-forward part. -/

/-- What the mask does to the scores of row `i`. -/
def rowMask (numerics : Numerics Number) (bits : Option (List (List Bool))) (i : Nat) :
    List Number → List Number :=
  match bits with
  | none => id
  | some bits => maskedRow numerics (bits.getD i [])

section Batch
variable {numerics : Numerics Number} {layer : LayerWeights Number}

theorem masked_rows {bits : Option (List (List Bool))} {count : Nat} {Query : Type}
    {queries : List Query} (sized : ∀ rows, bits = some rows → rows.length = queries.length)
    (f : Nat → Query → List Number) :
    maskedFill numerics bits ((List.range count).map fun h => queries.map (f h)) =
      (List.range count).map fun h => queries.mapIdx fun i query =>
        rowMask numerics bits i (f h query) := by
  cases bits with
  | none =>
      refine List.map_congr_left fun h _ => ?_
      apply List.ext_getElem
      · rw [List.length_map, List.length_mapIdx]
      · intro i _ _
        rw [List.getElem_map, List.getElem_mapIdx]
        rfl
  | some rows =>
      have count := sized rows rfl
      rw [maskedFill, List.map_map]
      refine List.map_congr_left fun h _ => ?_
      apply List.ext_getElem
      · rw [Function.comp_apply, List.length_zipWith, List.length_map, List.length_mapIdx, count,
          Nat.min_self]
      · intro i inside _
        have own : i < rows.length := by
          rw [Function.comp_apply, List.length_zipWith] at inside
          omega
        simp only [Function.comp_apply, List.getElem_zipWith, List.getElem_map,
          List.getElem_mapIdx, rowMask, List.getD_eq_getElem?_getD,
          List.getElem?_eq_getElem own, Option.getD_some]

/-- Heads computed for each row, put together by rows. -/
theorem merged_rows {Query : Type} (count : Nat) (queries : List Query)
    (f : Nat → Nat → Query → List Number) :
    merged queries.length ((List.range count).map fun h => queries.mapIdx (f h)) =
      queries.mapIdx fun i query => (List.range count).flatMap fun h => f h i query := by
  apply List.ext_getElem
  · rw [merged, List.length_map, List.length_range, List.length_mapIdx]
  · intro i _ inside
    rw [List.length_mapIdx] at inside
    simp only [merged, List.getElem_map, List.getElem_range, List.getElem_mapIdx,
      List.flatMap_map]
    refine List.flatMap_congr fun h _ => ?_
    rw [List.getD_eq_getElem?_getD, List.getElem?_mapIdx, List.getElem?_eq_getElem inside]
    rfl

variable (numericsByRow : NumericsByRow numerics)
include numericsByRow

theorem attend_rows (byRow : LayerByRow layer) (bits : Option (List (List Bool)))
    (queries : List (List (List Number)))
    (sized : ∀ rows, bits = some rows → rows.length = queries.length)
    (entries : List (Entry Number)) :
    attend numerics layer bits queries.length
        ((List.range layer.nHead).map fun h => queries.map fun query => query.getD h []) entries =
      queries.mapIdx fun i query =>
        attendAlone numerics layer (rowMask numerics bits i) query entries := by
  have scored : numerics.score layer.headDim
      ((List.range layer.nHead).map fun h => queries.map fun query => query.getD h [])
      ((List.range layer.nHead).map fun h => layer.keys h entries) =
        (List.range layer.nHead).map fun h => queries.map fun query =>
          (layer.keys h entries).map
            (scoreAlone numerics layer.headDim (query.getD h [])) := by
    rw [numericsByRow.score, List.zipWith_map, List.zipWith_self]
    simp only [List.map_map, Function.comp_def]
  have weighed : numerics.matmul
      (numerics.softmaxLastDim ((List.range layer.nHead).map fun h => queries.mapIdx fun i query =>
        rowMask numerics bits i ((layer.keys h entries).map
          (scoreAlone numerics layer.headDim (query.getD h [])))))
      ((List.range layer.nHead).map fun h => layer.values h entries) =
        (List.range layer.nHead).map fun h => queries.mapIdx fun i query =>
          matmulAlone numerics
            (softmaxAlone numerics (rowMask numerics bits i ((layer.keys h entries).map
              (scoreAlone numerics layer.headDim (query.getD h [])))))
            (layer.values h entries) := by
    rw [numericsByRow.softmax, numericsByRow.matmul, List.map_map, List.zipWith_map,
      List.zipWith_self]
    refine List.map_congr_left fun h _ => ?_
    apply List.ext_getElem
    · simp only [Function.comp_apply, List.length_map, List.length_mapIdx]
    · intro i _ _
      simp only [Function.comp_apply, List.getElem_map, List.getElem_mapIdx]
  rw [attend, scored, masked_rows sized, weighed, merged_rows, byRow.wo]
  apply List.ext_getElem
  · rw [List.length_map, List.length_mapIdx, List.length_mapIdx]
  · intro i _ _
    simp only [List.getElem_map, List.getElem_mapIdx]
    rfl

theorem batch_attends (byRow : LayerByRow layer) (bits : Option (List (List Bool)))
    (x : Rows Number) (sized : ∀ rows, bits = some rows → rows.length = x.length)
    (indexPos : Nat) (entries : List (Entry Number)) :
    attend numerics layer bits x.length (layer.queries indexPos x) entries =
      x.mapIdx fun i row => attendAlone numerics layer (rowMask numerics bits i)
        (queryAlone layer (indexPos + i) row) entries := by
  have count : (x.mapIdx fun i row => queryAlone layer (indexPos + i) row).length = x.length :=
    List.length_mapIdx
  have rows := attend_rows numericsByRow byRow bits
    (x.mapIdx fun i row => queryAlone layer (indexPos + i) row) (by rwa [count]) entries
  rw [count] at rows
  rw [queries_rows byRow, rows, List.mapIdx_mapIdx]
  rfl

theorem mlp_rows (byRow : LayerByRow layer) (x : Rows Number) :
    layer.mlp.forward numerics x = x.map (mlpAlone numerics layer.mlp) := by
  rw [Mlp.forward, numericsByRow.siluMul, byRow.w1, byRow.w2, byRow.w3, List.zipWith_map,
    List.zipWith_self, List.map_map]
  rfl

end Batch

end KeryxMiner.SplitRows
