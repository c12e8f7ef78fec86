import KeryxMiner.MerkleBinding
import KeryxMiner.WeightIndex
import Mathlib.Data.List.Induction

/-!
The sparse builder writes levels of the dense tree. The checkpoint layout is a
stack of levels, the batch loops write exactly the nodes of those levels, and
`R_T` is the first node of the last level written. The leaf batches always rise
the full interval, so the last level written is never below the interval.
-/

namespace KeryxMiner.CheckpointTree

open ByteCodec PossessionProof WeightIndex MerkleLevels

/-! Layout. -/

def stack (nChunks : Nat) : List Nat → Nat → List StoredLevel
  | [], _ => []
  | height :: rest, off =>
      { level := height, offset := off, count := width nChunks height } ::
        stack nChunks rest (off + width nChunks height * 32)

def Stored (top height : Nat) : Prop :=
  (0 < height ∧ height % checkpointInterval = 0) ∨ height = top

instance (top height : Nat) : Decidable (Stored top height) :=
  inferInstanceAs (Decidable (_ ∨ _))

def storedFrom (top low : Nat) : List Nat :=
  (List.range' low (top + 1 - low)).filter fun height => Stored top height

def storedLevels (top : Nat) : List Nat := storedFrom top 0

theorem stored_from_top (top : Nat) : storedFrom top top = [top] := by
  simp [storedFrom, Stored]

theorem stored_from_step {top low : Nat} (below : low < top) :
    storedFrom top low =
      if Stored top low then low :: storedFrom top (low + 1) else storedFrom top (low + 1) := by
  have split : top + 1 - low = top + 1 - (low + 1) + 1 := by omega
  rw [storedFrom, split, List.range'_succ, List.filter_cons]
  simp only [storedFrom, decide_eq_true_eq]

theorem checkpoint_loop_stack {nChunks : Nat} (nonempty : 0 < nChunks) (off low : Nat)
    (bound : low ≤ Nat.clog 2 nChunks) :
    checkpointLoop (width nChunks low) off low =
      (stack nChunks (storedFrom (Nat.clog 2 nChunks) low) off, Nat.clog 2 nChunks + 1) := by
  obtain ⟨distance, apart⟩ : ∃ distance, Nat.clog 2 nChunks = low + distance :=
    ⟨Nat.clog 2 nChunks - low, by omega⟩
  induction distance generalizing low off with
  | zero =>
      have here : low = Nat.clog 2 nChunks := by omega
      subst here
      rw [checkpointLoop, stored_from_top]
      simp [width_top nonempty, stack]
  | succ distance ih =>
      have below : low < Nat.clog 2 nChunks := by omega
      have several := (one_lt_width nChunks low).mpr below
      have next : (width nChunks low + 1) / 2 = width nChunks (low + 1) := rfl
      have single : width nChunks low ≠ 1 := by omega
      have different : low ≠ Nat.clog 2 nChunks := by omega
      rw [checkpointLoop, stored_from_step below]
      simp only [next, single, or_false, Stored, different]
      rw [dif_neg (by omega)]
      by_cases checkpoint : 0 < low ∧ low % checkpointInterval = 0
      · rw [if_pos checkpoint, if_pos checkpoint, ih _ (low + 1) (by omega) (by omega)]
        rfl
      · rw [if_neg checkpoint, if_neg checkpoint, ih off (low + 1) (by omega) (by omega)]

theorem checkpoint_offsets_eq {nChunks : Nat} (nonempty : 0 < nChunks) :
    computeCheckpointOffsets nChunks =
      (stack nChunks (storedLevels (Nat.clog 2 nChunks)) 0, Nat.clog 2 nChunks + 1) :=
  checkpoint_loop_stack nonempty 0 0 (Nat.zero_le _)

theorem mem_stored_levels (top height : Nat) :
    height ∈ storedLevels top ↔ height ≤ top ∧ Stored top height := by
  rw [storedLevels, storedFrom, List.mem_filter, List.mem_range'_1, decide_eq_true_eq]
  exact and_congr_left' (by omega)

theorem stored_levels_ordered (top : Nat) : (storedLevels top).Pairwise (· < ·) :=
  (List.pairwise_lt_range' 1).filter _

theorem stored_levels_last (top : Nat) :
    ∃ lower, storedLevels top = lower ++ [top] := by
  refine ⟨(List.range top).filter fun height => Stored top height, ?_⟩
  have whole : storedLevels top = (List.range (top + 1)).filter fun height => Stored top height := by
    rw [storedLevels, storedFrom, List.range_eq_range', Nat.sub_zero]
  rw [whole, List.range_succ, List.filter_append]
  simp [Stored]

/-- From the interval on, the first stored level is the interval itself. -/
theorem stored_levels_first {top : Nat} (tall : checkpointInterval ≤ top) :
    ∃ upper, storedLevels top = checkpointInterval :: upper := by
  have skip : ∀ low ≤ checkpointInterval, ∀ gap, low + gap = checkpointInterval → 0 < low →
      storedFrom top low = storedFrom top checkpointInterval := by
    intro low _ gap same positive
    induction gap generalizing low with
    | zero => rw [← same, Nat.add_zero]
    | succ gap ih =>
        have unstored : ¬ Stored top low := by
          simp only [Stored, checkpointInterval] at same tall ⊢
          omega
        rw [stored_from_step (by omega), if_neg unstored]
        exact ih (low + 1) (by omega) (by omega) (by omega)
  have first : storedLevels top = storedFrom top checkpointInterval := by
    have unstored : ¬ Stored top 0 := by
      simp only [Stored, checkpointInterval] at tall ⊢
      omega
    rw [storedLevels, stored_from_step (by simp only [checkpointInterval] at tall; omega),
      if_neg unstored]
    exact skip 1 (by decide) 5 (by decide) (by decide)
  rcases Nat.eq_or_lt_of_le tall with same | above
  · exact ⟨[], by rw [first, same, stored_from_top]⟩
  · have stored : Stored top checkpointInterval := Or.inl (by decide)
    exact ⟨storedFrom top (checkpointInterval + 1), by
      rw [first, stored_from_step above, if_pos stored]⟩

/-- Below the interval only the root is stored. -/
theorem stored_levels_short {top : Nat} (short : top < checkpointInterval) :
    storedLevels top = [top] := by
  obtain ⟨lower, split⟩ := stored_levels_last top
  have ordered := stored_levels_ordered top
  rw [split, List.pairwise_append] at ordered
  have none_below : lower = [] := by
    apply List.eq_nil_iff_forall_not_mem.mpr
    intro height member
    have stored := (mem_stored_levels top height).mp (by rw [split]; simp [member])
    have before := ordered.2.2 height member top (by simp)
    simp only [Stored, checkpointInterval] at stored short
    omega
  rw [split, none_below]
  rfl

def stackSize (nChunks : Nat) (heights : List Nat) : Nat :=
  (heights.map fun height => width nChunks height * 32).sum

theorem stack_last (nChunks : Nat) (lower : List Nat) (top off : Nat) :
    (stack nChunks (lower ++ [top]) off).getLast? =
      some { level := top, offset := off + stackSize nChunks lower
             count := width nChunks top } := by
  induction lower generalizing off with
  | nil => rfl
  | cons height rest ih =>
      rw [List.cons_append, stack, List.getLast?_cons, ih, Option.getD_some]
      simp only [stackSize, List.map_cons, List.sum_cons, Nat.add_assoc]

/-! The file, and the positions of its nodes. -/

section File
variable (blake : Blake (Bytes 32))

def treeBytes (leaves : List (Bytes 32)) (heights : List Nat) : List UInt8 :=
  heights.flatMap fun height => concat (level (hashPair blake) leaves height)

theorem tree_bytes_cons (leaves : List (Bytes 32)) (height : Nat) (upper : List Nat) :
    treeBytes blake leaves (height :: upper) =
      concat (level (hashPair blake) leaves height) ++ treeBytes blake leaves upper := by
  simp [treeBytes]

theorem tree_bytes_length (leaves : List (Bytes 32)) (heights : List Nat) :
    (treeBytes blake leaves heights).length = stackSize leaves.length heights := by
  simp [treeBytes, stackSize, List.length_flatMap, concat_length, level_length]

theorem level_bytes_length (leaves : List (Bytes 32)) (height : Nat) :
    (concat (level (hashPair blake) leaves height)).length = width leaves.length height * 32 := by
  rw [concat_length, level_length]

/-- Every node named by the layout is read back from its own level. -/
theorem read_stacked (leaves : List (Bytes 32)) (heights : List Nat) (before after : List UInt8)
    (cp : StoredLevel) (member : cp ∈ stack leaves.length heights before.length) (i : Nat)
    (node : Bytes 32) (present : (level (hashPair blake) leaves cp.level)[i]? = some node) :
    readExactAt 32 (before ++ treeBytes blake leaves heights ++ after) (cp.offset + i * 32) =
      some node := by
  induction heights generalizing before with
  | nil => simp [stack] at member
  | cons height upper ih =>
      rw [tree_bytes_cons]
      rcases List.mem_cons.mp member with rfl | later
      · have read := read_record before (level (hashPair blake) leaves height)
          (treeBytes blake leaves upper ++ after) i node present
        simpa [List.append_assoc] using read
      · have tail := ih (before ++ concat (level (hashPair blake) leaves height))
          (by rw [List.length_append, level_bytes_length]; exact later)
        simpa [List.append_assoc] using tail

/-! The batch loops. -/

theorem map_range_records {Record : Type} (read : Nat → Option Record) (records : List Record)
    (found : ∀ i, i < records.length → read i = records[i]?) :
    (List.range records.length).mapM read = some records := by
  induction records using List.reverseRecOn with
  | nil => rfl
  | append_singleton initial last ih =>
      have earlier : ∀ i, i < initial.length → read i = initial[i]? := by
        intro i inside
        rw [found i (by simp; omega), List.getElem?_append_left inside]
      have final : read initial.length = some last := by
        rw [found initial.length (by simp)]
        simp
      rw [List.length_append, List.length_singleton, List.range_succ, List.mapM_append,
        ih earlier]
      simp [final]

theorem read_nodes_eq (before after : List UInt8) (nodes : List (Bytes 32)) (start count : Nat)
    (inside : start + count ≤ nodes.length) :
    readNodes (before ++ concat nodes ++ after) before.length start count =
      some ((nodes.drop start).take count) := by
  have length : ((nodes.drop start).take count).length = count := by
    rw [List.length_take, List.length_drop]
    omega
  have slots := map_range_records
    (fun i => readExactAt 32 (before ++ concat nodes ++ after) (before.length + (start + i) * 32))
    ((nodes.drop start).take count) ?_
  · rwa [length] at slots
  · intro i small
    rw [length] at small
    have present : nodes[start + i]? = some nodes[start + i] :=
      List.getElem?_eq_getElem (by omega)
    rw [read_record before nodes after (start + i) _ present, List.getElem?_take_of_lt small,
      List.getElem?_drop, present]

theorem fold_levels_eq (nodes : List (Bytes 32)) (rounds : Nat) :
    foldLevels blake nodes rounds = (level (hashPair blake) nodes rounds)[0]? := rfl

/-- Folding one aligned window of a level gives the node above it. -/
theorem fold_window (nodes : List (Bytes 32)) (rounds index : Nat) :
    foldLevels blake ((nodes.drop (index * 2 ^ rounds)).take (2 ^ rounds)) rounds =
      (level (hashPair blake) nodes rounds)[index]? := by
  rw [fold_levels_eq, level_window, List.getElem?_take_of_lt Nat.one_pos, List.getElem?_drop,
    Nat.add_zero]

theorem fold_batches_step (file : List UInt8) (prev : StoredLevel) (rounds readIdx : Nat)
    (more : readIdx < prev.count) (batch : List (Bytes 32)) (parent : Bytes 32)
    (read : readNodes file prev.offset readIdx (min (2 ^ rounds) (prev.count - readIdx)) =
      some batch)
    (folded : foldLevels blake batch rounds = some parent) :
    foldBatches blake file prev rounds readIdx =
      (foldBatches blake file prev rounds
        (readIdx + min (2 ^ rounds) (prev.count - readIdx))).map (parent.items ++ ·) := by
  rw [foldBatches, dif_pos more]
  simp only [read, folded, Option.bind_eq_bind, Option.bind_some]
  cases foldBatches blake file prev rounds
    (readIdx + min (2 ^ rounds) (prev.count - readIdx)) <;> rfl

theorem fold_batches_eq (before after : List UInt8) (nodes : List (Bytes 32))
    (prev : StoredLevel) (offset : prev.offset = before.length)
    (count : prev.count = nodes.length) (rounds index : Nat) :
    foldBatches blake (before ++ concat nodes ++ after) prev rounds
        (min (index * 2 ^ rounds) nodes.length) =
      some (concat ((level (hashPair blake) nodes rounds).drop index)) := by
  have length := level_length (hashPair blake) nodes rounds
  have bound := lt_width nodes.length rounds index
  obtain ⟨left, remaining⟩ :
      ∃ left, (level (hashPair blake) nodes rounds).length - index = left := ⟨_, rfl⟩
  induction left generalizing index with
  | zero =>
      have done : ¬ min (index * 2 ^ rounds) nodes.length < prev.count := by omega
      rw [foldBatches, dif_neg done, List.drop_eq_nil_of_le (by omega)]
      rfl
  | succ left ih =>
      have start : index * 2 ^ rounds < nodes.length := bound.mp (by omega)
      -- one batch is the window of the nodes below node `index`
      have here : min (index * 2 ^ rounds) nodes.length = index * 2 ^ rounds := by omega
      have inside : index < (level (hashPair blake) nodes rounds).length := by omega
      have taken : (nodes.drop (index * 2 ^ rounds)).take
          (min (2 ^ rounds) (prev.count - index * 2 ^ rounds)) =
            (nodes.drop (index * 2 ^ rounds)).take (2 ^ rounds) := by
        rw [count, ← List.length_drop, ← List.take_eq_take_min]
      have next : index * 2 ^ rounds + min (2 ^ rounds) (prev.count - index * 2 ^ rounds) =
          min ((index + 1) * 2 ^ rounds) nodes.length := by
        rw [Nat.add_mul, Nat.one_mul]
        omega
      have read := read_nodes_eq before after nodes (index * 2 ^ rounds)
        (min (2 ^ rounds) (prev.count - index * 2 ^ rounds)) (by omega)
      have folded := fold_window blake nodes rounds index
      rw [taken, ← offset] at read
      rw [List.getElem?_eq_getElem inside] at folded
      rw [here, fold_batches_step blake _ prev rounds _ (by omega) _ _ read folded, next,
        ih (index + 1) (lt_width nodes.length rounds (index + 1)) (by omega), Option.map_some,
        List.drop_eq_getElem_cons inside, concat_cons]

theorem append_levels_eq (leaves : List (Bytes 32)) (before : List UInt8) (low : Nat)
    (heights : List Nat) (ordered : (low :: heights).Pairwise (· < ·)) :
    appendLevels blake { level := low, offset := before.length, count := width leaves.length low }
        (before ++ concat (level (hashPair blake) leaves low))
        (stack leaves.length heights (before.length + width leaves.length low * 32)) =
      some (before ++ treeBytes blake leaves (low :: heights)) := by
  induction heights generalizing before low with
  | nil => simp [stack, appendLevels, treeBytes]
  | cons height upper ih =>
      have rises : low < height := (List.pairwise_cons.mp ordered).1 height (by simp)
      have upward : level (hashPair blake) (level (hashPair blake) leaves low) (height - low) =
          level (hashPair blake) leaves height := by
        rw [level_add]
        congr 1
        omega
      have batches := fold_batches_eq blake before [] (level (hashPair blake) leaves low)
        { level := low, offset := before.length, count := width leaves.length low } rfl
        (level_length _ _ _).symm (height - low) 0
      rw [Nat.zero_mul, Nat.zero_min, List.append_nil, List.drop_zero, upward] at batches
      have tail := ih (before ++ concat (level (hashPair blake) leaves low)) height
        (List.pairwise_cons.mp ordered).2
      rw [List.length_append, level_bytes_length] at tail
      rw [stack, appendLevels, batches, Option.bind_eq_bind, Option.bind_some, tail,
        tree_bytes_cons blake leaves low, List.append_assoc]

/-! The leaf batches write the whole first stored level. -/

theorem taken_level (leaves : List (Bytes 32)) (leaf : Bytes 32) (batches : Nat)
    (inside : batches * batchSize ≤ leaves.length) :
    (level (hashPair blake) (leaves ++ [leaf]) checkpointInterval).take batches =
      (level (hashPair blake) leaves checkpointInterval).take batches := by
  rw [← level_take, ← level_take]
  congr 1
  exact List.take_append_of_le_length inside

/-- The writer holds the leaves after the last full batch, and has written the
nodes of all full batches. -/
structure Batched (leaves : List (Bytes 32)) (writer : LeafWriter) : Prop where
  buffered : writer.batchBuf = leaves.drop (leaves.length / batchSize * batchSize)
  written : writer.written = concat
    ((level (hashPair blake) leaves checkpointInterval).take (leaves.length / batchSize))

theorem batched_node (leaves : List (Bytes 32)) (index : Nat)
    (inside : index * batchSize < leaves.length) :
    ∃ node, (level (hashPair blake) leaves checkpointInterval)[index]? = some node :=
  level_node (hashPair blake) leaves ((lt_width leaves.length checkpointInterval index).mpr inside)

/-- The tail after `index` full batches, when it is at most one batch long. -/
theorem fold_tail (leaves : List (Bytes 32)) (index : Nat)
    (short : leaves.length ≤ (index + 1) * batchSize) :
    foldLevels blake (leaves.drop (index * batchSize)) checkpointInterval =
      (level (hashPair blake) leaves checkpointInterval)[index]? := by
  have window := fold_window blake leaves checkpointInterval index
  rw [← batchSize, List.take_of_length_le] at window
  · exact window
  · rw [Nat.add_mul, Nat.one_mul] at short
    rw [List.length_drop]
    omega

theorem take_next (nodes : List (Bytes 32)) (index : Nat) (node : Bytes 32)
    (found : nodes[index]? = some node) :
    concat (nodes.take (index + 1)) = concat (nodes.take index) ++ node.items := by
  rw [List.take_add_one, concat_append, found]
  simp [concat_cons]

theorem batch_count_step (count : Nat) :
    (count % batchSize + 1 = batchSize → (count + 1) / batchSize = count / batchSize + 1) ∧
      (count % batchSize + 1 ≠ batchSize → (count + 1) / batchSize = count / batchSize) := by
  have size : batchSize = 64 := rfl
  rw [size]
  omega

theorem push_leaf_batched (leaves : List (Bytes 32)) (leaf : Bytes 32) (writer : LeafWriter)
    (batched : Batched blake leaves writer) :
    ∃ after, pushLeaf blake writer leaf = some after ∧
      Batched blake (leaves ++ [leaf]) after := by
  obtain ⟨buffered, written⟩ := batched
  have inside : leaves.length / batchSize * batchSize ≤ leaves.length := Nat.div_mul_le_self _ _
  have division := Nat.div_add_mod leaves.length batchSize
  rw [Nat.mul_comm] at division
  have small : leaves.length % batchSize < batchSize := Nat.mod_lt _ (by decide)
  have added : (leaves ++ [leaf]).length = leaves.length + 1 := by simp
  have grown : writer.batchBuf ++ [leaf] =
      (leaves ++ [leaf]).drop (leaves.length / batchSize * batchSize) := by
    rw [buffered, List.drop_append_of_le_length inside]
  have length : (writer.batchBuf ++ [leaf]).length = leaves.length % batchSize + 1 := by
    rw [grown, List.length_drop, added]
    omega
  -- the leaf completes a batch, which is written, or it stays in the buffer
  by_cases full : leaves.length % batchSize + 1 = batchSize
  · have complete : leaves.length + 1 = (leaves.length / batchSize + 1) * batchSize := by
      rw [Nat.add_mul, Nat.one_mul]
      omega
    have next : (leaves ++ [leaf]).length / batchSize = leaves.length / batchSize + 1 := by
      rw [added, (batch_count_step leaves.length).1 full]
    obtain ⟨node, found⟩ := batched_node blake (leaves ++ [leaf]) (leaves.length / batchSize)
      (by omega)
    have folded := fold_tail blake (leaves ++ [leaf]) (leaves.length / batchSize) (by omega)
    rw [found, ← grown] at folded
    refine ⟨⟨[], writer.written ++ node.items⟩, ?_, ?_, ?_⟩
    · rw [pushLeaf, if_pos (by omega), folded, Option.map_some]
    · rw [next, ← complete, ← added, List.drop_length]
    · rw [next, take_next _ _ node found, taken_level blake leaves leaf _ inside, ← written]
  · have same : (leaves ++ [leaf]).length / batchSize = leaves.length / batchSize := by
      rw [added, (batch_count_step leaves.length).2 full]
    refine ⟨{ writer with batchBuf := writer.batchBuf ++ [leaf] }, ?_, ?_, ?_⟩
    · rw [pushLeaf, if_neg (by omega)]
    · rw [same, grown]
    · rw [same, taken_level blake leaves leaf _ inside, ← written]

theorem push_leaves (leaves : List (Bytes 32)) :
    ∃ writer, leaves.foldlM (pushLeaf blake) { batchBuf := [], written := [] } = some writer ∧
      Batched blake leaves writer := by
  induction leaves using List.reverseRecOn with
  | nil => exact ⟨_, rfl, rfl, rfl⟩
  | append_singleton leaves leaf ih =>
      obtain ⟨writer, pushed, batched⟩ := ih
      obtain ⟨after, step, kept⟩ := push_leaf_batched blake leaves leaf writer batched
      exact ⟨after, by simp [List.foldlM_append, pushed, step], kept⟩

theorem finish_leaves (leaves : List (Bytes 32)) (writer : LeafWriter)
    (batched : Batched blake leaves writer) :
    finishLeaves blake writer =
      some (concat (level (hashPair blake) leaves checkpointInterval)) := by
  obtain ⟨buffered, written⟩ := batched
  have length := level_length (hashPair blake) leaves checkpointInterval
  have remainder := Nat.div_add_mod leaves.length batchSize
  rw [Nat.mul_comm] at remainder
  have small : leaves.length % batchSize < batchSize := Nat.mod_lt _ (by decide)
  have next : (leaves.length / batchSize + 1) * batchSize =
      leaves.length / batchSize * batchSize + batchSize := by rw [Nat.add_mul, Nat.one_mul]
  have empty_iff : writer.batchBuf.isEmpty ↔
      leaves.length ≤ leaves.length / batchSize * batchSize := by
    rw [List.isEmpty_iff, buffered, List.drop_eq_nil_iff]
  rw [finishLeaves]
  by_cases empty : writer.batchBuf.isEmpty
  · have whole := (lt_width leaves.length checkpointInterval (leaves.length / batchSize)).not.mpr
      (Nat.not_lt_of_le (empty_iff.mp empty))
    rw [if_pos empty, written, List.take_of_length_le (by omega)]
  · have above := (lt_width leaves.length checkpointInterval (leaves.length / batchSize + 1)).not.mpr
      (by rw [← batchSize]; omega)
    obtain ⟨node, found⟩ := batched_node blake leaves (leaves.length / batchSize)
      (by rw [empty_iff] at empty; omega)
    have folded := fold_tail blake leaves (leaves.length / batchSize) (by omega)
    rw [found, ← buffered] at folded
    rw [if_neg empty, folded, Option.map_some, written, ← take_next _ _ node found,
      List.take_of_length_le (by omega)]

/-! `R_T`. -/

/-- Level of the last node written: never below the checkpoint interval. -/
def builtTop (nChunks : Nat) : Nat := max checkpointInterval (Nat.clog 2 nChunks)

theorem finalize_eq (leaves : List (Bytes 32)) (nonempty : leaves ≠ []) :
    ∃ rT, (level (hashPair blake) leaves (builtTop leaves.length))[0]? = some rT ∧
      finalizeCheckpointUpper blake (concat (level (hashPair blake) leaves checkpointInterval))
          leaves.length =
        some (stack leaves.length (storedLevels (Nat.clog 2 leaves.length)) 0,
          Nat.clog 2 leaves.length + 1, rT,
          treeBytes blake leaves (storedLevels (builtTop leaves.length))) := by
  have positive : 0 < leaves.length := List.length_pos_iff.mpr nonempty
  have inside : 0 < (level (hashPair blake) leaves (builtTop leaves.length)).length := by
    rw [level_length]
    exact width_pos positive _
  refine ⟨_, List.getElem?_eq_getElem inside, ?_⟩
  have top := List.getElem?_eq_getElem inside
  rw [finalizeCheckpointUpper, checkpoint_offsets_eq positive]
  -- for a short tree the layout names the dense root, but the one node written lies above it
  rcases Nat.lt_or_ge (Nat.clog 2 leaves.length) checkpointInterval with short | tall
  · have built : builtTop leaves.length = checkpointInterval := by
      simp only [builtTop]
      omega
    have single : storedLevels checkpointInterval = [checkpointInterval] := by decide
    have read := read_stacked blake leaves [checkpointInterval] [] []
      { level := checkpointInterval, offset := 0, count := width leaves.length checkpointInterval }
      (by simp [stack]) 0 _ (by rw [← built]; exact top)
    simp only [stored_levels_short short, stack, List.tail_cons, appendLevels, built, single]
    simp only [treeBytes, List.flatMap_cons, List.flatMap_nil, List.append_nil, List.nil_append,
      Nat.zero_mul, Nat.add_zero] at read ⊢
    simp [read, built]
  · have built : builtTop leaves.length = Nat.clog 2 leaves.length := by
      simp only [builtTop]
      omega
    obtain ⟨upper, first⟩ := stored_levels_first tall
    obtain ⟨lower, final⟩ := stored_levels_last (Nat.clog 2 leaves.length)
    have last := stack_last leaves.length lower (Nat.clog 2 leaves.length) 0
    rw [← final] at last
    have appended := append_levels_eq blake leaves [] checkpointInterval upper
      (by rw [← first]; exact stored_levels_ordered _)
    have read := read_stacked blake leaves (storedLevels (Nat.clog 2 leaves.length)) [] [] _
      (List.mem_of_getLast? last) 0 _ (by rw [← built]; exact top)
    have head : (stack leaves.length (storedLevels (Nat.clog 2 leaves.length)) 0)[0]? =
        some { level := checkpointInterval, offset := 0,
               count := width leaves.length checkpointInterval } := by
      rw [first]
      rfl
    have tail : (stack leaves.length (storedLevels (Nat.clog 2 leaves.length)) 0).tail =
        stack leaves.length upper (width leaves.length checkpointInterval * 32) := by
      rw [first, stack, List.tail_cons, Nat.zero_add]
    simp only [List.nil_append, List.length_nil, Nat.zero_add, List.append_nil, Nat.zero_mul,
      Nat.add_zero, ← first] at appended read
    simp [head, tail, appended, last, read, built]

/-- Phase 0 and the upper levels, from the leaf hashes alone. -/
def buildTree (leaves : List (Bytes 32)) :
    Option (List StoredLevel × Nat × Bytes 32 × List UInt8) := do
  let writer ← leaves.foldlM (pushLeaf blake) { batchBuf := [], written := [] }
  let file ← finishLeaves blake writer
  finalizeCheckpointUpper blake file leaves.length

def builtRoot (leaves : List (Bytes 32)) : Option (Bytes 32) :=
  (buildTree blake leaves).map fun built => built.2.2.1

theorem build_tree_eq (leaves : List (Bytes 32)) (nonempty : leaves ≠ []) :
    ∃ rT, (level (hashPair blake) leaves (builtTop leaves.length))[0]? = some rT ∧
      buildTree blake leaves =
        some (stack leaves.length (storedLevels (Nat.clog 2 leaves.length)) 0,
          Nat.clog 2 leaves.length + 1, rT,
          treeBytes blake leaves (storedLevels (builtTop leaves.length))) := by
  obtain ⟨writer, pushed, batched⟩ := push_leaves blake leaves
  obtain ⟨rT, top, finalized⟩ := finalize_eq blake leaves nonempty
  refine ⟨rT, top, ?_⟩
  simp only [buildTree, pushed, finish_leaves blake leaves writer batched, Option.bind_eq_bind,
    Option.bind_some, finalized]

theorem built_root_level (leaves : List (Bytes 32)) (nonempty : leaves ≠ []) :
    builtRoot blake leaves = (level (hashPair blake) leaves (builtTop leaves.length))[0]? := by
  obtain ⟨rT, top, built⟩ := build_tree_eq blake leaves nonempty
  rw [builtRoot, built, top]
  rfl

theorem tall_iff (nChunks : Nat) : 32 < nChunks ↔ checkpointInterval ≤ Nat.clog 2 nChunks := by
  have power := Nat.lt_clog_iff_pow_lt (x := nChunks) (y := 5) Nat.one_lt_two
  simp only [checkpointInterval]
  omega

theorem tall_root (leaves : List (Bytes 32)) (tall : 32 < leaves.length) :
    builtRoot blake leaves = merkleRoot blake leaves := by
  have nonempty : leaves ≠ [] := by
    intro empty
    simp [empty] at tall
  have top : builtTop leaves.length = Nat.clog 2 leaves.length := by
    have bound := (tall_iff leaves.length).mp tall
    simp only [builtTop]
    omega
  rw [built_root_level blake leaves nonempty, merkle_root_eq, top]
  rfl

end File

/-! A hash that counts the levels below it separates short trees. -/

def numbered (value : Nat) : Bytes 32 := ⟨encode 32 value, encode_length 32 value⟩

def heightBlake : Blake (Bytes 32) where
  hash
    | .state _ => numbered 0
    | .chunk _ => numbered 0
    | .pair left _ => numbered (decode left.items + 1)
  draw _ _ _ _ _ := 0

theorem numbered_level (count height : Nat) (small : height < 256 ^ 32) :
    ∀ node ∈ level (hashPair heightBlake) (List.replicate count (numbered 0)) height,
      decode node.items = height := by
  induction height with
  | zero =>
      intro node member
      rw [List.eq_of_mem_replicate member]
      rfl
  | succ height ih =>
      intro node member
      rw [level_succ] at member
      obtain ⟨left, below, right, _, rfl⟩ := MerkleBinding.mem_parents _ member
      have value := ih (by omega) left below
      change decode (encode 32 (decode left.items + 1)) = height + 1
      rw [decode_encode, value, Nat.mod_eq_of_lt small]

theorem short_root_differs (count : Nat) (positive : 1 ≤ count) (short : count ≤ 32) :
    builtRoot heightBlake (List.replicate count (numbered 0)) ≠
      merkleRoot heightBlake (List.replicate count (numbered 0)) := by
  have nonempty : List.replicate count (numbered 0) ≠ [] := by
    intro empty
    rw [List.replicate_eq_nil_iff] at empty
    omega
  have below := (tall_iff count).not.mp (Nat.not_lt_of_le short)
  have top : builtTop count = checkpointInterval := by
    simp only [builtTop]
    omega
  rw [built_root_level _ _ nonempty, merkle_root_eq, MerkleLevels.root, List.length_replicate, top]
  intro same
  have inside : 0 < (level (hashPair heightBlake) (List.replicate count (numbered 0))
      checkpointInterval).length := by
    rw [level_length, List.length_replicate]
    exact width_pos positive _
  rw [List.getElem?_eq_getElem inside] at same
  have built := numbered_level count checkpointInterval (by decide) _ (List.getElem_mem inside)
  have dense := numbered_level count (Nat.clog 2 count)
    (Nat.lt_trans (Nat.lt_of_not_le below) (by decide)) _
    (List.mem_of_getElem? same.symm)
  omega

/-- The checkpointed root is the dense root for every list of `count` leaves
exactly when the tree is taller than the leaf batches. -/
theorem built_root_exact (count : Nat) (positive : 1 ≤ count) :
    (∀ (blake : Blake (Bytes 32)) (leaves : List (Bytes 32)), leaves.length = count →
      builtRoot blake leaves = merkleRoot blake leaves) ↔ 32 < count := by
  constructor
  · intro equal
    by_contra short
    exact short_root_differs count positive (Nat.le_of_not_lt short)
      (equal heightBlake _ List.length_replicate)
  · rintro tall blake leaves rfl
    exact tall_root blake leaves tall

/-- On both sides of the condition. -/
theorem built_root_exact_cases :
    (¬ ∀ (blake : Blake (Bytes 32)) (leaves : List (Bytes 32)), leaves.length = 1 →
      builtRoot blake leaves = merkleRoot blake leaves) ∧
    ∀ (blake : Blake (Bytes 32)) (leaves : List (Bytes 32)), leaves.length = 33 →
      builtRoot blake leaves = merkleRoot blake leaves := by
  constructor
  · intro equal
    exact absurd ((built_root_exact 1 (by decide)).mp equal) (by decide)
  · exact (built_root_exact 33 (by decide)).mpr (by decide)

/-- One chunk: the builder hashes its leaf six times, the dense root is the leaf. -/
theorem single_leaf_root_differs :
    ¬ ∀ (count : Nat) (blake : Blake (Bytes 32)) (leaves : List (Bytes 32)), 1 ≤ count →
      leaves.length = count → builtRoot blake leaves = merkleRoot blake leaves := by
  intro equal
  exact short_root_differs 1 (by decide) (by decide)
    (equal 1 heightBlake [numbered 0] (by decide) rfl)

end KeryxMiner.CheckpointTree
