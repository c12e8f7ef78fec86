import KeryxMiner.ChunkLayout
import Mathlib.Data.Nat.Bitwise

/-!
Paths over the sparse tree. Below the root every path node is the dense sibling,
whether it is read from a stored level or folded again from the nearest source
below it. Both readers give the same path, so no read leaves its own level.
-/

namespace KeryxMiner.SparsePaths

open ByteCodec PossessionProof WeightIndex CheckpointTree ChunkLayout MerkleLevels

/-- An index over `leaves` whose file holds the levels the builder writes. -/
structure SparseTree (blake : Blake (Bytes 32)) (leaves : List (Bytes 32)) (index : Index) :
    Prop where
  nonempty : leaves ≠ []
  count : index.nChunks = leaves.length
  leaf : ∀ i < leaves.length, (readChunkBytes index i).map (chunkLeaf blake) = leaves[i]?
  checkpoints : index.checkpoints = stack leaves.length (storedLevels (Nat.clog 2 leaves.length)) 0
  levels : index.totalLevels = Nat.clog 2 leaves.length + 1
  file : index.treeFile = treeBytes blake leaves (storedLevels (builtTop leaves.length))

theorem indexes_sparse {blake : Blake (Bytes 32)} {chunks : List (Bytes 32)} {index : Index}
    (indexes : Indexes blake chunks index) (nonempty : chunks ≠ []) :
    SparseTree blake (chunks.map (chunkLeaf blake)) index := by
  have some_leaf : chunks.map (chunkLeaf blake) ≠ [] := by simpa using nonempty
  obtain ⟨rT, _, tree⟩ := build_tree_eq blake _ some_leaf
  have fields := Option.some.inj (indexes.tree.symm.trans tree)
  simp only [Prod.mk.injEq] at fields
  refine ⟨some_leaf, ?_, ?_, fields.1, fields.2.1, fields.2.2.2⟩
  · rw [List.length_map, indexes.count]
  · intro i inside
    rw [List.length_map] at inside
    rw [indexes.reads i inside, List.getElem?_map]

/-! Stored levels. -/

theorem find_stacked (nChunks : Nat) (heights : List Nat) (off height : Nat)
    (member : height ∈ heights) :
    ∃ cp, (stack nChunks heights off).find? (fun cp => cp.level = height) = some cp ∧
      cp.level = height ∧ cp.count = width nChunks height := by
  induction heights generalizing off with
  | nil => simp at member
  | cons first rest ih =>
      by_cases same : first = height
      · exact ⟨⟨first, off, width nChunks first⟩, by simp [stack, same], same, by rw [same]⟩
      · have later : height ∈ rest := by
          rcases List.mem_cons.mp member with here | there
          · exact absurd here.symm same
          · exact there
        obtain ⟨cp, found, facts⟩ := ih (off + width nChunks first * 32) later
        exact ⟨cp, by simpa [stack, same] using found, facts⟩

section Paths
variable {blake : Blake (Bytes 32)} {leaves : List (Bytes 32)} {index : Index}

/-- Levels that paths read from the file. -/
def ReadLevel (leaves : List (Bytes 32)) (height : Nat) : Prop :=
  0 < height ∧ height % checkpointInterval = 0 ∧ height < Nat.clog 2 leaves.length

theorem read_level_tall {height : Nat} (stored : ReadLevel leaves height) :
    builtTop leaves.length = Nat.clog 2 leaves.length := by
  obtain ⟨positive, multiple, below⟩ := stored
  simp only [builtTop, checkpointInterval] at multiple ⊢
  omega

/-- A reader that returns the nodes of every level that paths read. -/
def ReadsLevels (blake : Blake (Bytes 32)) (leaves : List (Bytes 32)) (index : Index)
    (read : TreeReader) : Prop :=
  ∀ height, ReadLevel leaves height → ∃ cp, findCheckpoint index height = some cp ∧
    cp.count = width leaves.length height ∧
    ∀ i node, (level (hashPair blake) leaves height)[i]? = some node →
      read cp (cp.offset + i * 32) = some node

theorem find_checkpoint_read (sparse : SparseTree blake leaves index) {height : Nat}
    (stored : ReadLevel leaves height) :
    ∃ cp, findCheckpoint index height = some cp ∧ cp.count = width leaves.length height ∧
      ∀ i node, (level (hashPair blake) leaves height)[i]? = some node →
        readExactAt 32 index.treeFile (cp.offset + i * 32) = some node := by
  have member : height ∈ storedLevels (Nat.clog 2 leaves.length) :=
    (mem_stored_levels _ _).mpr ⟨Nat.le_of_lt stored.2.2, Or.inl ⟨stored.1, stored.2.1⟩⟩
  obtain ⟨cp, found, same, count⟩ := find_stacked leaves.length _ 0 height member
  refine ⟨cp, by rw [findCheckpoint, sparse.checkpoints, found], count, fun i node present => ?_⟩
  have placed := List.mem_of_find?_eq_some found
  rw [← same] at present
  have read := read_stacked blake leaves (storedLevels (Nat.clog 2 leaves.length)) [] [] cp
    placed i node present
  rw [sparse.file, read_level_tall stored]
  simpa using read

theorem plain_reads_levels (sparse : SparseTree blake leaves index) :
    ReadsLevels blake leaves index (plainReader index.treeFile) := by
  intro height stored
  exact find_checkpoint_read sparse stored

theorem guarded_reads_levels (sparse : SparseTree blake leaves index) :
    ReadsLevels blake leaves index (guardedReader index.treeFile) := by
  intro height stored
  obtain ⟨cp, found, count, reads⟩ := find_checkpoint_read sparse stored
  refine ⟨cp, found, count, fun i node present => ?_⟩
  have inside := (List.getElem?_eq_some_iff.mp present).1
  rw [level_length, ← count] at inside
  rw [guardedReader, if_pos ⟨Nat.le_add_right _ _, by omega⟩]
  exact reads i node present

/-! Levels rebuilt from the source below them. -/

variable {read : TreeReader}

theorem source_count_eq (sparse : SparseTree blake leaves index)
    (reads : ReadsLevels blake leaves index read) {srcLevel : Nat}
    (source : srcLevel = 0 ∨ ReadLevel leaves srcLevel) :
    sourceCount index srcLevel = some (width leaves.length srcLevel) := by
  rcases source with rfl | stored
  · simp [sourceCount, sparse.count, width]
  · obtain ⟨cp, found, count, _⟩ := reads srcLevel stored
    rw [sourceCount, if_neg (by have := stored.1; omega), found, Option.map_some, count]

theorem source_node_eq (sparse : SparseTree blake leaves index)
    (reads : ReadsLevels blake leaves index read) {srcLevel i : Nat}
    (source : srcLevel = 0 ∨ ReadLevel leaves srcLevel)
    (inside : i < width leaves.length srcLevel) :
    sourceNode blake read index srcLevel i = (level (hashPair blake) leaves srcLevel)[i]? := by
  rcases source with rfl | stored
  · rw [sourceNode, if_pos rfl, sparse.leaf i inside, level_zero]
  · obtain ⟨cp, found, _, nodes⟩ := reads srcLevel stored
    obtain ⟨node, present⟩ := level_node (hashPair blake) leaves inside
    rw [sourceNode, if_neg (by have := stored.1; omega), found, Option.bind_some, present]
    exact nodes i node present

theorem subtree_hash_eq (sparse : SparseTree blake leaves index)
    (reads : ReadsLevels blake leaves index read) {srcLevel i : Nat} (rounds : Nat)
    (source : srcLevel = 0 ∨ ReadLevel leaves srcLevel)
    (inside : i < width leaves.length (srcLevel + rounds)) :
    computeSubtreeHash blake read index (i * 2 ^ rounds) (2 ^ rounds) srcLevel =
      (level (hashPair blake) leaves (srcLevel + rounds))[i]? := by
  rw [← width_add, lt_width] at inside
  have length := level_length (hashPair blake) leaves srcLevel
  have started : ¬ width leaves.length srcLevel ≤ i * 2 ^ rounds := Nat.not_le_of_lt inside
  have window : ((level (hashPair blake) leaves srcLevel).drop (i * 2 ^ rounds)).take
      (min (i * 2 ^ rounds + 2 ^ rounds) (width leaves.length srcLevel) - i * 2 ^ rounds) =
        ((level (hashPair blake) leaves srcLevel).drop (i * 2 ^ rounds)).take (2 ^ rounds) := by
    rw [← length, ← Nat.sub_min_sub_right, Nat.add_sub_cancel_left, ← List.length_drop,
      ← List.take_eq_take_min]
  have nodes := map_range_records
    (fun j => sourceNode blake read index srcLevel (i * 2 ^ rounds + j))
    (((level (hashPair blake) leaves srcLevel).drop (i * 2 ^ rounds)).take
      (min (i * 2 ^ rounds + 2 ^ rounds) (width leaves.length srcLevel) - i * 2 ^ rounds)) ?_
  · rw [List.length_take, List.length_drop, length, Nat.min_eq_left (by omega)] at nodes
    simp only [computeSubtreeHash, source_count_eq sparse reads source, Option.bind_eq_bind,
      Option.bind_some, if_neg started, Nat.log2_two_pow, nodes, window, fold_window, level_add]
  · intro j small
    rw [List.length_take, List.length_drop, length] at small
    rw [source_node_eq sparse reads source (by omega), List.getElem?_take_of_lt (by omega),
      List.getElem?_drop]

/-! One path node, then the path. -/

theorem flipped_index (idx : Nat) :
    idx ^^^ 1 = if idx % 2 = 0 then idx + 1 else idx - 1 := by
  rcases Nat.mod_two_eq_zero_or_one idx with even | odd
  · rw [if_pos even, Nat.xor_one_of_even (Nat.even_iff.mpr even)]
  · rw [if_neg (by omega), Nat.xor_one_of_odd (Nat.odd_iff.mpr odd)]

theorem sibling_clipped (nodes : List (Bytes 32)) (idx : Nat) :
    sibling nodes idx = nodes[if idx ^^^ 1 < nodes.length then idx ^^^ 1 else idx]? := by
  rw [← level_sibling_eq, levelSibling, ← flipped_index]
  by_cases inside : idx ^^^ 1 < nodes.length
  · simp only [if_pos inside]
  · simp only [if_neg inside]

theorem count_at_level_eq (nChunks height : Nat) :
    (fun count => (count + 1) / 2)^[height] nChunks = width nChunks height := by
  induction height with
  | zero => rfl
  | succ height ih => rw [Function.iterate_succ_apply', ih, width]

theorem path_node_eq (sparse : SparseTree blake leaves index)
    (reads : ReadsLevels blake leaves index read) {height idx : Nat}
    (below : height < Nat.clog 2 leaves.length) (inside : idx < width leaves.length height) :
    pathNode blake read index height idx = sibling (level (hashPair blake) leaves height) idx := by
  have top : index.totalLevels - 1 = Nat.clog 2 leaves.length := by
    rw [sparse.levels, Nat.add_sub_cancel]
  have clipped : (if idx ^^^ 1 < width leaves.length height then idx ^^^ 1 else idx) <
      width leaves.length height := by
    split
    · assumption
    · exact inside
  rw [sibling_clipped, level_length, pathNode, top]
  by_cases stored : 0 < height ∧ height % checkpointInterval = 0
  · have level_read : ReadLevel leaves height := ⟨stored.1, stored.2, below⟩
    obtain ⟨cp, found, count, nodes⟩ := reads height level_read
    obtain ⟨node, present⟩ := level_node (hashPair blake) leaves clipped
    rw [if_pos ⟨stored.1, Or.inl stored.2⟩, present]
    simp only [storedSibling, found, count, Option.bind_eq_bind, Option.bind_some]
    exact nodes _ node present
  -- an unstored level is folded from the chunks or from the stored level below it
  · have rises : height / checkpointInterval * checkpointInterval +
        (height - height / checkpointInterval * checkpointInterval) = height := by
      have bound := Nat.div_mul_le_self height checkpointInterval
      omega
    have source : height / checkpointInterval * checkpointInterval = 0 ∨
        ReadLevel leaves (height / checkpointInterval * checkpointInterval) := by
      rcases Nat.eq_zero_or_pos (height / checkpointInterval * checkpointInterval) with
        zero | positive
      · exact Or.inl zero
      · exact Or.inr ⟨positive, Nat.mul_mod_left _ _, by omega⟩
    have rebuilt := subtree_hash_eq sparse reads (height - height / checkpointInterval *
      checkpointInterval) source (by rw [rises]; exact clipped)
    rw [rises] at rebuilt
    rw [if_neg (by omega), computedSibling, countAtLevel, count_at_level_eq, sparse.count, rebuilt]

/-- From any level on, the loop walks the dense path. -/
theorem path_loop_eq (sparse : SparseTree blake leaves index)
    (reads : ReadsLevels blake leaves index read) (gap height idx : Nat)
    (remaining : height + gap = Nat.clog 2 leaves.length)
    (inside : idx < width leaves.length height) :
    pathLoop blake read index (List.range' height (gap + 1)) idx =
      path (hashPair blake) gap (level (hashPair blake) leaves height) idx := by
  have top : index.totalLevels - 1 = Nat.clog 2 leaves.length := by
    rw [sparse.levels, Nat.add_sub_cancel]
  induction gap generalizing height idx with
  | zero =>
      rw [List.range'_succ, pathLoop, if_pos (by omega)]
      rfl
  | succ gap ih =>
      have above : idx / 2 < width leaves.length (height + 1) := by
        rw [width]
        omega
      rw [List.range'_succ, pathLoop, if_neg (by omega),
        path_node_eq sparse reads (by omega) inside, ih (height + 1) (idx / 2) (by omega) above,
        path, level_succ]

theorem sparse_path_eq (sparse : SparseTree blake leaves index)
    (reads : ReadsLevels blake leaves index read) (off : Nat) (inside : off < leaves.length) :
    merklePathWith blake read index off = merkleProof blake leaves off := by
  have loop := path_loop_eq sparse reads (Nat.clog 2 leaves.length) 0 off (by omega) inside
  rw [merkle_proof_eq, merklePathWith, sparse.levels, List.range_eq_range', loop, level_zero]

end Paths

/-- Over a fresh build every path is the dense path, also through a reader that
refuses reads outside the file or outside the level they are made for. -/
theorem fresh_paths_dense (blake : Blake (Bytes 32)) (gguf : Gguf) (served : Served gguf)
    (chunks : List (Bytes 32)) (layout : canonicalChunks gguf = some chunks)
    (nonempty : chunks ≠ []) :
    ∃ index, buildFresh blake gguf = .ok index ∧ index.nChunks = chunks.length ∧
      ∀ off < index.nChunks, ∃ steps,
        merkleProof blake (chunks.map (chunkLeaf blake)) off = some steps ∧
        merklePath blake index off = some steps ∧
        merklePathWith blake (guardedReader index.treeFile) index off = some steps := by
  obtain ⟨index, built, indexes⟩ := build_fresh_indexes blake gguf served chunks layout nonempty
  refine ⟨index, built, indexes.count, fun off inside => ?_⟩
  have sparse := indexes_sparse indexes nonempty
  have leaf : off < (chunks.map (chunkLeaf blake)).length := by
    rwa [List.length_map, ← indexes.count]
  obtain ⟨steps, dense, _⟩ := path_present (hashPair blake)
    (Nat.clog 2 (chunks.map (chunkLeaf blake)).length) (chunks.map (chunkLeaf blake)) off leaf
  rw [← merkle_proof_eq] at dense
  refine ⟨steps, dense, ?_, ?_⟩
  · rw [merklePath, sparse_path_eq sparse (plain_reads_levels sparse) off leaf, dense]
  · rw [sparse_path_eq sparse (guarded_reads_levels sparse) off leaf, dense]

/-- Sixty-five chunks: two nodes at the first stored level, the second one alone. -/
theorem fresh_paths_dense_two_batches :
    ∃ index, buildFresh heightBlake (ggufOfChunks (List.replicate 65 (numbered 0))) = .ok index ∧
      index.nChunks = (List.replicate 65 (numbered 0)).length ∧
      ∀ off < index.nChunks, ∃ steps,
        merkleProof heightBlake
          ((List.replicate 65 (numbered 0)).map (chunkLeaf heightBlake)) off = some steps ∧
        merklePath heightBlake index off = some steps ∧
        merklePathWith heightBlake (guardedReader index.treeFile) index off = some steps :=
  fresh_paths_dense heightBlake _ (of_chunks_served _) _ (of_chunks_layout _)
    (by rw [ne_eq, List.replicate_eq_nil_iff]; decide)

end KeryxMiner.SparsePaths
