import KeryxMiner.SparsePaths

/-!
Reuse of a `pom-tree.bin` already on disk. Every byte of the file is read by
`R_T` or by some path, and the reuse decision looks only at the file's size: the
answers are those of a fresh build exactly when a file of the expected size is
the file a fresh build writes.
-/

namespace KeryxMiner.TreeReuse

open ByteCodec PossessionProof WeightIndex CheckpointTree ChunkLayout MerkleLevels SparsePaths

/-- The stored levels of the dense tree over `chunks`, one after the other. -/
def sparseFile (blake : Blake (Bytes 32)) (chunks : List (Bytes 32)) : List UInt8 :=
  treeBytes blake (chunks.map (chunkLeaf blake)) (storedLevels (builtTop chunks.length))

def SameAnswers (blake : Blake (Bytes 32)) (index fresh : Index) : Prop :=
  index.rT = fresh.rT ∧
    ∀ off < fresh.nChunks, merklePath blake index off = merklePath blake fresh off

/-! The layout names each stored level once. -/

theorem stack_levels (nChunks : Nat) (heights : List Nat) (off : Nat) :
    (stack nChunks heights off).map StoredLevel.level = heights := by
  induction heights generalizing off with
  | nil => rfl
  | cons height rest ih => simp [stack, ih]

theorem find_member {nChunks : Nat} {heights : List Nat} (ordered : heights.Pairwise (· < ·))
    {off : Nat} {cp : StoredLevel} (member : cp ∈ stack nChunks heights off) :
    (stack nChunks heights off).find? (fun other => other.level = cp.level) = some cp := by
  induction heights generalizing off with
  | nil => simp [stack] at member
  | cons height rest ih =>
      rcases List.mem_cons.mp member with rfl | later
      · simp [stack]
      · have listed : cp.level ∈ rest := by
          rw [← stack_levels nChunks rest (off + width nChunks height * 32)]
          exact List.mem_map_of_mem later
        have above := (List.pairwise_cons.mp ordered).1 cp.level listed
        rw [stack, List.find?_cons_of_neg (by simp; omega)]
        exact ih (List.pairwise_cons.mp ordered).2 later

section Reads
variable {blake : Blake (Bytes 32)} {leaves : List (Bytes 32)}

theorem levels_read_back (blake : Blake (Bytes 32)) (leaves : List (Bytes 32))
    (heights : List Nat) (tree : List UInt8) (off : Nat)
    (reads : ∀ cp ∈ stack leaves.length heights off, ∀ i node,
      (level (hashPair blake) leaves cp.level)[i]? = some node →
        readExactAt 32 tree (cp.offset + i * 32) = some node) :
    (tree.drop off).take (stackSize leaves.length heights) = treeBytes blake leaves heights := by
  induction heights generalizing off with
  | nil => simp [stackSize, treeBytes]
  | cons height rest ih =>
      have here := read_all_records tree (level (hashPair blake) leaves height) off
        (reads _ (by rw [stack]; exact List.mem_cons_self))
      have tail := ih (off + width leaves.length height * 32) fun cp member =>
        reads cp (by rw [stack]; exact List.mem_cons_of_mem _ member)
      rw [level_length] at here
      rw [tree_bytes_cons, ← here, ← tail, ← List.drop_drop, stackSize, List.map_cons,
        List.sum_cons, List.take_add]
      rfl

/-- Every node of a level is the sibling some position of that level reads. -/
theorem sibling_onto {count i : Nat} (inside : i < count) :
    ∃ idx < count, (if idx ^^^ 1 < count then idx ^^^ 1 else idx) = i := by
  by_cases partner : i ^^^ 1 < count
  · exact ⟨i ^^^ 1, partner, by rw [Nat.xor_xor_cancel_right, if_pos inside]⟩
  · exact ⟨i, inside, if_neg partner⟩

theorem path_loop_node (read : TreeReader) (index : Index) (count low idx : Nat)
    (steps : List (Bytes 32))
    (walked : pathLoop blake read index (List.range' low count) idx = some steps) (j : Nat)
    (inside : j < count) (below : low + j < index.totalLevels - 1) :
    pathNode blake read index (low + j) (idx / 2 ^ j) = steps[j]? := by
  induction count generalizing low idx steps j with
  | zero => omega
  | succ count ih =>
      rw [List.range'_succ, pathLoop, if_neg (by omega)] at walked
      simp only [Option.bind_eq_bind, Option.bind_eq_some_iff, Option.some.injEq] at walked
      obtain ⟨node, here, rest, above, rfl⟩ := walked
      cases j with
      | zero => simpa using here
      | succ j =>
          have tail := ih (low + 1) (idx / 2) rest above j (by omega) (by omega)
          rw [Nat.div_div_eq_div_mul, ← Nat.pow_succ'] at tail
          rwa [show low + (j + 1) = low + 1 + j by omega, List.getElem?_cons_succ]

/-- If an index whose layout is that of a sparse tree gives all the dense paths,
then its file holds every level that paths read. -/
theorem paths_determine_level (fresh index : Index) (sparse : SparseTree blake leaves fresh)
    (checkpoints : index.checkpoints = fresh.checkpoints)
    (levels : index.totalLevels = fresh.totalLevels)
    (paths : ∀ off < leaves.length, merklePath blake index off = merkleProof blake leaves off)
    {height : Nat} (stored : ReadLevel leaves height) (cp : StoredLevel)
    (found : findCheckpoint fresh height = some cp) (i : Nat) (node : Bytes 32)
    (present : (level (hashPair blake) leaves height)[i]? = some node) :
    readExactAt 32 index.treeFile (cp.offset + i * 32) = some node := by
  have inside := (List.getElem?_eq_some_iff.mp present).1
  rw [level_length] at inside
  -- the path of a leaf below `idx` reads node `i` of this level
  obtain ⟨idx, position, same⟩ := sibling_onto inside
  have off_inside : idx * 2 ^ height < leaves.length := (lt_width _ _ _).mp position
  have total : index.totalLevels = Nat.clog 2 leaves.length + 1 := by
    rw [levels, sparse.levels]
  obtain ⟨steps, dense, _⟩ := path_present (hashPair blake) (Nat.clog 2 leaves.length) leaves
    (idx * 2 ^ height) off_inside
  rw [← merkle_proof_eq] at dense
  have below := stored.2.2
  have own := paths _ off_inside
  rw [dense, merklePath, merklePathWith, total, List.range_eq_range'] at own
  have honest := sparse_path_eq sparse (plain_reads_levels sparse) _ off_inside
  rw [dense, merklePathWith, sparse.levels, List.range_eq_range'] at honest
  have own_node := path_loop_node _ index _ 0 _ steps own height (by omega) (by omega)
  have honest_node := path_loop_node _ fresh _ 0 _ steps honest height (by omega)
    (by rw [sparse.levels]; omega)
  have cancel : idx * 2 ^ height / 2 ^ height = idx :=
    Nat.mul_div_cancel _ (Nat.two_pow_pos height)
  rw [Nat.zero_add, cancel] at own_node honest_node
  have clipped := sibling_clipped (level (hashPair blake) leaves height) idx
  rw [level_length, same, present] at clipped
  rw [path_node_eq sparse (plain_reads_levels sparse) below position, clipped] at honest_node
  obtain ⟨known, found_known, count, _⟩ := find_checkpoint_read sparse stored
  obtain rfl := Option.some.inj (found_known.symm.trans found)
  have find_same : findCheckpoint index height = some known := by
    rw [findCheckpoint, checkpoints]
    exact found
  rw [← honest_node, pathNode, if_pos ⟨stored.1, Or.inl stored.2.1⟩] at own_node
  simp only [storedSibling, find_same, count, same, Option.bind_eq_bind, Option.bind_some,
    plainReader] at own_node
  exact own_node

end Reads

/-! The two indexes over one model. -/

section Reopened
variable {blake : Blake (Bytes 32)} {gguf : Gguf} {chunks : List (Bytes 32)}

theorem built_size {nChunks : Nat} (positive : 0 < nChunks) :
    stackSize nChunks (storedLevels (builtTop nChunks)) =
      stackSize nChunks (storedLevels (Nat.clog 2 nChunks)) := by
  rcases Nat.lt_or_ge (Nat.clog 2 nChunks) checkpointInterval with short | tall
  · have built : builtTop nChunks = checkpointInterval := by
      simp only [builtTop]
      omega
    have single : width nChunks checkpointInterval = 1 := by
      have few := (one_lt_width nChunks checkpointInterval).not.mpr (by omega)
      have some_node := width_pos positive checkpointInterval
      omega
    have alone : storedLevels checkpointInterval = [checkpointInterval] := by decide
    simp [built, alone, stored_levels_short short, stackSize, single, width_top positive]
  · have built : builtTop nChunks = Nat.clog 2 nChunks := by
      simp only [builtTop]
      omega
    rw [built]

theorem sparse_file_length (nonempty : chunks ≠ []) :
    (sparseFile blake chunks).length = expectedSize (computeCheckpointOffsets chunks.length).1 := by
  have positive : 0 < chunks.length := List.length_pos_iff.mpr nonempty
  rw [sparseFile, tree_bytes_length, List.length_map, built_size positive,
    expected_size_eq positive]

/-- Reopening differs from a fresh build in the file and in the root read from it. -/
theorem reopened_eq (layout : canonicalChunks gguf = some chunks) (nonempty : chunks ≠ [])
    {tree : List UInt8} {fresh index : Index} (built : buildFresh blake gguf = .ok fresh)
    (reopened : openExistingTree tree gguf = .ok index) :
    index = { fresh with rT := index.rT, treeFile := tree } ∧
      (∃ rootCp, fresh.checkpoints.getLast? = some rootCp ∧
        readExactAt 32 tree rootCp.offset = some index.rT) := by
  obtain ⟨loop, hashing, reading, rfl, counted, _⟩ := leaf_loop_eq blake gguf chunks layout
  obtain ⟨known, ok, count, file, table, grown⟩ :=
    build_fresh_eq blake gguf loop hashing counted nonempty
  obtain rfl := Except.ok.inj (built.symm.trans ok)
  have some_leaf : loop.hashed.map (chunkLeaf blake) ≠ [] := by simpa using nonempty
  obtain ⟨rT, _, shape⟩ := build_tree_eq blake _ some_leaf
  have fields := Option.some.inj (grown.symm.trans shape)
  simp only [Prod.mk.injEq, List.length_map] at fields
  obtain ⟨_, spec⟩ := open_existing_eq blake gguf loop reading counted nonempty tree
  obtain ⟨own_count, own_file, own_table, own_tree, own_layout, rootCp, last, read⟩ :=
    spec index reopened
  rw [checkpoint_offsets_eq (List.length_pos_iff.mpr nonempty)] at own_layout
  simp only [Prod.mk.injEq] at own_layout
  have checkpoints : fresh.checkpoints = index.checkpoints := fields.1.trans own_layout.1.symm
  have levels : fresh.totalLevels = index.totalLevels := fields.2.1.trans own_layout.2.symm
  refine ⟨?_, rootCp, by rw [checkpoints, last], read⟩
  cases index
  cases fresh
  simp only at *
  subst count file table own_count own_file own_table own_tree checkpoints levels
  rfl

theorem fresh_root_read {index : Index} (indexes : Indexes blake chunks index) :
    ∃ rootCp, index.checkpoints.getLast? = some rootCp ∧
      readExactAt 32 index.treeFile rootCp.offset = some index.rT := by
  have tree := indexes.tree
  simp only [buildTree, finalizeCheckpointUpper, Option.bind_eq_bind, Option.bind_eq_some_iff,
    Option.some.injEq, Prod.mk.injEq] at tree
  obtain ⟨_, _, _, _, _, _, _, _, rootCp, last, rT, read, checkpoints, _, rfl, rfl⟩ := tree
  exact ⟨rootCp, checkpoints ▸ last, read⟩

theorem root_node {index : Index} (indexes : Indexes blake chunks index) (nonempty : chunks ≠ []) :
    (level (hashPair blake) (chunks.map (chunkLeaf blake)) (builtTop chunks.length))[0]? =
      some index.rT := by
  have some_leaf : chunks.map (chunkLeaf blake) ≠ [] := by simpa using nonempty
  obtain ⟨rT, top, shape⟩ := build_tree_eq blake _ some_leaf
  have fields := Option.some.inj (indexes.tree.symm.trans shape)
  simp only [Prod.mk.injEq] at fields
  rw [List.length_map] at top
  rw [top, fields.2.2.1]

theorem root_alone (nChunks i : Nat) (inside : i < width nChunks (builtTop nChunks)) : i = 0 := by
  have bound := (one_lt_width nChunks (builtTop nChunks)).not.mpr
    (Nat.not_lt_of_le (Nat.le_max_right _ _))
  omega

theorem stack_top_offset {nChunks top : Nat}
    (single : width nChunks top = 1) {cp : StoredLevel}
    (member : cp ∈ stack nChunks (storedLevels top) 0) (last : cp.level = top) :
    cp.offset + 32 = stackSize nChunks (storedLevels top) := by
  obtain ⟨lower, final⟩ := stored_levels_last top
  have ordered := stored_levels_ordered top
  have final_cp := List.mem_of_getLast? (final ▸ stack_last nChunks lower top 0)
  have found := find_member ordered member
  rw [last] at found
  have same := Option.some.inj (found.symm.trans (find_member ordered final_cp))
  rw [same, final]
  simp [stackSize, single]

/-- The stored root is read from one place, by either layout. -/
theorem root_read_back (nonempty : chunks ≠ []) {fresh : Index} {tree : List UInt8}
    (indexes : Indexes blake chunks fresh)
    (rooted : ∃ rootCp, fresh.checkpoints.getLast? = some rootCp ∧
      readExactAt 32 tree rootCp.offset = some fresh.rT)
    {cp : StoredLevel} (member : cp ∈ stack chunks.length (storedLevels (builtTop chunks.length)) 0)
    (last : cp.level = builtTop chunks.length) (i : Nat) (node : Bytes 32)
    (present : (level (hashPair blake) (chunks.map (chunkLeaf blake)) cp.level)[i]? = some node) :
    readExactAt 32 tree (cp.offset + i * 32) = some node := by
  have positive : 0 < chunks.length := List.length_pos_iff.mpr nonempty
  have sparse := indexes_sparse indexes nonempty
  have inside := (List.getElem?_eq_some_iff.mp present).1
  rw [level_length, List.length_map, last] at inside
  obtain rfl := root_alone _ _ inside
  rw [last, root_node indexes nonempty] at present
  obtain ⟨rootCp, final, read⟩ := rooted
  obtain ⟨lower, split⟩ := stored_levels_last (Nat.clog 2 chunks.length)
  have single : width chunks.length (builtTop chunks.length) = 1 := by
    have some_node := width_pos positive (builtTop chunks.length)
    have none_above := root_alone chunks.length
      (width chunks.length (builtTop chunks.length) - 1) (by omega)
    omega
  have own := stack_top_offset single member last
  rw [sparse.checkpoints, List.length_map] at final
  have root_member := List.mem_of_getLast? final
  have root_level : rootCp.level = Nat.clog 2 chunks.length := by
    rw [split, stack_last] at final
    rw [← Option.some.inj final]
  have root := stack_top_offset (width_top positive) root_member root_level
  rw [built_size positive] at own
  rw [Nat.zero_mul, Nat.add_zero, show cp.offset = rootCp.offset by omega, read, ← present]

/-- A file of the expected size that answers like a fresh build holds every
stored node. -/
theorem same_answers_file (nonempty : chunks ≠ []) {fresh : Index} {rT : Bytes 32}
    {tree : List UInt8} (indexes : Indexes blake chunks fresh)
    (size : tree.length = expectedSize (computeCheckpointOffsets chunks.length).1)
    (same : SameAnswers blake { fresh with rT, treeFile := tree } fresh)
    (rooted : ∃ rootCp, fresh.checkpoints.getLast? = some rootCp ∧
      readExactAt 32 tree rootCp.offset = some rT) :
    tree = sparseFile blake chunks := by
  have positive : 0 < chunks.length := List.length_pos_iff.mpr nonempty
  have sparse := indexes_sparse indexes nonempty
  have leaf_count : (chunks.map (chunkLeaf blake)).length = chunks.length := List.length_map _
  obtain ⟨root_same, paths⟩ := same
  obtain rfl : rT = fresh.rT := root_same
  have whole := levels_read_back blake (chunks.map (chunkLeaf blake))
    (storedLevels (builtTop chunks.length)) tree 0 ?_
  · rw [List.drop_zero, leaf_count, built_size positive, ← expected_size_eq positive, ← size,
      List.take_length] at whole
    exact whole
  intro cp member i node present
  rw [leaf_count] at member
  -- the root is read as `R_T`; every other stored level is read by some path
  by_cases last : cp.level = builtTop chunks.length
  · exact root_read_back nonempty indexes rooted member last i node present
  · have listed : cp.level ∈ storedLevels (builtTop chunks.length) := by
      rw [← stack_levels chunks.length (storedLevels (builtTop chunks.length)) 0]
      exact List.mem_map_of_mem member
    obtain ⟨bound, stored⟩ := (mem_stored_levels _ _).mp listed
    have below : 0 < cp.level ∧ cp.level % checkpointInterval = 0 := by
      rcases stored with inner | top
      · exact inner
      · exact absurd top last
    -- a stored level below the last one exists only above the leaf batches
    have built : builtTop chunks.length = Nat.clog 2 chunks.length := by
      simp only [builtTop, checkpointInterval] at bound last below ⊢
      omega
    have read_level : ReadLevel (chunks.map (chunkLeaf blake)) cp.level := by
      refine ⟨below.1, below.2, ?_⟩
      rw [leaf_count]
      omega
    have found : findCheckpoint fresh cp.level = some cp := by
      rw [findCheckpoint, sparse.checkpoints, leaf_count, ← built]
      exact find_member (stored_levels_ordered _) member
    refine paths_determine_level fresh { fresh with rT := fresh.rT, treeFile := tree } sparse rfl
      rfl (fun off inside => ?_) read_level cp found i node present
    rw [leaf_count] at inside
    rw [paths off (by rw [indexes.count]; exact inside), merklePath,
      sparse_path_eq sparse (plain_reads_levels sparse) off (by rw [leaf_count]; exact inside)]

theorem fresh_file_eq {index : Index} (indexes : Indexes blake chunks index)
    (nonempty : chunks ≠ []) : index.treeFile = sparseFile blake chunks := by
  rw [(indexes_sparse indexes nonempty).file, sparseFile, List.length_map]

theorem reopened_same_iff (served : Served gguf) (layout : canonicalChunks gguf = some chunks)
    (nonempty : chunks ≠ []) {tree : List UInt8} {fresh index : Index}
    (built : buildFresh blake gguf = .ok fresh) (reopened : openExistingTree tree gguf = .ok index)
    (size : tree.length = expectedSize (computeCheckpointOffsets chunks.length).1) :
    SameAnswers blake index fresh ↔ tree = sparseFile blake chunks := by
  obtain ⟨known, ok, indexes⟩ := build_fresh_indexes blake gguf served chunks layout nonempty
  obtain rfl := Except.ok.inj (built.symm.trans ok)
  obtain ⟨shape, rooted⟩ := reopened_eq layout nonempty built reopened
  constructor
  · intro same
    rw [shape] at same
    exact same_answers_file nonempty indexes size same rooted
  · rintro rfl
    obtain ⟨rootCp, last, read⟩ := rooted
    obtain ⟨own, own_last, own_read⟩ := fresh_root_read indexes
    obtain rfl := Option.some.inj (own_last.symm.trans last)
    rw [fresh_file_eq indexes nonempty] at own_read
    have root_same := Option.some.inj (read.symm.trans own_read)
    have same : index = fresh := by
      rw [shape, root_same, ← fresh_file_eq indexes nonempty]
    rw [same]
    exact ⟨rfl, fun _ _ => rfl⟩

end Reopened

/-- The file on disk, if it has the size this model's layout expects, is the one
this model's dense tree gives. -/
def Trusted (blake : Blake (Bytes 32)) (chunks : List (Bytes 32))
    (existing : Option (List UInt8)) : Prop :=
  ∀ tree, existing = some tree →
    tree.length = expectedSize (computeCheckpointOffsets chunks.length).1 →
    tree = sparseFile blake chunks

theorem same_answers_refl (blake : Blake (Bytes 32)) (index : Index) :
    SameAnswers blake index index :=
  ⟨rfl, fun _ _ => rfl⟩

/-- The reuse decision is the size of the file. -/
theorem reopens_iff (blake : Blake (Bytes 32)) {gguf : Gguf} {chunks : List (Bytes 32)}
    (layout : canonicalChunks gguf = some chunks) (nonempty : chunks ≠ []) (tree : List UInt8) :
    (∃ index, openExistingTree tree gguf = .ok index) ↔
      tree.length = expectedSize (computeCheckpointOffsets chunks.length).1 := by
  obtain ⟨loop, _, reading, rfl, counted, _⟩ := leaf_loop_eq blake gguf chunks layout
  exact (open_existing_eq blake gguf loop reading counted nonempty tree).1

/-- Whatever file is found, an index is returned whose answers are those of a
fresh build exactly when the file is trusted. -/
theorem cached_answers_exact (blake : Blake (Bytes 32)) (gguf : Gguf) (served : Served gguf)
    (existing : Option (List UInt8)) (index : Index)
    (opened : buildFromGguf blake gguf existing = .ok index) :
    ∃ chunks fresh, canonicalChunks gguf = some chunks ∧ buildFresh blake gguf = .ok fresh ∧
      (SameAnswers blake index fresh ↔ Trusted blake chunks existing) := by
  cases existing with
  | none =>
      obtain ⟨loop, _, layout, _⟩ := opened_layout blake gguf index (Or.inl opened)
      exact ⟨loop.hashed, index, layout, opened,
        iff_of_true (same_answers_refl blake index) fun _ absent => by contradiction⟩
  | some tree =>
      cases reopened : openExistingTree tree gguf with
      | error reason =>
          simp only [buildFromGguf, reopened] at opened
          obtain ⟨loop, _, layout, _, nonempty, _⟩ :=
            opened_layout blake gguf index (Or.inl opened)
          refine ⟨loop.hashed, index, layout, opened,
            iff_of_true (same_answers_refl blake index) ?_⟩
          intro other own size
          obtain rfl := Option.some.inj own
          obtain ⟨found, accepted⟩ := (reopens_iff blake layout nonempty tree).mpr size
          rw [reopened] at accepted
          contradiction
      | ok found =>
          simp only [buildFromGguf, reopened] at opened
          obtain rfl := Except.ok.inj opened
          obtain ⟨loop, _, layout, _, nonempty, _⟩ :=
            opened_layout blake gguf found (Or.inr ⟨tree, reopened⟩)
          obtain ⟨fresh, built, _⟩ :=
            build_fresh_indexes blake gguf served loop.hashed layout nonempty
          have size := (reopens_iff blake layout nonempty tree).mp ⟨found, reopened⟩
          refine ⟨loop.hashed, fresh, layout, built, ?_⟩
          rw [reopened_same_iff served layout nonempty built reopened size]
          constructor
          · intro same other own _
            rw [← Option.some.inj own, same]
          · intro trusted
            exact trusted tree rfl size

/-! A tree file left by another model with the same number of chunks. -/

/-- Keeps the chunk of the leftmost leaf. -/
def firstBlake : Blake (Bytes 32) where
  hash
    | .state _ => numbered 0
    | .chunk bytes => bytes
    | .pair left _ => left
  draw _ _ _ _ _ := 0

theorem first_file (chunk : Bytes 32) : sparseFile firstBlake [chunk] = chunk.items := by
  have built : builtTop [chunk].length = checkpointInterval := rfl
  have alone : storedLevels checkpointInterval = [checkpointInterval] := by decide
  have single : level (hashPair firstBlake) ([chunk].map (chunkLeaf firstBlake))
      checkpointInterval = [chunk] := rfl
  rw [sparseFile, built, alone, tree_bytes_cons, single]
  simp [concat_cons, treeBytes]

def manyChunks : List (Bytes 32) := (List.range 130).map numbered

/-- A model of 130 chunks beside its own tree. -/
theorem cached_answers_own_tree :
    ∃ index fresh,
      buildFromGguf firstBlake (ggufOfChunks manyChunks)
        (some (sparseFile firstBlake manyChunks)) = .ok index ∧
      buildFresh firstBlake (ggufOfChunks manyChunks) = .ok fresh ∧ fresh.nChunks = 130 ∧
      (SameAnswers firstBlake index fresh ↔
        Trusted firstBlake manyChunks (some (sparseFile firstBlake manyChunks))) ∧
      SameAnswers firstBlake index fresh := by
  have nonempty : manyChunks ≠ [] := by simp [manyChunks]
  obtain ⟨index, reopened⟩ := (reopens_iff firstBlake (of_chunks_layout manyChunks) nonempty
    (sparseFile firstBlake manyChunks)).mpr (sparse_file_length nonempty)
  have opened : buildFromGguf firstBlake (ggufOfChunks manyChunks)
      (some (sparseFile firstBlake manyChunks)) = .ok index := by
    rw [buildFromGguf, reopened]
  obtain ⟨chunks, fresh, layout, built, exact_when⟩ :=
    cached_answers_exact firstBlake _ (of_chunks_served _) _ index opened
  obtain rfl := Option.some.inj ((of_chunks_layout manyChunks).symm.trans layout)
  obtain ⟨own, same, indexes⟩ := build_fresh_indexes firstBlake _ (of_chunks_served _) _ layout
    nonempty
  obtain rfl := Except.ok.inj (built.symm.trans same)
  refine ⟨index, fresh, opened, built, ?_, exact_when, exact_when.mpr ?_⟩
  · rw [indexes.count, manyChunks, List.length_map, List.length_range]
  · intro tree present _
    exact (Option.some.inj present).symm

theorem stale_tree_answers :
    ¬ ∀ (blake : Blake (Bytes 32)) (gguf : Gguf) (existing : Option (List UInt8))
      (index fresh : Index), Served gguf → buildFresh blake gguf = .ok fresh →
      buildFromGguf blake gguf existing = .ok index → SameAnswers blake index fresh := by
  intro claimed
  have layout := of_chunks_layout [numbered 7]
  have size : (sparseFile firstBlake [numbered 8]).length =
      expectedSize (computeCheckpointOffsets [numbered 7].length).1 :=
    sparse_file_length (by simp)
  obtain ⟨index, reopened⟩ := (reopens_iff firstBlake layout (by simp) _).mpr size
  obtain ⟨fresh, built, _⟩ :=
    build_fresh_indexes firstBlake _ (of_chunks_served [numbered 7]) _ layout (by simp)
  have opened : buildFromGguf firstBlake (ggufOfChunks [numbered 7])
      (some (sparseFile firstBlake [numbered 8])) = .ok index := by
    rw [buildFromGguf, reopened]
  have same := claimed firstBlake _ _ index fresh (of_chunks_served _) built opened
  rw [reopened_same_iff (of_chunks_served _) layout (by simp) built reopened size, first_file,
    first_file] at same
  exact absurd same (by decide)

end KeryxMiner.TreeReuse
