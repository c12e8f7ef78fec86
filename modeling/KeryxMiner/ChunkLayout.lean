import KeryxMiner.CheckpointTree

/-!
The canonical chunk layout: the full 32-byte chunks of the tensors in name
order. The leaf loop hashes exactly these chunks, both chunk tables describe
them, and the binary search reads them back from the file without underflow and
within their own tensor.
-/

namespace KeryxMiner.ChunkLayout

open ByteCodec PossessionProof WeightIndex CheckpointTree

/-- What the loader documents: it hands out the file bytes at the data offset. -/
def Served (gguf : Gguf) : Prop :=
  ∀ tensor ∈ gguf.tensorInfos, ∀ bytes, tensor.data = some bytes →
    (gguf.file.drop (gguf.tensorDataOffset + tensor.offset)).take bytes.length = bytes

def fullChunks (bytes : List UInt8) : List (Bytes 32) :=
  List.ofFn fun c : Fin (bytes.length / 32) =>
    ⟨(bytes.drop (c.val * 32)).take 32, by
      have inside := c.isLt
      simp only [List.length_take, List.length_drop]
      omega⟩

def chunksOf (tensors : List Tensor) : Option (List (Bytes 32)) :=
  (tensors.mapM Tensor.data).map fun loaded => loaded.flatMap fullChunks

/-- The chunks of a model; `none` when the loader fails on some tensor. -/
def canonicalChunks (gguf : Gguf) : Option (List (Bytes 32)) := chunksOf gguf.sorted

@[simp]
theorem full_chunks_length (bytes : List UInt8) :
    (fullChunks bytes).length = bytes.length / 32 := by
  simp [fullChunks]

theorem full_chunks_read (bytes : List UInt8) (c : Nat) (inside : c < bytes.length / 32) :
    readExactAt 32 bytes (c * 32) = (fullChunks bytes)[c]? := by
  have fits : c * 32 + 32 ≤ bytes.length := by omega
  simp [fullChunks, readExactAt, fits, inside]

theorem full_chunks_concat (chunks : List (Bytes 32)) : fullChunks (concat chunks) = chunks := by
  apply List.ext_getElem?
  intro c
  have length : (concat chunks).length / 32 = chunks.length := by
    rw [concat_length, Nat.mul_div_cancel _ (by decide)]
  rcases Nat.lt_or_ge c chunks.length with inside | outside
  · have present : chunks[c]? = some chunks[c] := List.getElem?_eq_getElem inside
    have read := read_record [] chunks [] c chunks[c] present
    rw [← full_chunks_read _ c (by omega), present]
    simpa using read
  · rw [List.getElem?_eq_none (by simpa [length] using outside), List.getElem?_eq_none outside]

theorem chunks_of_snoc (tensors : List Tensor) (tensor : Tensor) :
    chunksOf (tensors ++ [tensor]) = (chunksOf tensors).bind fun chunks =>
      tensor.data.map fun bytes => chunks ++ fullChunks bytes := by
  simp only [chunksOf, List.mapM_append, List.mapM_cons, List.mapM_nil]
  cases tensors.mapM Tensor.data with
  | none => rfl
  | some loaded =>
      cases tensor.data with
      | none => rfl
      | some bytes => simp

/-! The leaf loop. -/

section Loop
variable (blake : Blake (Bytes 32))

/-- The writer has been given the leaves of exactly the chunks counted so far. -/
structure Counted (loop : LeafLoop) : Prop where
  count : loop.nChunks = loop.hashed.length
  pushed : (loop.hashed.map (chunkLeaf blake)).foldlM (pushLeaf blake)
    { batchBuf := [], written := [] } = some loop.writer

theorem hash_chunk_step (bytes : List UInt8) (loop : LeafLoop) (c : Nat) (chunk : Bytes 32)
    (read : readExactAt 32 bytes (c * 32) = some chunk) (counted : Counted blake loop) :
    ∃ after, hashChunk blake bytes loop c = some after ∧ Counted blake after ∧
      after.table = loop.table ∧ after.hashed = loop.hashed ++ [chunk] := by
  obtain ⟨writer, pushed, _⟩ :=
    push_leaves blake ((loop.hashed ++ [chunk]).map (chunkLeaf blake))
  have split := pushed
  rw [List.map_append, List.foldlM_append, counted.pushed] at split
  have step : pushLeaf blake loop.writer (chunkLeaf blake chunk) = some writer := by
    simpa using split
  refine ⟨⟨loop.table, loop.nChunks + 1, writer, loop.hashed ++ [chunk]⟩, ?_, ?_, rfl, rfl⟩
  · simp only [hashChunk, read, step, Option.bind_eq_bind, Option.bind_some]
  · exact ⟨by simp [counted.count], pushed⟩

theorem hash_chunks_run (bytes : List UInt8) (loop : LeafLoop) (counted : Counted blake loop)
    (count : Nat) (inside : count ≤ bytes.length / 32) :
    ∃ after, (List.range count).foldlM (hashChunk blake bytes) loop = some after ∧
      Counted blake after ∧ after.table = loop.table ∧
      after.hashed = loop.hashed ++ (fullChunks bytes).take count := by
  induction count with
  | zero => exact ⟨loop, rfl, counted, rfl, by simp⟩
  | succ count ih =>
      obtain ⟨before, ran, kept, table, hashed⟩ := ih (by omega)
      have read := full_chunks_read bytes count (by omega)
      have present : count < (fullChunks bytes).length := by rw [full_chunks_length]; omega
      rw [List.getElem?_eq_getElem present] at read
      obtain ⟨after, step, counted_after, same_table, grown⟩ :=
        hash_chunk_step blake bytes before count _ read kept
      refine ⟨after, ?_, counted_after, same_table.trans table, ?_⟩
      · simp [List.range_succ, List.foldlM_append, ran, step]
      · rw [grown, hashed, List.take_succ_eq_append_getElem present, List.append_assoc]

theorem hash_tensor_step (tensorDataOffset : Nat) (loop : LeafLoop) (tensor : Tensor)
    (bytes : List UInt8) (loaded : tensor.data = some bytes) (counted : Counted blake loop) :
    ∃ after, hashTensor blake tensorDataOffset loop tensor = .ok after ∧ Counted blake after ∧
      after.table = addRow loop.table (bytes.length / 32) loop.nChunks
        (tensorDataOffset + tensor.offset) ∧
      after.hashed = loop.hashed ++ fullChunks bytes := by
  obtain ⟨after, ran, kept, table, hashed⟩ :=
    hash_chunks_run blake bytes
      ⟨addRow loop.table (bytes.length / 32) loop.nChunks (tensorDataOffset + tensor.offset),
        loop.nChunks, loop.writer, loop.hashed⟩
      ⟨counted.count, counted.pushed⟩ (bytes.length / 32) (Nat.le_refl _)
  refine ⟨after, ?_, kept, table, ?_⟩
  · rw [hashTensor, loaded]
    change orFail BuildError.panicked _ = _
    rw [ran]
    rfl
  · rw [hashed, List.take_of_length_le (by simp)]

/-! The table invariant. -/

/-- Row `j` covers chunk `off`, which was cut from the data of a loaded tensor. -/
structure Placed (tensorDataOffset : Nat) (tensors : List Tensor) (table : List (Nat × Nat))
    (hashed : List (Bytes 32)) (off j start : Nat) (tensor : Tensor) (bytes : List UInt8)
    (chunk : Bytes 32) : Prop where
  row : table[j]? = some (start, tensorDataOffset + tensor.offset)
  reached : start ≤ off
  next : ∀ after, table[j + 1]? = some after → off < after.1
  member : tensor ∈ tensors
  loaded : tensor.data = some bytes
  cut : readExactAt 32 bytes ((off - start) * 32) = some chunk
  leaf : hashed[off]? = some chunk

structure Laid (tensorDataOffset : Nat) (tensors : List Tensor) (table : List (Nat × Nat))
    (hashed : List (Bytes 32)) : Prop where
  increasing : table.Pairwise fun first second => first.1 < second.1
  bounded : ∀ row ∈ table, row.1 < hashed.length
  placed : ∀ off < hashed.length, ∃ j start tensor bytes chunk,
    Placed tensorDataOffset tensors table hashed off j start tensor bytes chunk

theorem laid_empty (tensorDataOffset : Nat) : Laid tensorDataOffset [] [] [] :=
  ⟨List.Pairwise.nil, by simp, by simp⟩

/-- Rows and leaves that come later leave a placed chunk in its row. -/
theorem placed_extend {tensorDataOffset : Nat} {tensors : List Tensor} {table : List (Nat × Nat)}
    {hashed : List (Bytes 32)} {off j start : Nat} {owner : Tensor} {data : List UInt8}
    {chunk : Bytes 32} (placed : Placed tensorDataOffset tensors table hashed off j start owner data
      chunk) (tensor : Tensor) (rows : List (Nat × Nat)) (more : List (Bytes 32))
    (later : ∀ row ∈ rows, hashed.length ≤ row.1) :
    Placed tensorDataOffset (tensors ++ [tensor]) (table ++ rows) (hashed ++ more) off j start owner
      data chunk where
  row := by
    rw [List.getElem?_append_left (List.getElem?_eq_some_iff.mp placed.row).1, placed.row]
  reached := placed.reached
  next := by
    intro after present
    have old := (List.getElem?_eq_some_iff.mp placed.leaf).1
    rcases Nat.lt_or_ge (j + 1) table.length with within | beyond
    · rw [List.getElem?_append_left within] at present
      exact placed.next after present
    · rw [List.getElem?_append_right beyond] at present
      exact Nat.lt_of_lt_of_le old (later after (List.mem_of_getElem? present))
  member := List.mem_append_left _ placed.member
  loaded := placed.loaded
  cut := placed.cut
  leaf := by
    rw [List.getElem?_append_left (List.getElem?_eq_some_iff.mp placed.leaf).1, placed.leaf]

/-- The chunks of the last tensor are in the last row. -/
theorem placed_last (tensorDataOffset : Nat) (tensors : List Tensor) (table : List (Nat × Nat))
    (hashed : List (Bytes 32)) (tensor : Tensor) (bytes : List UInt8)
    (loaded : tensor.data = some bytes) {off : Nat} (new : hashed.length ≤ off)
    (inside : off - hashed.length < (fullChunks bytes).length) :
    Placed tensorDataOffset (tensors ++ [tensor])
      (table ++ [(hashed.length, tensorDataOffset + tensor.offset)]) (hashed ++ fullChunks bytes)
      off table.length hashed.length tensor bytes (fullChunks bytes)[off - hashed.length] where
  row := by simp
  reached := new
  next := by
    intro after present
    rw [List.getElem?_eq_none (by simp)] at present
    contradiction
  member := by simp
  loaded := loaded
  cut := by
    rw [full_chunks_read _ _ (by rwa [full_chunks_length] at inside),
      List.getElem?_eq_getElem inside]
  leaf := by rw [List.getElem?_append_right new, List.getElem?_eq_getElem inside]

/-- A tensor of at least one chunk opens a row at the current count; one without
chunks leaves table and leaves as they are. -/
theorem laid_step {tensorDataOffset : Nat} {tensors : List Tensor} {table : List (Nat × Nat)}
    {hashed : List (Bytes 32)} (laid : Laid tensorDataOffset tensors table hashed)
    (tensor : Tensor) (bytes : List UInt8) (loaded : tensor.data = some bytes) :
    Laid tensorDataOffset (tensors ++ [tensor])
      (addRow table (bytes.length / 32) hashed.length (tensorDataOffset + tensor.offset))
      (hashed ++ fullChunks bytes) := by
  obtain ⟨increasing, bounded, placed⟩ := laid
  by_cases some_chunk : 0 < bytes.length / 32
  · rw [addRow, if_pos some_chunk]
    refine ⟨?_, ?_, ?_⟩
    · rw [List.pairwise_append]
      exact ⟨increasing, List.pairwise_singleton _ _, fun row member last same => by
        rw [List.mem_singleton.mp same]
        exact bounded row member⟩
    · intro row member
      rw [List.length_append, full_chunks_length]
      rcases List.mem_append.mp member with old | new
      · exact Nat.lt_add_right _ (bounded row old)
      · rw [List.mem_singleton.mp new]
        exact Nat.lt_add_of_pos_right some_chunk
    · intro off inside
      rw [List.length_append] at inside
      rcases Nat.lt_or_ge off hashed.length with old | new
      · obtain ⟨j, start, owner, data, chunk, here⟩ := placed off old
        exact ⟨j, start, owner, data, chunk, placed_extend here tensor _ _ (by simp)⟩
      · exact ⟨_, _, _, _, _, placed_last tensorDataOffset tensors table hashed tensor bytes loaded
          new (by omega)⟩
  -- no chunk, no row: the table is extended by nothing
  · have empty : fullChunks bytes = [] :=
      List.eq_nil_of_length_eq_zero (by rw [full_chunks_length]; omega)
    rw [addRow, if_neg some_chunk, empty, ← List.append_nil table]
    refine ⟨by rwa [List.append_nil], by simpa using bounded, fun off inside => ?_⟩
    rw [List.append_nil] at inside
    obtain ⟨j, start, owner, data, chunk, here⟩ := placed off inside
    exact ⟨j, start, owner, data, chunk, placed_extend here tensor [] [] (by simp)⟩

/-- Both loops over the tensors, side by side. -/
theorem loops_agree (tensorDataOffset : Nat) (tensors : List Tensor) :
    match chunksOf tensors with
    | some chunks => ∃ loop,
        tensors.foldlM (hashTensor blake tensorDataOffset) emptyLoop = .ok loop ∧
        tensors.foldlM (tableTensor tensorDataOffset) { table := [], nChunks := 0 } =
          .ok { table := loop.table, nChunks := loop.nChunks } ∧
        loop.hashed = chunks ∧ Counted blake loop ∧
        Laid tensorDataOffset tensors loop.table loop.hashed
    | none => ∃ name,
        tensors.foldlM (hashTensor blake tensorDataOffset) emptyLoop = .error (.loader name) ∧
        tensors.foldlM (tableTensor tensorDataOffset) { table := [], nChunks := 0 } =
          .error (.loader name) := by
  induction tensors using List.reverseRecOn with
  | nil => exact ⟨emptyLoop, rfl, rfl, rfl, ⟨rfl, rfl⟩, laid_empty _⟩
  | append_singleton tensors tensor ih =>
      rw [chunks_of_snoc]
      simp only [List.foldlM_append]
      cases earlier : chunksOf tensors with
      | none =>
          simp only [earlier] at ih
          obtain ⟨name, hashing, reading⟩ := ih
          exact ⟨name, by rw [hashing]; rfl, by rw [reading]; rfl⟩
      | some chunks =>
          simp only [earlier] at ih
          obtain ⟨loop, hashing, reading, hashed, counted, laid⟩ := ih
          cases loaded : tensor.data with
          | none =>
              refine ⟨tensor.name, ?_, ?_⟩
              · rw [hashing]
                simp [hashTensor, loaded, orFail, bind, Except.bind]
              · rw [reading]
                simp [tableTensor, loaded, orFail, bind, Except.bind]
          | some bytes =>
              obtain ⟨after, step, counted_after, table, grown⟩ :=
                hash_tensor_step blake tensorDataOffset loop tensor bytes loaded counted
              have rows := laid_step laid tensor bytes loaded
              rw [← counted.count, ← table, ← grown] at rows
              refine ⟨after, ?_, ?_, ?_, counted_after, rows⟩
              · rw [hashing]
                simp [step, bind, Except.bind, pure, Except.pure]
              · have total : after.nChunks = loop.nChunks + bytes.length / 32 := by
                  rw [counted_after.count, grown, counted.count]
                  simp
                rw [reading]
                simp [tableTensor, loaded, orFail, bind, Except.bind, pure, Except.pure, table, total]
              · rw [grown, hashed]
end Loop

/-! The lookup. -/

/-- The number of rows reached by `off`, when row `j` is the last of them. -/
theorem table_point_eq {table : List (Nat × Nat)}
    (increasing : table.Pairwise fun first second => first.1 < second.1)
    {off j start fileOff : Nat} (row : table[j]? = some (start, fileOff)) (reached : start ≤ off)
    (next : ∀ after, table[j + 1]? = some after → off < after.1) :
    tablePoint table off = j + 1 := by
  have falling : Bisection.Falling (rowReached table off) := by
    intro low high ordered hit
    rcases Nat.eq_or_lt_of_le ordered with rfl | below
    · exact hit
    · cases upper : table[high]? with
      | none => simp [rowReached, upper] at hit
      | some last =>
          obtain ⟨inside, same⟩ := List.getElem?_eq_some_iff.mp upper
          have first : table[low]? = some table[low] := List.getElem?_eq_getElem (by omega)
          have smaller := List.pairwise_iff_getElem.mp increasing low high (by omega) inside below
          rw [same] at smaller
          simp only [rowReached, upper, decide_eq_true_eq] at hit
          simp only [rowReached, first, decide_eq_true_eq]
          omega
  have spec := Bisection.partition_point_spec _ falling table.length
    (by intro beyond outside; simp [rowReached, List.getElem?_eq_none outside])
  have last : j < tablePoint table off := (spec j).mp (by simp [rowReached, row, reached])
  have after : ¬ j + 1 < tablePoint table off := by
    intro more
    have hit := (spec (j + 1)).mpr more
    cases upper : table[j + 1]? with
    | none => simp [rowReached, upper] at hit
    | some row_after =>
        have above := next row_after upper
        simp only [rowReached, upper, decide_eq_true_eq] at hit
        omega
  omega

theorem locate_placed {tensorDataOffset : Nat} {tensors : List Tensor} {table : List (Nat × Nat)}
    {hashed : List (Bytes 32)} (laid : Laid tensorDataOffset tensors table hashed)
    {off j start : Nat} {tensor : Tensor} {bytes : List UInt8} {chunk : Bytes 32}
    (placed : Placed tensorDataOffset tensors table hashed off j start tensor bytes chunk) :
    locateChunk table off = some (j, tensorDataOffset + tensor.offset + (off - start) * 32) := by
  have point := table_point_eq laid.increasing placed.row placed.reached placed.next
  simp [locateChunk, point, checkedSub, placed.row, placed.reached]

theorem read_served {file bytes : List UInt8} {base : Nat}
    (served : (file.drop base).take bytes.length = bytes) (position : Nat) (chunk : Bytes 32)
    (read : readExactAt 32 bytes position = some chunk) :
    readExactAt 32 file (base + position) = some chunk := by
  have inside := read_inside read
  have long : bytes.length ≤ file.length - base := by
    have length := congrArg List.length served
    rw [List.length_take, List.length_drop] at length
    omega
  have slice : (file.drop (base + position)).take 32 = (bytes.drop position).take 32 := by
    rw [← served, List.drop_take, List.drop_drop, List.take_take, Nat.min_eq_left (by omega)]
  rw [readExactAt, dif_pos inside] at read
  rw [readExactAt, dif_pos (by omega), ← read]
  simp only [slice]

/-- The lookup of `off` ends in the row of one tensor, inside its data, and
returns `chunk`. -/
def ReadsWithin (gguf : Gguf) (index : Index) (off : Nat) (chunk : Bytes 32) : Prop :=
  ∃ j position start tensor bytes,
    locateChunk index.table off = some (j, position) ∧
    index.table[j]? = some (start, gguf.tensorDataOffset + tensor.offset) ∧
    tensor ∈ gguf.tensorInfos ∧ tensor.data = some bytes ∧
    gguf.tensorDataOffset + tensor.offset ≤ position ∧
    position + 32 ≤ gguf.tensorDataOffset + tensor.offset + bytes.length ∧
    readChunkBytes index off = some chunk

theorem lookup_laid (gguf : Gguf) (served : Served gguf) (index : Index)
    (file : index.gguf = gguf.file) (hashed : List (Bytes 32))
    (laid : Laid gguf.tensorDataOffset gguf.sorted index.table hashed) (off : Nat)
    (inside : off < hashed.length) :
    ∃ chunk, hashed[off]? = some chunk ∧ ReadsWithin gguf index off chunk := by
  obtain ⟨j, start, tensor, bytes, chunk, placed⟩ := laid.placed off inside
  have known : tensor ∈ gguf.tensorInfos := by
    have member := placed.member
    rwa [Gguf.sorted, List.mem_mergeSort] at member
  have located := locate_placed laid placed
  have within := read_inside placed.cut
  have read := read_served (served tensor known bytes placed.loaded) _ chunk placed.cut
  refine ⟨chunk, placed.leaf, j, _, start, tensor, bytes, located, placed.row, known,
    placed.loaded, Nat.le_add_right _ _, by omega, ?_⟩
  simp only [readChunkBytes, located, file, Option.bind_eq_bind, Option.bind_some, read]

/-! The two ways to an index. -/

/-- The index of a tree built from `chunks`. -/
structure Indexes (blake : Blake (Bytes 32)) (chunks : List (Bytes 32)) (index : Index) :
    Prop where
  count : index.nChunks = chunks.length
  reads : ∀ off < chunks.length, readChunkBytes index off = chunks[off]?
  tree : buildTree blake (chunks.map (chunkLeaf blake)) =
    some (index.checkpoints, index.totalLevels, index.rT, index.treeFile)

theorem leaf_loop_eq (blake : Blake (Bytes 32)) (gguf : Gguf) (chunks : List (Bytes 32))
    (layout : canonicalChunks gguf = some chunks) :
    ∃ loop, leafLoop blake gguf = .ok loop ∧
      openTable gguf = .ok { table := loop.table, nChunks := loop.nChunks } ∧
      loop.hashed = chunks ∧ Counted blake loop ∧
      Laid gguf.tensorDataOffset gguf.sorted loop.table loop.hashed := by
  have agree := loops_agree blake gguf.tensorDataOffset gguf.sorted
  rw [canonicalChunks] at layout
  rw [layout] at agree
  exact agree

theorem no_layout (blake : Blake (Bytes 32)) (gguf : Gguf) (missing : canonicalChunks gguf = none)
    (tree : List UInt8) :
    ∃ name, buildFresh blake gguf = .error (.loader name) ∧
      openExistingTree tree gguf = .error (.loader name) := by
  have agree := loops_agree blake gguf.tensorDataOffset gguf.sorted
  rw [canonicalChunks] at missing
  rw [missing] at agree
  obtain ⟨name, hashing, reading⟩ := agree
  exact ⟨name, by simp [buildFresh, leafLoop, hashing, bind, Except.bind],
    by simp [openExistingTree, openTable, reading, bind, Except.bind]⟩

theorem build_fresh_eq (blake : Blake (Bytes 32)) (gguf : Gguf) (loop : LeafLoop)
    (hashing : leafLoop blake gguf = .ok loop) (counted : Counted blake loop)
    (nonempty : loop.hashed ≠ []) :
    ∃ index, buildFresh blake gguf = .ok index ∧ index.nChunks = loop.hashed.length ∧
      index.gguf = gguf.file ∧ index.table = loop.table ∧
      buildTree blake (loop.hashed.map (chunkLeaf blake)) =
        some (index.checkpoints, index.totalLevels, index.rT, index.treeFile) := by
  have some_leaf : loop.hashed.map (chunkLeaf blake) ≠ [] := by simpa using nonempty
  have positive : loop.nChunks ≠ 0 := by
    rw [counted.count]
    exact fun zero => nonempty (List.eq_nil_of_length_eq_zero zero)
  obtain ⟨writer, pushed, batched⟩ := push_leaves blake (loop.hashed.map (chunkLeaf blake))
  obtain rfl : loop.writer = writer := Option.some.inj (counted.pushed.symm.trans pushed)
  obtain ⟨⟨checkpoints, totalLevels, rT, treeFile⟩, finalized⟩ :
      ∃ result, finalizeCheckpointUpper blake (concat (MerkleLevels.level (hashPair blake)
        (loop.hashed.map (chunkLeaf blake)) checkpointInterval)) loop.nChunks = some result := by
    obtain ⟨_, _, finalized⟩ := finalize_eq blake _ some_leaf
    rw [List.length_map, ← counted.count] at finalized
    exact ⟨_, finalized⟩
  have finished := finish_leaves blake _ loop.writer batched
  refine ⟨⟨loop.nChunks, rT, gguf.file, loop.table, treeFile, checkpoints, totalLevels⟩, ?_,
    counted.count, rfl, rfl, ?_⟩
  · simp only [buildFresh, hashing, finished, orFail, bind, Except.bind, if_neg positive, finalized]
  · simp only [buildTree, pushed, finished, Option.bind_eq_bind, Option.bind_some, List.length_map,
      ← counted.count, finalized]

theorem expected_size_eq {nChunks : Nat} (positive : 0 < nChunks) :
    expectedSize (computeCheckpointOffsets nChunks).1 =
      stackSize nChunks (storedLevels (Nat.clog 2 nChunks)) := by
  obtain ⟨lower, final⟩ := stored_levels_last (Nat.clog 2 nChunks)
  simp [checkpoint_offsets_eq positive, final, expectedSize, stack_last, stackSize,
    MerkleLevels.width_top positive]

/-- Reopening rebuilds the table and the layout; it accepts exactly the files of
the expected size. -/
theorem open_existing_eq (blake : Blake (Bytes 32)) (gguf : Gguf) (loop : LeafLoop)
    (reading : openTable gguf = .ok { table := loop.table, nChunks := loop.nChunks })
    (counted : Counted blake loop) (nonempty : loop.hashed ≠ []) (tree : List UInt8) :
    ((∃ index, openExistingTree tree gguf = .ok index) ↔
      tree.length = expectedSize (computeCheckpointOffsets loop.hashed.length).1) ∧
    ∀ index, openExistingTree tree gguf = .ok index →
      index.nChunks = loop.hashed.length ∧ index.gguf = gguf.file ∧ index.table = loop.table ∧
      index.treeFile = tree ∧
      (index.checkpoints, index.totalLevels) = computeCheckpointOffsets loop.hashed.length ∧
      ∃ rootCp, index.checkpoints.getLast? = some rootCp ∧
        readExactAt 32 tree rootCp.offset = some index.rT := by
  have positive : 0 < loop.hashed.length := List.length_pos_iff.mpr nonempty
  have some_chunk : loop.hashed.length ≠ 0 := by omega
  obtain ⟨lower, final⟩ := stored_levels_last (Nat.clog 2 loop.hashed.length)
  have last := stack_last loop.hashed.length lower (Nat.clog 2 loop.hashed.length) 0
  have size := expected_size_eq positive
  rw [← final, Nat.zero_add] at last
  rw [checkpoint_offsets_eq positive] at size ⊢
  have split : stackSize loop.hashed.length (storedLevels (Nat.clog 2 loop.hashed.length)) =
      stackSize loop.hashed.length lower + 32 := by
    simp [final, stackSize, MerkleLevels.width_top positive]
  simp only [openExistingTree, reading, bind, Except.bind, counted.count, if_neg some_chunk,
    checkpoint_offsets_eq positive, size, split, last, orFail]
  by_cases exact_size : tree.length = stackSize loop.hashed.length lower + 32
  · obtain ⟨record, read⟩ :
        ∃ record, readExactAt 32 tree (stackSize loop.hashed.length lower) = some record := by
      rw [readExactAt, dif_pos (by omega)]
      exact ⟨_, rfl⟩
    have fits : ¬ stackSize loop.hashed.length lower + 32 +
        (stackSize loop.hashed.length lower + 32) < stackSize loop.hashed.length lower + 32 := by
      omega
    simp only [read, exact_size, if_neg fits, ne_eq, not_true_eq_false, if_false]
    refine ⟨by simp, ?_⟩
    rintro index opened
    obtain rfl := Except.ok.inj opened
    exact ⟨rfl, rfl, rfl, rfl, rfl, _, last, read⟩
  · simp only [ne_eq, exact_size, not_false_eq_true, if_true, iff_false]
    constructor
    · rintro ⟨index, opened⟩
      split at opened <;> cases opened
    · intro index opened
      split at opened <;> cases opened

/-- What a fresh build and a reopened tree share. -/
theorem opened_layout (blake : Blake (Bytes 32)) (gguf : Gguf) (index : Index)
    (opened : buildFresh blake gguf = .ok index ∨
      ∃ tree, openExistingTree tree gguf = .ok index) :
    ∃ loop, leafLoop blake gguf = .ok loop ∧ canonicalChunks gguf = some loop.hashed ∧
      Counted blake loop ∧ loop.hashed ≠ [] ∧ index.nChunks = loop.hashed.length ∧
      index.gguf = gguf.file ∧
      Laid gguf.tensorDataOffset gguf.sorted index.table loop.hashed := by
  cases layout : canonicalChunks gguf with
  | none =>
      rcases opened with fresh | ⟨tree, reopened⟩
      · obtain ⟨name, failed, _⟩ := no_layout blake gguf layout []
        rw [failed] at fresh
        contradiction
      · obtain ⟨name, _, failed⟩ := no_layout blake gguf layout tree
        rw [failed] at reopened
        contradiction
  | some chunks =>
      obtain ⟨loop, hashing, reading, rfl, counted, laid⟩ := leaf_loop_eq blake gguf chunks layout
      refine ⟨loop, hashing, rfl, counted, ?_⟩
      -- both ways reject a model without chunks
      by_cases empty : loop.hashed = []
      · have none_counted : loop.nChunks = 0 := by rw [counted.count, empty]; rfl
        rcases opened with fresh | ⟨tree, reopened⟩
        · have some_file := finish_leaves blake _ loop.writer
            (show Batched blake [] loop.writer from by
              obtain ⟨writer, pushed, batched⟩ := push_leaves blake []
              have same := counted.pushed
              rw [empty] at same
              rwa [Option.some.inj (same.symm.trans pushed)])
          simp [buildFresh, hashing, some_file, orFail, bind, Except.bind, none_counted] at fresh
        · simp [openExistingTree, reading, bind, Except.bind, none_counted] at reopened
      · rcases opened with fresh | ⟨tree, reopened⟩
        · obtain ⟨built, ok, count, file, table, _⟩ :=
            build_fresh_eq blake gguf loop hashing counted empty
          obtain rfl := Except.ok.inj (fresh.symm.trans ok)
          exact ⟨empty, count, file, table ▸ laid⟩
        · obtain ⟨_, spec⟩ := open_existing_eq blake gguf loop reading counted empty tree
          obtain ⟨count, file, table, _⟩ := spec index reopened
          exact ⟨empty, count, file, table ▸ laid⟩

/-- Every chunk looked up at mining time is the chunk hashed as that leaf. -/
theorem lookup_reads_hashed_leaf (blake : Blake (Bytes 32)) (gguf : Gguf) (served : Served gguf)
    (index : Index)
    (opened : buildFresh blake gguf = .ok index ∨
      ∃ tree, openExistingTree tree gguf = .ok index) :
    ∃ loop, leafLoop blake gguf = .ok loop ∧ Counted blake loop ∧
      index.nChunks = loop.hashed.length ∧
      ∀ off < index.nChunks, ∃ chunk, loop.hashed[off]? = some chunk ∧
        readChunk index off = some (PomPrimitives.chunkToWords chunk) ∧
        ReadsWithin gguf index off chunk := by
  obtain ⟨loop, hashing, _, counted, _, count, file, laid⟩ := opened_layout blake gguf index opened
  refine ⟨loop, hashing, counted, count, fun off inside => ?_⟩
  obtain ⟨chunk, leaf, reads⟩ := lookup_laid gguf served index file loop.hashed laid off
    (by omega)
  refine ⟨chunk, leaf, ?_, reads⟩
  obtain ⟨_, _, _, _, _, _, _, _, _, _, _, read⟩ := reads
  rw [readChunk, read, Option.map_some]

/-! A model with an empty tensor, and with tails shorter than a chunk. -/

def raggedFile : List UInt8 := (List.range 80).map UInt8.ofNat

def raggedGguf : Gguf where
  file := raggedFile
  tensorDataOffset := 1
  tensorInfos := [⟨"c", 40, some ((raggedFile.drop 41).take 33)⟩, ⟨"b", 40, some []⟩,
    ⟨"a", 0, some ((raggedFile.drop 1).take 40)⟩]

theorem ragged_served : Served raggedGguf := by
  intro tensor member bytes loaded
  simp only [raggedGguf, List.mem_cons, List.not_mem_nil, or_false] at member
  rcases member with rfl | rfl | rfl
  all_goals
    obtain rfl := Option.some.inj loaded
    rfl

theorem ragged_layout : canonicalChunks raggedGguf =
    some (fullChunks ((raggedFile.drop 1).take 40) ++ fullChunks ((raggedFile.drop 41).take 33)) := by
  have sorted : raggedGguf.sorted = [⟨"a", 0, some ((raggedFile.drop 1).take 40)⟩,
      ⟨"b", 40, some []⟩, ⟨"c", 40, some ((raggedFile.drop 41).take 33)⟩] := by
    simp [Gguf.sorted, raggedGguf, List.mergeSort, List.MergeSort.Internal.splitInTwo]
  rw [canonicalChunks, sorted]
  rfl

/-- A tree file of the size that two chunks ask for. -/
def raggedTree : List UInt8 := List.replicate (expectedSize (computeCheckpointOffsets 2).1) 7

/-- The fresh build, and the reopening of a file of that size. -/
theorem lookup_reads_ragged_leaf :
    ∃ built reopened, buildFresh heightBlake raggedGguf = .ok built ∧
      openExistingTree raggedTree raggedGguf = .ok reopened ∧
      ∀ index ∈ [built, reopened], index.nChunks = 2 ∧
        ∃ loop, leafLoop heightBlake raggedGguf = .ok loop ∧ Counted heightBlake loop ∧
          index.nChunks = loop.hashed.length ∧
          ∀ off < index.nChunks, ∃ chunk, loop.hashed[off]? = some chunk ∧
            readChunk index off = some (PomPrimitives.chunkToWords chunk) ∧
            ReadsWithin raggedGguf index off chunk := by
  obtain ⟨loop, hashing, reading, hashed, counted, _⟩ :=
    leaf_loop_eq heightBlake raggedGguf _ ragged_layout
  have two : loop.hashed.length = 2 := by
    rw [hashed]
    rfl
  have nonempty : loop.hashed ≠ [] := by
    intro empty
    rw [empty] at two
    contradiction
  obtain ⟨built, fresh, count, _⟩ := build_fresh_eq heightBlake raggedGguf loop hashing counted
    nonempty
  obtain ⟨accepts, spec⟩ := open_existing_eq heightBlake raggedGguf loop reading counted nonempty
    raggedTree
  obtain ⟨reopened, opened⟩ := accepts.mpr (by rw [raggedTree, List.length_replicate, two])
  refine ⟨built, reopened, fresh, opened, ?_⟩
  intro index member
  obtain rfl | rfl := List.mem_pair.mp member
  · exact ⟨count.trans two,
      lookup_reads_hashed_leaf heightBlake raggedGguf ragged_served index (Or.inl fresh)⟩
  · exact ⟨(spec index opened).1.trans two,
      lookup_reads_hashed_leaf heightBlake raggedGguf ragged_served index
        (Or.inr ⟨raggedTree, opened⟩)⟩

/-! Every list of chunks is the layout of some model. -/

def ggufOfChunks (chunks : List (Bytes 32)) : Gguf where
  file := concat chunks
  tensorDataOffset := 0
  tensorInfos := [⟨"weights", 0, some (concat chunks)⟩]

theorem of_chunks_served (chunks : List (Bytes 32)) : Served (ggufOfChunks chunks) := by
  intro tensor member bytes loaded
  obtain rfl := List.mem_singleton.mp member
  obtain rfl := Option.some.inj loaded
  simp [ggufOfChunks]

theorem of_chunks_layout (chunks : List (Bytes 32)) :
    canonicalChunks (ggufOfChunks chunks) = some chunks := by
  simp [canonicalChunks, chunksOf, Gguf.sorted, ggufOfChunks, full_chunks_concat]

/-- A fresh build over a served model of at least one chunk succeeds, with the
tree of its chunks. -/
theorem build_fresh_indexes (blake : Blake (Bytes 32)) (gguf : Gguf) (served : Served gguf)
    (chunks : List (Bytes 32)) (layout : canonicalChunks gguf = some chunks)
    (nonempty : chunks ≠ []) :
    ∃ index, buildFresh blake gguf = .ok index ∧ Indexes blake chunks index := by
  obtain ⟨loop, hashing, _, rfl, counted, laid⟩ := leaf_loop_eq blake gguf chunks layout
  obtain ⟨index, built, count, file, table, tree⟩ :=
    build_fresh_eq blake gguf loop hashing counted nonempty
  refine ⟨index, built, count, fun off inside => ?_, tree⟩
  obtain ⟨chunk, leaf, _, _, _, _, _, _, _, _, _, _, _, read⟩ :=
    lookup_laid gguf served index file loop.hashed (table ▸ laid) off inside
  rw [read, leaf]

end KeryxMiner.ChunkLayout
