import KeryxMiner.Bisection
import KeryxMiner.PossessionProof

/-!
`WeightIndex` of `src/pom.rs`: the GGUF chunk table, the sparse checkpoint tree
file, its builder, the reuse of a file already on disk and the paths read back
from it. Files are byte lists. Counts, levels and offsets are naturals: every
one of them is bounded by the size of a file. The loader's answer for a tensor
is part of the GGUF; transient I/O failures are not modelled.
-/

namespace KeryxMiner.WeightIndex

open ByteCodec PomPrimitives PossessionProof

def checkpointInterval : Nat := 6

def batchSize : Nat := 2 ^ checkpointInterval

structure Tensor where
  name : String
  offset : Nat
  /-- The quantized bytes the loader hands out; `none` when it fails. -/
  data : Option (List UInt8)

structure Gguf where
  file : List UInt8
  tensorDataOffset : Nat
  tensorInfos : List Tensor

/-- `names.sort()`: the canonical tensor order. -/
def Gguf.sorted (gguf : Gguf) : List Tensor :=
  gguf.tensorInfos.mergeSort fun first second => decide (first.name ≤ second.name)

structure StoredLevel where
  level : Nat
  offset : Nat
  count : Nat
  deriving DecidableEq

structure Index where
  nChunks : Nat
  rT : Bytes 32
  gguf : List UInt8
  table : List (Nat × Nat)
  treeFile : List UInt8
  checkpoints : List StoredLevel
  totalLevels : Nat

inductive BuildError where
  | loader (name : String)
  | noChunks
  | legacyFullTree (actual expected : Nat)
  | sizeMismatch (expected actual : Nat)
  | unreadable
  | panicked
  deriving DecidableEq

/-- The texts of the builder's own errors; the others come from libraries. -/
def BuildError.message : BuildError → Option String
  | .noChunks => some "PoM: model produced 0 chunks"
  | .legacyFullTree actual expected => some
      s!"PoM: legacy full-tree detected ({actual} bytes) — rebuild with sparse checkpoints (expect ~{expected} bytes)"
  | .sizeMismatch expected actual => some
      s!"PoM: cached tree size mismatch (expected {expected}, got {actual}) — delete pom-tree.bin to rebuild"
  | .loader _ | .unreadable | .panicked => none

def orFail {Result : Type} (error : BuildError) : Option Result → Except BuildError Result
  | some result => .ok result
  | none => .error error

/-! Checkpoint layout. -/

/-- The loop of `compute_checkpoint_offsets` from one level upward. It never
ends at count 0, which both callers reject first. -/
def checkpointLoop (count off level : Nat) : List StoredLevel × Nat :=
  let isCheckpoint := (0 < level ∧ level % checkpointInterval = 0) ∨ count = 1
  if _last : count ≤ 1 then ([{ level, offset := off, count }], level + 1)
  else if isCheckpoint then
    let above := checkpointLoop ((count + 1) / 2) (off + count * 32) (level + 1)
    ({ level, offset := off, count } :: above.1, above.2)
  else checkpointLoop ((count + 1) / 2) off (level + 1)
termination_by count

def computeCheckpointOffsets (nChunks : Nat) : List StoredLevel × Nat :=
  checkpointLoop nChunks 0 0

section Tree
variable (blake : Blake (Bytes 32))

/-- Exactly `rounds` canonical levels, then the first node. -/
def foldLevels (batch : List (Bytes 32)) (rounds : Nat) : Option (Bytes 32) :=
  ((nextLevel blake)^[rounds] batch)[0]?

/-! The first stored level, written one node for each batch of leaves. -/

structure LeafWriter where
  batchBuf : List (Bytes 32)
  written : List UInt8

def pushLeaf (writer : LeafWriter) (leaf : Bytes 32) : Option LeafWriter :=
  let batchBuf := writer.batchBuf ++ [leaf]
  if batchBuf.length = batchSize then
    (foldLevels blake batchBuf checkpointInterval).map fun node =>
      { batchBuf := [], written := writer.written ++ node.items }
  else some { writer with batchBuf }

/-- The final partial batch is folded the full interval, without padding. -/
def finishLeaves (writer : LeafWriter) : Option (List UInt8) :=
  if writer.batchBuf.isEmpty then some writer.written
  else (foldLevels blake writer.batchBuf checkpointInterval).map fun node =>
    writer.written ++ node.items

/-! The levels above, each folded from the stored level below it. -/

def readNodes (file : List UInt8) (offset start count : Nat) : Option (List (Bytes 32)) :=
  (List.range count).mapM fun i => readExactAt 32 file (offset + (start + i) * 32)

def foldBatches (file : List UInt8) (prev : StoredLevel) (rounds readIdx : Nat) :
    Option (List UInt8) :=
  if _more : readIdx < prev.count then do
    -- the last batch of a level may be short
    let take := min (2 ^ rounds) (prev.count - readIdx)
    let batch ← readNodes file prev.offset readIdx take
    let parent ← foldLevels blake batch rounds
    let rest ← foldBatches file prev rounds (readIdx + take)
    some (parent.items ++ rest)
  else some []
termination_by prev.count - readIdx
decreasing_by
  have positive : 0 < 2 ^ rounds := Nat.two_pow_pos rounds
  omega

def appendLevels (prev : StoredLevel) (file : List UInt8) :
    List StoredLevel → Option (List UInt8)
  | [] => some file
  | cp :: rest => do
      let appended ← foldBatches blake file prev (cp.level - prev.level) 0
      appendLevels cp (file ++ appended) rest

/-- The checkpoint layout, `total_levels`, `R_T` and the completed file. -/
def finalizeCheckpointUpper (file : List UInt8) (nChunks : Nat) :
    Option (List StoredLevel × Nat × Bytes 32 × List UInt8) := do
  let (checkpoints, totalLevels) := computeCheckpointOffsets nChunks
  let first ← checkpoints[0]?
  let file ← appendLevels blake first file checkpoints.tail
  let rootCp ← checkpoints.getLast?
  let rT ← readExactAt 32 file rootCp.offset
  some (checkpoints, totalLevels, rT, file)

/-! The leaf loop over the tensors of a GGUF. -/

structure LeafLoop where
  table : List (Nat × Nat)
  nChunks : Nat
  writer : LeafWriter
  /-- The chunks hashed so far, in leaf order. Only the proofs read this. -/
  hashed : List (Bytes 32)

def hashChunk (bytes : List UInt8) (loop : LeafLoop) (c : Nat) : Option LeafLoop := do
  let chunk ← readExactAt 32 bytes (c * 32)
  let writer ← pushLeaf blake loop.writer (chunkLeaf blake chunk)
  some { loop with nChunks := loop.nChunks + 1, writer, hashed := loop.hashed ++ [chunk] }

def addRow (table : List (Nat × Nat)) (full nChunks fileOff : Nat) : List (Nat × Nat) :=
  if 0 < full then table ++ [(nChunks, fileOff)] else table

def hashTensor (tensorDataOffset : Nat) (loop : LeafLoop) (tensor : Tensor) :
    Except BuildError LeafLoop := do
  let bytes ← orFail (.loader tensor.name) tensor.data
  let full := bytes.length / 32
  let table := addRow loop.table full loop.nChunks (tensorDataOffset + tensor.offset)
  orFail .panicked ((List.range full).foldlM (hashChunk blake bytes) { loop with table })

def emptyLoop : LeafLoop where
  table := []
  nChunks := 0
  writer := { batchBuf := [], written := [] }
  hashed := []

def leafLoop (gguf : Gguf) : Except BuildError LeafLoop :=
  gguf.sorted.foldlM (hashTensor blake gguf.tensorDataOffset) emptyLoop

/-- The rebuild branch of `build_from_gguf`. -/
def buildFresh (gguf : Gguf) : Except BuildError Index := do
  let loop ← leafLoop blake gguf
  let file ← orFail .panicked (finishLeaves blake loop.writer)
  if loop.nChunks = 0 then .error .noChunks
  else
    let (checkpoints, totalLevels, rT, treeFile) ←
      orFail .unreadable (finalizeCheckpointUpper blake file loop.nChunks)
    .ok { nChunks := loop.nChunks, rT, gguf := gguf.file, table := loop.table, treeFile,
          checkpoints, totalLevels }

end Tree

/-! Reuse of a tree file already on disk: only headers and sizes are read. -/

structure ChunkTable where
  table : List (Nat × Nat)
  nChunks : Nat

def tableTensor (tensorDataOffset : Nat) (rows : ChunkTable) (tensor : Tensor) :
    Except BuildError ChunkTable := do
  let bytes ← orFail (.loader tensor.name) tensor.data
  let full := bytes.length / 32
  .ok { table := addRow rows.table full rows.nChunks (tensorDataOffset + tensor.offset)
        nChunks := rows.nChunks + full }

def openTable (gguf : Gguf) : Except BuildError ChunkTable :=
  gguf.sorted.foldlM (tableTensor gguf.tensorDataOffset) { table := [], nChunks := 0 }

def expectedSize (checkpoints : List StoredLevel) : Nat :=
  match checkpoints.getLast? with
  | some cp => cp.offset + 32
  | none => 0

def openExistingTree (tree : List UInt8) (gguf : Gguf) : Except BuildError Index := do
  let rows ← openTable gguf
  if rows.nChunks = 0 then .error .noChunks
  else
    let (checkpoints, totalLevels) := computeCheckpointOffsets rows.nChunks
    let expected := expectedSize checkpoints
    if expected + expected < tree.length then .error (.legacyFullTree tree.length expected)
    else if tree.length ≠ expected then .error (.sizeMismatch expected tree.length)
    else
      -- the root is taken from the file and compared with nothing
      let rootCp ← orFail .panicked checkpoints.getLast?
      let rT ← orFail .unreadable (readExactAt 32 tree rootCp.offset)
      .ok { nChunks := rows.nChunks, rT, gguf := gguf.file, table := rows.table,
            treeFile := tree, checkpoints, totalLevels }

/-- `existing` is the `pom-tree.bin` found next to the GGUF, if any. -/
def buildFromGguf (blake : Blake (Bytes 32)) (gguf : Gguf) (existing : Option (List UInt8)) :
    Except BuildError Index :=
  match existing with
  | none => buildFresh blake gguf
  | some tree =>
      match openExistingTree tree gguf with
      | .ok index => .ok index
      -- whatever the reason, the file is removed and the tree rebuilt
      | .error _ => buildFresh blake gguf

/-! Reading chunks. -/

def checkedSub (a b : Nat) : Option Nat := if b ≤ a then some (a - b) else none

def rowReached (table : List (Nat × Nat)) (off j : Nat) : Bool :=
  match table[j]? with
  | some (start, _) => decide (start ≤ off)
  | none => false

def tablePoint (table : List (Nat × Nat)) (off : Nat) : Nat :=
  Bisection.partitionPoint (rowReached table off) table.length

/-- Table row and byte position of chunk `off`. -/
def locateChunk (table : List (Nat × Nat)) (off : Nat) : Option (Nat × Nat) := do
  let j ← checkedSub (tablePoint table off) 1
  let (start, fileOff) ← table[j]?
  let within ← checkedSub off start
  some (j, fileOff + within * 32)

def readChunkBytes (index : Index) (off : Nat) : Option (Bytes 32) := do
  let (_, position) ← locateChunk index.table off
  readExactAt 32 index.gguf position

def readChunk (index : Index) (off : Nat) : Option Words :=
  (readChunkBytes index off).map chunkToWords

/-! Reading paths. A tree reader is told the level it reads for, so that the
same path code runs over the plain file and over a reader that refuses any read
outside that level's nodes. -/

abbrev TreeReader := StoredLevel → Nat → Option (Bytes 32)

def plainReader (file : List UInt8) : TreeReader := fun _ offset => readExactAt 32 file offset

def guardedReader (file : List UInt8) : TreeReader := fun cp offset =>
  if cp.offset ≤ offset ∧ offset + 32 ≤ cp.offset + cp.count * 32 then
    readExactAt 32 file offset
  else none

def findCheckpoint (index : Index) (level : Nat) : Option StoredLevel :=
  index.checkpoints.find? fun cp => cp.level = level

def countAtLevel (index : Index) (level : Nat) : Nat :=
  (fun count => (count + 1) / 2)^[level] index.nChunks

section Paths
variable (blake : Blake (Bytes 32)) (read : TreeReader) (index : Index)

def sourceCount (srcLevel : Nat) : Option Nat :=
  if srcLevel = 0 then some index.nChunks else (findCheckpoint index srcLevel).map (·.count)

def sourceNode (srcLevel i : Nat) : Option (Bytes 32) :=
  if srcLevel = 0 then (readChunkBytes index i).map (chunkLeaf blake)
  else (findCheckpoint index srcLevel).bind fun cp => read cp (cp.offset + i * 32)

/-- `span` is a power of two, so its trailing zeros are its logarithm. -/
def computeSubtreeHash (start span srcLevel : Nat) : Option (Bytes 32) := do
  let rounds := span.log2
  let count ← sourceCount index srcLevel
  -- a guard of the source: a real sibling subtree always starts in range
  if count ≤ start then some (zeroBytes 32)
  else
    let last := min (start + span) count
    let nodes ← (List.range (last - start)).mapM fun i => sourceNode blake read index srcLevel (start + i)
    foldLevels blake nodes rounds

def storedSibling (level idx : Nat) : Option (Bytes 32) := do
  let cp ← findCheckpoint index level
  let sibIdx := idx ^^^ 1
  let realIdx := if sibIdx < cp.count then sibIdx else idx
  read cp (cp.offset + realIdx * 32)

def computedSibling (level idx : Nat) : Option (Bytes 32) :=
  let sibIdx := idx ^^^ 1
  let realSibIdx := if sibIdx < countAtLevel index level then sibIdx else idx
  let srcLevel := level / checkpointInterval * checkpointInterval
  let span := 2 ^ (level - srcLevel)
  computeSubtreeHash blake read index (realSibIdx * span) span srcLevel

def pathNode (level idx : Nat) : Option (Bytes 32) :=
  if 0 < level ∧ (level % checkpointInterval = 0 ∨ level = index.totalLevels - 1) then
    storedSibling read index level idx
  else computedSibling blake read index level idx

def pathLoop : List Nat → Nat → Option (List (Bytes 32))
  | [], _ => some []
  | level :: rest, idx =>
      if level = index.totalLevels - 1 then some []
      else do
        let node ← pathNode blake read index level idx
        let above ← pathLoop rest (idx / 2)
        some (node :: above)

def merklePathWith (off : Nat) : Option (List (Bytes 32)) :=
  pathLoop blake read index (List.range index.totalLevels) off

end Paths

def merklePath (blake : Blake (Bytes 32)) (index : Index) (off : Nat) : Option (List (Bytes 32)) :=
  merklePathWith blake (plainReader index.treeFile) index off

end KeryxMiner.WeightIndex
