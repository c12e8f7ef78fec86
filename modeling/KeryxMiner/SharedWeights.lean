import KeryxMiner.BaseConversion
import KeryxMiner.GpuWalk

/-!
`PomGpuMiner::load_shared` of `src/pom_gpu.rs`: the gather of `load`, with the buffers of the
resident inference engine for the tensors that it holds quantized.
-/

namespace KeryxMiner.SharedWeights

open BaseConversion ByteCodec ChunkLayout GpuWalk PomKernel PomMining PomPrimitives WeightIndex

/-- A tensor on the device. -/
structure QTensor where
  bytes : List UInt8
  devicePtr : UInt64

abbrev SharedTensors := String → Option QTensor

inductive SharedError where
  | loader (name : String)
  | noChunks
  deriving DecidableEq

def SharedError.message : SharedError → Option String
  | .loader _ => none
  | .noChunks => some "PoM GPU: shared load produced 0 chunks"

/-- The end of the loop's body: a row for a tensor that has chunks. -/
def addRow (gather : Gather) (ptr : UInt64) (bytes : List UInt8) : Gather :=
  let chunks := UInt32.ofNat (bytes.length / 32)
  if chunks = 0 then gather
  else {
    bases := gather.bases ++ [ptr]
    prefixSums := gather.prefixSums ++ [gather.prefixSums.getLast?.getD 0 + chunks] }

def gatherShared (shared : SharedTensors) (devicePtr : Tensor → UInt64) (gather : Gather)
    (tensor : Tensor) : Except SharedError Gather :=
  match shared tensor.name with
  | some qt => .ok (addRow gather qt.devicePtr qt.bytes)
  | none =>
      match tensor.data with
      | none => .error (.loader tensor.name)
      | some bytes => .ok (addRow gather (devicePtr tensor) bytes)

def loadShared (shared : SharedTensors) (devicePtr : Tensor → UInt64) (gguf : Gguf) :
    Except SharedError PomGpuMiner := do
  let gather ← gguf.sorted.foldlM (gatherShared shared devicePtr)
    { bases := [], prefixSums := [0] }
  let total := gather.prefixSums.getLast?.getD 0
  if total = 0 then .error .noChunks
  else .ok { gather, tensorCount := UInt32.ofNat gather.bases.length,
             nTotalChunks := total.toUInt64 }

/-- Where the walk finds the tensor. -/
def walkedPtr (shared : SharedTensors) (devicePtr : Tensor → UInt64) (tensor : Tensor) : UInt64 :=
  match shared tensor.name with
  | some qt => qt.devicePtr
  | none => devicePtr tensor

/-- What the engine holds under a tensor's name are the tensor's bytes. -/
def SameBytes (shared : SharedTensors) (tensors : List Tensor) : Prop :=
  ∀ tensor ∈ tensors, ∀ qt, shared tensor.name = some qt → tensor.data = some qt.bytes

theorem gather_shared_step {shared : SharedTensors} {devicePtr : Tensor → UInt64}
    {gather after : Gather} {tensor : Tensor}
    (same : ∀ qt, shared tensor.name = some qt → tensor.data = some qt.bytes)
    (gathered : gatherShared shared devicePtr gather tensor = .ok after) :
    gatherTensor (walkedPtr shared devicePtr) gather tensor = .ok after := by
  rw [gatherShared] at gathered
  rw [gatherTensor, walkedPtr]
  cases held : shared tensor.name with
  | some qt =>
      rw [held] at gathered
      obtain rfl := Except.ok.inj gathered
      rw [same qt held]
      dsimp only [addRow]
      split
      · rfl
      · rfl
  | none =>
      rw [held] at gathered
      cases loaded : tensor.data with
      | none =>
          rw [loaded] at gathered
          cases gathered
      | some bytes =>
          rw [loaded] at gathered
          obtain rfl := Except.ok.inj gathered
          dsimp only [addRow]
          split
          · rfl
          · rfl

theorem gather_shared_run {shared : SharedTensors} {devicePtr : Tensor → UInt64}
    {tensors : List Tensor} (same : SameBytes shared tensors) {gather after : Gather}
    (gathered : tensors.foldlM (gatherShared shared devicePtr) gather = .ok after) :
    tensors.foldlM (gatherTensor (walkedPtr shared devicePtr)) gather = .ok after := by
  induction tensors generalizing gather with
  | nil => cases gathered; rfl
  | cons tensor rest ih =>
      rw [List.foldlM_cons] at gathered ⊢
      cases stepped : gatherShared shared devicePtr gather tensor with
      | error failed =>
          rw [stepped] at gathered
          cases gathered
      | ok next =>
          rw [stepped] at gathered
          rw [gather_shared_step (same tensor (List.mem_cons_self ..)) stepped]
          exact ih (fun other member => same other (List.mem_cons_of_mem _ member)) gathered

/-- A shared load is the plain load of the same file from other addresses. -/
theorem load_shared_loads {shared : SharedTensors} {devicePtr : Tensor → UInt64} {gguf : Gguf}
    {miner : PomGpuMiner} (same : SameBytes shared gguf.tensorInfos)
    (loaded : loadShared shared devicePtr gguf = .ok miner) :
    load (walkedPtr shared devicePtr) gguf = .ok miner := by
  have sorted : SameBytes shared gguf.sorted :=
    fun tensor member => same tensor (List.mem_mergeSort.mp member)
  rw [loadShared] at loaded
  cases ran : gguf.sorted.foldlM (gatherShared shared devicePtr)
      { bases := [], prefixSums := [0] } with
  | error failed =>
      rw [ran] at loaded
      cases loaded
  | ok gather =>
      rw [ran] at loaded
      rw [load, gather_shared_run sorted ran]
      change (if _ then _ else _) = _ at loaded ⊢
      split at loaded
      · cases loaded
      · rename_i several
        rw [if_neg several]
        cases loaded
        rfl

/-! The engine's tensors: `from_gguf` and `pom_quant_tensors` of both split loaders. -/

section Engine
variable (devicePtr : Tensor → UInt64) (gguf : Gguf)

/-- `Content::tensor`: the tensor of the name, on the device of the engine. -/
def readTensor (name : String) : Option QTensor := do
  let tensor ← gguf.tensorInfos.find? fun tensor => decide (tensor.name = name)
  let bytes ← tensor.data
  return ⟨bytes, devicePtr tensor⟩

def blockName (layer : Nat) (part : String) : String :=
  "blk." ++ toString layer ++ "." ++ part ++ ".weight"

/-- The matrices of a block; its norms are dequantized. -/
def blockParts : List String :=
  ["attn_q", "attn_k", "attn_v", "attn_output", "ffn_gate", "ffn_down", "ffn_up"]

def readPart (layer : Nat) (part : String) : Option (String × QTensor) :=
  (readTensor devicePtr gguf (blockName layer part)).map (blockName layer part, ·)

/-- The norms of a fork are read with its matrices. -/
def readBlock (norms : List String) (layer : Nat) : Option (List (String × QTensor)) := do
  let matrices ← blockParts.mapM (readPart devicePtr gguf layer)
  let _ ← norms.mapM (readPart devicePtr gguf layer)
  return matrices

structure SplitWeights where
  output : QTensor
  blocks : List (List (String × QTensor))

def fromGguf (norms : List String) (blockCount : Nat) : Option SplitWeights := do
  let tokEmbeddings ← readTensor devicePtr gguf "token_embd.weight"
  let _ ← readTensor devicePtr gguf "output_norm.weight"
  -- tied embeddings when there is no output tensor
  let output := (readTensor devicePtr gguf "output.weight").getD tokEmbeddings
  let blocks ← (List.range blockCount).mapM (readBlock devicePtr gguf norms)
  return ⟨output, blocks⟩

/-- The llama fork and the qwen3 fork. -/
def fromGgufLlama : Nat → Option SplitWeights :=
  fromGguf devicePtr gguf ["attn_norm", "ffn_norm"]

def fromGgufQwen3 : Nat → Option SplitWeights :=
  fromGguf devicePtr gguf ["attn_q_norm", "attn_k_norm", "attn_norm", "ffn_norm"]

end Engine

/-- `quantized` are the tensors that `QMatMul` keeps as they are. -/
def SplitWeights.pomQuantTensors (quantized : QTensor → Bool) (model : SplitWeights) :
    SharedTensors := fun name =>
  ((("output.weight", model.output) :: model.blocks.flatten).filter
    fun entry => quantized entry.2).reverse.lookup name

/-- The names are keys of a map, and the loader can read every tensor. -/
structure Readable (gguf : Gguf) : Prop where
  distinct : (gguf.tensorInfos.map Tensor.name).Nodup
  loads : ∀ tensor ∈ gguf.tensorInfos, tensor.data.isSome = true

theorem read_named (devicePtr : Tensor → UInt64) {gguf : Gguf} (readable : Readable gguf)
    {tensor : Tensor} (member : tensor ∈ gguf.tensorInfos) {bytes : List UInt8}
    (loaded : tensor.data = some bytes) :
    readTensor devicePtr gguf tensor.name = some ⟨bytes, devicePtr tensor⟩ := by
  have found : gguf.tensorInfos.find? (fun other => decide (other.name = tensor.name)) =
      some tensor := by
    cases search : gguf.tensorInfos.find? fun other => decide (other.name = tensor.name) with
    | none => exact absurd (decide_eq_true rfl) (List.find?_eq_none.mp search tensor member)
    | some other =>
        have named : other.name = tensor.name := by simpa using List.find?_some search
        rw [List.inj_on_of_nodup_map readable.distinct (List.mem_of_find?_eq_some search) member
          named]
  simp only [readTensor, found, loaded, Option.bind_eq_bind, Option.bind_some, Option.pure_def]

theorem source_read {α β : Type} {read : α → Option β} {sources : List α} {found : List β}
    (all : sources.mapM read = some found) {value : β} (member : value ∈ found) :
    ∃ source ∈ sources, read source = some value := by
  have mapped : some value ∈ sources.map read :=
    all_found.mp all ▸ List.mem_map_of_mem member
  exact List.mem_map.mp mapped

/-- A matrix is kept under the name it was read by. -/
theorem block_read {devicePtr : Tensor → UInt64} {gguf : Gguf} {norms : List String}
    {layer : Nat} {matrices : List (String × QTensor)}
    (read : readBlock devicePtr gguf norms layer = some matrices) {entry : String × QTensor}
    (member : entry ∈ matrices) : readTensor devicePtr gguf entry.1 = some entry.2 := by
  obtain ⟨all, ran, rest⟩ := Option.bind_eq_some_iff.mp read
  obtain ⟨_, _, same⟩ := Option.bind_eq_some_iff.mp rest
  obtain rfl := Option.some.inj same
  obtain ⟨part, _, found⟩ := source_read ran member
  obtain ⟨qt, there, rfl⟩ := Option.map_eq_some_iff.mp found
  exact there

theorem shared_same_bytes {devicePtr : Tensor → UInt64} {gguf : Gguf} {norms : List String}
    {blockCount : Nat} {model : SplitWeights} (readable : Readable gguf)
    (quantized : QTensor → Bool)
    (loaded : fromGguf devicePtr gguf norms blockCount = some model) :
    SameBytes (model.pomQuantTensors quantized) gguf.tensorInfos := by
  intro tensor member qt shared
  obtain ⟨bytes, present⟩ := Option.isSome_iff_exists.mp (readable.loads tensor member)
  have named := read_named devicePtr readable member present
  obtain ⟨embeddings, _, rest⟩ := Option.bind_eq_some_iff.mp loaded
  obtain ⟨_, _, rest⟩ := Option.bind_eq_some_iff.mp rest
  obtain ⟨blocks, ran, same⟩ := Option.bind_eq_some_iff.mp rest
  obtain rfl := Option.some.inj same
  obtain ⟨before, after, split, _⟩ := List.lookup_eq_some_iff.mp shared
  have entry : (tensor.name, qt) ∈ (("output.weight",
      (readTensor devicePtr gguf "output.weight").getD embeddings) :: blocks.flatten) := by
    have kept : (tensor.name, qt) ∈ before ++ (tensor.name, qt) :: after :=
      List.mem_append_right before (List.mem_cons_self ..)
    rw [← split, List.mem_reverse] at kept
    exact List.mem_of_mem_filter kept
  have held : readTensor devicePtr gguf tensor.name = some qt := by
    obtain same | inside := List.mem_cons.mp entry
    · obtain ⟨name, output⟩ := Prod.mk.inj same
      rw [← name, named, Option.getD_some] at output
      rw [named, output]
    · obtain ⟨matrices, among, inside⟩ := List.mem_flatten.mp inside
      obtain ⟨layer, _, read⟩ := source_read ran among
      exact block_read read inside
  rw [named] at held
  rw [present, ← Option.some.inj held]

/-- A miner of `load`, or of `load_shared` over what an engine of the same file holds. -/
inductive Loads (memory : DeviceMemory) (gguf : Gguf) (miner : PomGpuMiner) : Prop where
  | alone (devicePtr : Tensor → UInt64) (loaded : load devicePtr gguf = .ok miner)
      (resident : Resident memory devicePtr gguf)
  | shared (enginePtr devicePtr : Tensor → UInt64) (norms : List String) (blockCount : Nat)
      (model : SplitWeights) (quantized : QTensor → Bool)
      (engine : fromGguf enginePtr gguf norms blockCount = some model)
      (loaded : loadShared (model.pomQuantTensors quantized) devicePtr gguf = .ok miner)
      (resident : Resident memory (walkedPtr (model.pomQuantTensors quantized) devicePtr) gguf)

theorem Loads.gathers {memory : DeviceMemory} {gguf : Gguf} {miner : PomGpuMiner}
    (loads : Loads memory gguf miner) (readable : Readable gguf) {chunks : List (Bytes 32)}
    (layout : canonicalChunks gguf = some chunks) (small : chunks.length < 2 ^ 32) :
    Gathered memory miner.gather chunks ∧
      miner.tensorCount = UInt32.ofNat miner.gather.bases.length ∧
      miner.nTotalChunks.toNat = chunks.length ∧ chunks ≠ [] := by
  cases loads with
  | alone devicePtr loaded resident => exact load_gathers resident layout small loaded
  | shared enginePtr devicePtr norms blockCount model quantized engine loaded resident =>
      have same := shared_same_bytes readable quantized engine
      exact load_gathers resident layout small (load_shared_loads same loaded)

end KeryxMiner.SharedWeights
