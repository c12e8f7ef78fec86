import KeryxMiner.Bisection
import KeryxMiner.ModMagic
import KeryxMiner.PomPrimitives
import KeryxMiner.WeightIndex

/-!
The GPU side of the walk: `PomGpuMiner::load` and `PomGpuMiner::mine` of
`src/pom_gpu.rs`, and the kernel of `cuda/pom_mine.cu` they launch. Device
memory is a map from byte addresses; a table read outside its bounds is `none`.
The threads of a launch meet only in `atomicMin`, so a launch is the list of its
threads in the order of their atomics.
-/

namespace KeryxMiner.PomKernel

open ByteCodec PomPrimitives ModMagic WeightIndex

abbrev DeviceMemory := Nat → UInt8

def loadWord (memory : DeviceMemory) (address : Nat) : UInt64 :=
  fromLeBytes ((List.range 8).map fun b => memory (address + b))

/-! Host: the gather over the name-sorted tensors, skipping chunkless ones. -/

structure Gather where
  bases : List UInt64
  prefixSums : List UInt32

structure PomGpuMiner where
  gather : Gather
  tensorCount : UInt32
  nTotalChunks : UInt64

inductive LoadError where
  | loader (name : String)
  | noChunks
  deriving DecidableEq

def LoadError.message : LoadError → Option String
  | .loader _ => none
  | .noChunks => some "PoM GPU: model produced 0 chunks"

def gatherTensor (devicePtr : Tensor → UInt64) (gather : Gather) (tensor : Tensor) :
    Except LoadError Gather :=
  match tensor.data with
  | none => .error (.loader tensor.name)
  | some bytes =>
      let chunks := UInt32.ofNat (bytes.length / 32)
      -- a tensor without chunks gets no row
      if chunks = 0 then .ok gather
      else .ok {
        bases := gather.bases ++ [devicePtr tensor]
        prefixSums := gather.prefixSums ++ [gather.prefixSums.getLast?.getD 0 + chunks] }

def load (devicePtr : Tensor → UInt64) (gguf : Gguf) : Except LoadError PomGpuMiner := do
  let gather ← gguf.sorted.foldlM (gatherTensor devicePtr) { bases := [], prefixSums := [0] }
  let total := gather.prefixSums.getLast?.getD 0
  if total = 0 then .error .noChunks
  else .ok { gather, tensorCount := UInt32.ofNat gather.bases.length,
             nTotalChunks := total.toUInt64 }

/-! Device. -/

def mix64 (x : UInt64) : UInt64 :=
  let x := x ^^^ (x >>> 30)
  let x := x * 0xbf58476d1ce4e5b9
  let x := x ^^^ (x >>> 27)
  let x := x * 0x94d049bb133111eb
  x ^^^ (x >>> 31)

def pomSeedFold (nonce time p0 p1 p2 p3 : UInt64) : UInt64 :=
  let s := mix64 (nonce ^^^ 0x4B65727978531)
  let s := mix64 (s ^^^ time)
  let s := mix64 (s ^^^ p0)
  let s := mix64 (s ^^^ p1)
  let s := mix64 (s ^^^ p2)
  mix64 (s ^^^ p3)

@[ext]
structure Words4 where
  w0 : UInt64
  w1 : UInt64
  w2 : UInt64
  w3 : UInt64

def pomPowFold (fin : UInt64) (p : Words4) : Words4 :=
  let o0 := mix64 (fin ^^^ p.w0 ^^^ 0x9E3779B97F4A7C15)
  let o1 := mix64 (o0 ^^^ p.w1 ^^^ 0xC2B2AE3D27D4EB4F)
  let o2 := mix64 (o1 ^^^ p.w2 ^^^ 0x165667B19E3779F9)
  let o3 := mix64 (o2 ^^^ p.w3 ^^^ 0xD6E8FEB86659FD93)
  ⟨o0, o1, o2, o3⟩

def pomLeLeq (a b : Words4) : Bool :=
  if a.w3 ≠ b.w3 then decide (a.w3 < b.w3)
  else if a.w2 ≠ b.w2 then decide (a.w2 < b.w2)
  else if a.w1 ≠ b.w1 then decide (a.w1 < b.w1)
  else decide (a.w0 ≤ b.w0)

structure KernelArgs where
  gather : Gather
  tensorCount : UInt32
  nTotalChunks : UInt64
  k : UInt32
  magic : UInt64
  shift : Nat
  p : Words4
  time : UInt64
  t : Words4
  nonceBase : UInt64
  nNonces : UInt64

/-- The block's shared copy: entry `i ≤ T` is written by thread `i` modulo the
block size, before the barrier. -/
def sharedPrefix (args : KernelArgs) (i : Nat) : Option UInt32 :=
  if i ≤ args.tensorCount.toNat then args.gather.prefixSums[i]? else none

def pred (args : KernelArgs) (off : UInt64) (mid : Nat) : Bool :=
  match sharedPrefix args mid with
  | some start => decide (start.toUInt64 ≤ off)
  | none => false

/-- Ten unrolled halvings of `[0, T]`. -/
def findTensor (args : KernelArgs) (off : UInt64) : Nat :=
  (Bisection.halvings (pred args off) 10 (0, args.tensorCount.toNat)).1

section Thread
variable (memory : DeviceMemory) (args : KernelArgs)

/-- One gather: four consecutive words of the tensor that holds `off`. -/
def gatherStep (state off : UInt64) : Option UInt64 := do
  let lo := findTensor args off
  let start ← sharedPrefix args lo
  let localOff := off - start.toUInt64
  let p ← args.gather.bases[lo]?
  let base := localOff * 4
  let address := p.toNat + 8 * base.toNat
  let h := state ^^^ loadWord memory address
  let h := h ^^^ loadWord memory (address + 8)
  let h := h ^^^ loadWord memory (address + 16)
  let h := h ^^^ loadWord memory (address + 24)
  some (mix64 h)

def kernelLoop : Nat → UInt64 → UInt64 → Option UInt64
  | 0, state, _ => some state
  | k + 1, state, off => do
      let state ← gatherStep memory args state off
      kernelLoop k state (fastMod state args.magic args.shift args.nTotalChunks)

def kernelPasses (nonce : UInt64) : Option Bool := do
  let state := pomSeedFold nonce args.time args.p.w0 args.p.w1 args.p.w2 args.p.w3
  let off := fastMod state args.magic args.shift args.nTotalChunks
  let state ← kernelLoop memory args args.k.toNat state off
  some (pomLeLeq (pomPowFold state args.p) args.t)

def blockDim : Nat := 128

/-- The thread `tid` of a block has the index `blockIdx * blockDim + tid`. -/
def gid (thread : Nat × Nat) : UInt64 :=
  UInt64.ofNat thread.1 * UInt64.ofNat blockDim + UInt64.ofNat thread.2

/-- One thread, up to and including its `atomicMin` on the winner. -/
def pomMine (winner : UInt64) (thread : Nat × Nat) : Option UInt64 :=
  if args.nNonces ≤ gid thread then some winner
  else do
    let nonce := args.nonceBase + gid thread
    let passes ← kernelPasses memory args nonce
    -- `atomicMin`
    some (if passes ∧ nonce < winner then nonce else winner)

end Thread

/-- All pairs of a block and a thread of that block. -/
def threads (grid : Nat) : List (Nat × Nat) :=
  (List.range grid).flatMap fun block => (List.range blockDim).map fun tid => (block, tid)

inductive LaunchError where
  | emptyGrid
  | outOfBounds
  deriving DecidableEq

def words4 (b : Bytes 32) : Words4 :=
  let word := fun i => fromLeBytes ((b.items.drop (i * 8)).take 8)
  ⟨word 0, word 1, word 2, word 3⟩

theorem le_words_items (c : Bytes 32) :
    (leWords c).items = [(words4 c).w0, (words4 c).w1, (words4 c).w2, (words4 c).w3] := rfl

theorem words4_bytes (o0 o1 o2 o3 : UInt64) :
    words4 (wordsToBytes ⟨[o0, o1, o2, o3], rfl⟩) = ⟨o0, o1, o2, o3⟩ := by
  have items := congrArg FixedArray.items (le_words_bytes ⟨[o0, o1, o2, o3], rfl⟩)
  simp only [le_words_items, List.cons.injEq, and_true] at items
  obtain ⟨first, second, third, fourth⟩ := items
  exact Words4.ext first second third fourth

def pomWalkSteps : UInt32 := 256

def sentinel : UInt64 := 0xFFFFFFFFFFFFFFFF

def gridOf (batch : UInt64) : UInt32 := ((batch + 127) / 128).toUInt32

def kernelArgs (miner : PomGpuMiner) (prePowHash : Bytes 32) (timestamp : UInt64)
    (target : Bytes 32) (start batch : UInt64) : KernelArgs :=
  let m := (modMagic miner.nTotalChunks).found
  { gather := miner.gather, tensorCount := miner.tensorCount,
    nTotalChunks := miner.nTotalChunks, k := pomWalkSteps, magic := m.magic, shift := m.shift,
    p := words4 prePowHash, time := timestamp, t := words4 target, nonceBase := start,
    nNonces := batch }

/-- `order` is the order in which the threads of the launch reach their atomics. -/
def mine (miner : PomGpuMiner) (memory : DeviceMemory) (order : List (Nat × Nat))
    (prePowHash : Bytes 32) (timestamp : UInt64) (target : Bytes 32) (start batch : UInt64) :
    Except LaunchError (Option UInt64) :=
  if gridOf batch = 0 then .error .emptyGrid
  else
    match order.foldlM
        (pomMine memory (kernelArgs miner prePowHash timestamp target start batch)) sentinel with
    | none => .error .outOfBounds
    | some w => .ok (if w = sentinel then none else some w)

end KeryxMiner.PomKernel
