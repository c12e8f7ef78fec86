import KeryxMiner.ByteCodec
import KeryxMiner.ThreadPool

/-!
What `src/slm.rs` and `src/pom_gpu.rs` keep for the whole process: the served lineup, the resident
engine, the GPU miners and the possession index. A step is one access to them or one call that may
fail. What is logged and `ensure_loaded`, which nothing calls, are left out.
-/

namespace KeryxMiner.ModelResidency

open ByteCodec ThreadPool

abbrev ModelId := Bytes 32

/-- The tensors can be shared when the split loader made the model. -/
structure SlmEngine where
  modelId : ModelId
  split : Bool

structure PomGpuMiner where
  nChunks : Nat
  shared : Bool

/-- Of the weight index its length, with the tier it was built for. -/
structure WeightIndex where
  nChunks : Nat
  tier : UInt8
  deriving DecidableEq

/-- A lock is held by a thread; it is poisoned when a thread panics that holds it. -/
structure Mutex where
  holder : Option Nat
  poisoned : Bool

def Mutex.free (lock : Mutex) : Bool := lock.holder.isNone

def Mutex.taken (lock : Mutex) (thread : Nat) : Mutex := { lock with holder := some thread }

def Mutex.dropped (lock : Mutex) : Mutex := { lock with holder := none }

/-- What unwinding does to a lock. -/
def Mutex.unwound (lock : Mutex) (thread : Nat) : Mutex :=
  if lock.holder = some thread then ⟨none, true⟩ else lock

structure Process where
  supportedSpecs : List ModelId
  lineupV2 : List ModelId
  v2Active : Bool
  seenPreH : Bool
  engine : Option SlmEngine
  engineLock : Mutex
  miners : Nat → Option PomGpuMiner
  minersLock : Mutex
  buildLock : Mutex
  pomIndex : Option WeightIndex
  loading : Nat
  miningTier : Option ModelId

/-- `init_supported` and `set_v2_lineup` were called, and `set_mining_tier` if there is a tier. -/
def Process.started (specs v2 : List ModelId) (miningTier : Option ModelId) : Process where
  supportedSpecs := specs
  lineupV2 := v2
  v2Active := false
  seenPreH := false
  engine := none
  engineLock := ⟨none, false⟩
  miners _ := none
  minersLock := ⟨none, false⟩
  buildLock := ⟨none, false⟩
  pomIndex := none
  loading := 0
  miningTier

def opoiV2ActivationDaa : UInt64 := 37780000

/-- What a call answers, where it is not determined by the process. -/
inductive Answer where
  | none
  | files (complete : Bool)
  | engine (split : Bool)
  | text (text : String)
  | built (nChunks : Nat)
  | miner (nChunks : Nat)
  | block (daa : UInt64)
  | failed
  | panicked

/-! `advance_lineup_if_due`. -/

inductive AdvancePlace where
  | compare (daa : UInt64)
  | active (daa : UInt64)
  | lineup (daa : UInt64)
  | files (daa : UInt64) (v2 : List ModelId)
  | swap (daa : UInt64) (v2 : List ModelId)
  | write (daa : UInt64) (v2 : List ModelId)
  | evict (daa : UInt64) (v2 : List ModelId)
  | swapped (daa : UInt64) (v2 : List ModelId)
  | returned

def advanceLineupIfDue (process : Process) :
    AdvancePlace → Answer → Option (Process × AdvancePlace)
  | .compare daa, .none =>
      if daa < opoiV2ActivationDaa then some ({ process with seenPreH := true }, .returned)
      else some (process, .active daa)
  | .active daa, .none => some (process, if process.v2Active then .returned else .lineup daa)
  | .lineup daa, .none =>
      some (process, if process.lineupV2 = [] then .returned else .files daa process.lineupV2)
  | .files daa v2, .files complete =>
      some (process, if complete then .swap daa v2 else .returned)
  | .swap daa v2, .none =>
      some ({ process with v2Active := true },
        if process.v2Active then .returned else .write daa v2)
  | .write daa v2, .none => some ({ process with supportedSpecs := v2 }, .evict daa v2)
  | .evict daa v2, .none =>
      if process.engineLock.free then some ({ process with engine := none }, .swapped daa v2)
      else none
  | _, _ => none

/-! `load_and_run_inference`. -/

inductive InferencePlace where
  | find (modelId : ModelId)
  | lock (modelId : ModelId)
  | check (modelId : ModelId)
  | uninstall (modelId : ModelId)
  | load (modelId : ModelId)
  | generate (modelId : ModelId)
  | recover (modelId : ModelId)
  | answered (modelId : ModelId) (text : Option String)

/-- The guard is dropped and the call returns. -/
def InferencePlace.leave (process : Process) (modelId : ModelId) (text : Option String) :
    Process × InferencePlace :=
  ({ process with engineLock := process.engineLock.dropped }, .answered modelId text)

def loadAndRunInference (thread : Nat) (process : Process) :
    InferencePlace → Answer → Option (Process × InferencePlace)
  | .find modelId, .none =>
      if modelId ∈ process.supportedSpecs then some (process, .lock modelId)
      else some (process, .answered modelId none)
  | .lock modelId, .none =>
      if process.engineLock.free then
        some ({ process with
          engine := if process.engineLock.poisoned then none else process.engine
          engineLock := process.engineLock.taken thread }, .check modelId)
      else none
  | .check modelId, .none =>
      match process.engine with
      | some engine =>
          if engine.modelId = modelId then some (process, .generate modelId)
          else some (process, .uninstall modelId)
      | none => some (process, .uninstall modelId)
  | .uninstall modelId, .none =>
      if process.minersLock.free then
        let miners := if process.minersLock.poisoned then process.miners
          else fun device => if device = 0 then none else process.miners device
        some ({ process with miners, engine := none }, .load modelId)
      else none
  | .load modelId, .engine split =>
      some ({ process with engine := some ⟨modelId, split⟩ }, .generate modelId)
  | .load modelId, .failed => some (InferencePlace.leave process modelId none)
  | .load modelId, .panicked | .generate modelId, .panicked =>
      some ({ process with engineLock := process.engineLock.unwound thread }, .recover modelId)
  | .generate modelId, .text text =>
      some (InferencePlace.leave process modelId (if text = "" then none else some text))
  | .generate modelId, .failed =>
      some (InferencePlace.leave { process with engine := none } modelId none)
  | .recover modelId, .none =>
      if process.engineLock.free then
        -- a poisoned lock is not a guard
        let engine := if process.engineLock.poisoned then process.engine else none
        some ({ process with engine }, .answered modelId none)
      else none
  | _, _ => none

/-! The tiers of `src/models.rs`. -/

def gemma34b : ModelId :=
  ⟨[0xad, 0x50, 0xad, 0x0b, 0xd4, 0x61, 0xd8, 0xab, 0x44, 0xef, 0xc0, 0x21, 0x49, 0x89,
    0xeb, 0x33, 0x29, 0x16, 0x85, 0xef, 0x4a, 0xde, 0x22, 0xa0, 0xf4, 0xf2, 0x17, 0xd0,
    0x32, 0x66, 0xd8, 0x37], rfl⟩

def dolphinLlama38b : ModelId :=
  ⟨[0x94, 0x21, 0x06, 0x6a, 0x64, 0x00, 0xc9, 0x8b, 0xa1, 0x37, 0x11, 0x4f, 0x7f, 0x4b,
    0x7d, 0x4a, 0x2d, 0xdf, 0x13, 0xab, 0x16, 0x3a, 0x5d, 0xe3, 0x8c, 0x01, 0x84, 0x79,
    0x3a, 0xf6, 0x31, 0x3a], rfl⟩

def qwen332b : ModelId :=
  ⟨[0x65, 0xc6, 0xeb, 0x6f, 0xe1, 0x8b, 0x9e, 0xfd, 0x80, 0x60, 0xab, 0x9d, 0x2d, 0x03,
    0xbb, 0x9b, 0x01, 0x05, 0x0a, 0x3b, 0x13, 0x78, 0xcb, 0xac, 0x00, 0x0c, 0x5c, 0xc0,
    0xac, 0xdc, 0x0d, 0x2a], rfl⟩

def llama3370b : ModelId :=
  ⟨[0x13, 0x29, 0xfb, 0xe2, 0x1b, 0x3f, 0x36, 0xf6, 0xd0, 0x06, 0x89, 0xfc, 0xaa, 0x74,
    0xf7, 0xa2, 0x22, 0xb8, 0xcc, 0x4c, 0x08, 0xc0, 0x19, 0x1f, 0xeb, 0x23, 0x97, 0x55,
    0xa7, 0x23, 0x42, 0x1e], rfl⟩

def qwen317b : ModelId :=
  ⟨[0x4f, 0x21, 0xdd, 0xeb, 0x7d, 0x62, 0xbd, 0x22, 0x65, 0xbc, 0x54, 0x23, 0x0d, 0x53,
    0x6c, 0xa3, 0xf1, 0x74, 0x99, 0x27, 0x78, 0x0f, 0x52, 0x8c, 0x3c, 0x41, 0xfa, 0x29,
    0x11, 0xdf, 0x4d, 0x72], rfl⟩

def llama3370bQ2 : ModelId :=
  ⟨[0x6d, 0xf4, 0x6a, 0x78, 0xcb, 0xe4, 0xdc, 0x57, 0x9f, 0x04, 0xdb, 0xd8, 0x01, 0xf1,
    0xa5, 0x20, 0xb9, 0xea, 0xe2, 0x8c, 0xe7, 0xb5, 0x0c, 0x8d, 0xa7, 0x87, 0x4b, 0xfa,
    0x3f, 0xb5, 0x10, 0x8d], rfl⟩

def veryLightActivationDaa : UInt64 := 38951445

def pomTierIndex (modelId : ModelId) (daa : UInt64) : Option UInt8 :=
  if veryLightActivationDaa ≤ daa then
    if modelId = qwen317b then some 0
    else if modelId = gemma34b then some 1
    else if modelId = dolphinLlama38b then some 2
    else if modelId = qwen332b then some 3
    else if modelId = llama3370bQ2 then some 4
    else none
  else
    if modelId = gemma34b then some 0
    else if modelId = dolphinLlama38b then some 1
    else if modelId = qwen332b then some 2
    else if modelId = llama3370b then some 3
    else none

/-! A GPU worker: `ensure_installed` and `mine` of `src/pom_gpu.rs`, in the loop of the worker. -/

/-- Where a worker of a device is. -/
inductive WorkerPlace where
  | idle
  | test (daa : UInt64)
  | ensure (daa : UInt64)
  | count (daa : UInt64)
  | tier (daa : UInt64)
  | lock (modelId : ModelId) (daa : UInt64)
  | recheck (modelId : ModelId) (daa : UInt64)
  | build (modelId : ModelId) (tier : UInt8)
  | set (modelId : ModelId) (index : WeightIndex)
  | unlock (modelId : ModelId) (ready : Bool)
  | share (modelId : ModelId)
  | load (shared : Bool)
  | guard (miner : PomGpuMiner)
  | install (miner : PomGpuMiner)
  | uncount
  | mine
  | batch (miner : PomGpuMiner)
  | dead (counted : Bool)

def isInstalled (process : Process) (device : Nat) : Bool :=
  !process.minersLock.poisoned && (process.miners device).isSome

def isLoading (process : Process) : Bool := decide (0 < process.loading)

/-- The engine shares its tensors with the walk on its own device. -/
def pomShared (process : Process) (device : Nat) (modelId : ModelId) : Bool :=
  !process.engineLock.poisoned && decide (device = 0) &&
    process.engine.any fun engine => decide (engine.modelId = modelId) && engine.split

def ensureInstalled (thread device : Nat) (process : Process) :
    WorkerPlace → Answer → Option (Process × WorkerPlace)
  | .ensure daa, .none =>
      if process.minersLock.free then
        some (process, if isInstalled process device then .mine else .count daa)
      else none
  | .count daa, .none => some ({ process with loading := process.loading + 1 }, .tier daa)
  | .tier daa, .none =>
      match process.miningTier with
      | none => some (process, .uncount)
      | some modelId =>
          some (process, if process.pomIndex.isNone then .lock modelId daa else .share modelId)
  | .lock modelId daa, .none =>
      if process.buildLock.free then
        -- a poisoned lock is not a guard, and the build goes on without it
        let buildLock := if process.buildLock.poisoned then process.buildLock
          else process.buildLock.taken thread
        some ({ process with buildLock }, .recheck modelId daa)
      else none
  | .recheck modelId daa, .none =>
      if process.pomIndex.isNone then
        match pomTierIndex modelId daa with
        | some tier => some (process, .build modelId tier)
        | none => some (process, .unlock modelId false)
      else some (process, .unlock modelId true)
  | .build modelId tier, .built nChunks => some (process, .set modelId ⟨nChunks, tier⟩)
  | .build modelId _, .failed => some (process, .unlock modelId false)
  | .build _ _, .panicked =>
      some ({ process with buildLock := process.buildLock.unwound thread }, .dead true)
  | .set modelId index, .none =>
      some ({ process with pomIndex := process.pomIndex.or (some index) }, .unlock modelId true)
  | .unlock modelId ready, .none =>
      let buildLock := if process.buildLock.holder = some thread then process.buildLock.dropped
        else process.buildLock
      some ({ process with buildLock }, if ready then .share modelId else .uncount)
  | .share modelId, .none =>
      if process.engineLock.free then some (process, .load (pomShared process device modelId))
      else none
  | .load shared, .miner nChunks => some (process, .guard ⟨nChunks, shared⟩)
  | .load _, .failed => some (process, .uncount)
  | .load _, .panicked => some (process, .dead true)
  | .guard miner, .none =>
      match process.pomIndex with
      | some index =>
          some (process, if miner.nChunks = index.nChunks then .install miner else .uncount)
      | none => some (process, .install miner)
  | .install miner, .none =>
      if process.minersLock.free then
        let miners := if process.minersLock.poisoned then process.miners
          else fun other => if other = device then some miner else process.miners other
        some ({ process with miners }, .uncount)
      else none
  | .uncount, .none => some ({ process with loading := process.loading - 1 }, .mine)
  | _, _ => none

/-- `mine` holds the map of the miners while the batch is computed. -/
def mine (thread device : Nat) (process : Process) :
    WorkerPlace → Answer → Option (Process × WorkerPlace)
  | .mine, .none =>
      if process.minersLock.free then
        if process.minersLock.poisoned then some (process, .idle)
        else match process.miners device with
          | some miner =>
              some ({ process with minersLock := process.minersLock.taken thread }, .batch miner)
          | none => some (process, .idle)
      else none
  | .batch _, .none | .batch _, .failed =>
      some ({ process with minersLock := process.minersLock.dropped }, .idle)
  | .batch _, .panicked =>
      some ({ process with minersLock := process.minersLock.unwound thread }, .dead false)
  | _, _ => none

def workerTurn (thread device : Nat) (process : Process) :
    WorkerPlace → Answer → Option (Process × WorkerPlace)
  | .idle, .block daa => some (process, .test daa)
  | .test daa, .none =>
      if process.minersLock.free then
        some (process, if isInstalled process device then .mine else .ensure daa)
      else none
  | .mine, answer => mine thread device process .mine answer
  | .batch miner, answer => mine thread device process (.batch miner) answer
  | place, answer => ensureInstalled thread device process place answer

/-! All threads. -/

inductive Place where
  | advance (place : AdvancePlace)
  | inference (place : InferencePlace)
  | worker (device : Nat) (place : WorkerPlace)

def turn (thread : Nat) (process : Process) : Place → Answer → Option (Process × Place)
  | .advance place, answer =>
      (advanceLineupIfDue process place answer).map fun after => (after.1, .advance after.2)
  | .inference place, answer =>
      (loadAndRunInference thread process place answer).map fun after =>
        (after.1, .inference after.2)
  | .worker device place, answer =>
      (workerTurn thread device process place answer).map fun after =>
        (after.1, .worker device after.2)

def starts : Place → Bool
  | .advance (.compare _) => true
  | .inference (.find _) => true
  | .worker _ .idle => true
  | _ => false

end KeryxMiner.ModelResidency
