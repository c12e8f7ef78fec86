import KeryxMiner.MinerJobs
import KeryxMiner.TransitionRuns

/-!
The loops of `launch_gpu_miner` and `launch_cpu_miner` in `src/miner.rs`, one
iteration a step. What the channel, the device and the proof builder answer is
the label of the step; what the loop does is added to a trace.
-/

namespace KeryxMiner.MinerWorkers

open MinerJobs TransitionRuns

def pomBatch : UInt64 := 1048576

/-- An answer of `wait_for_change`. -/
inductive Waited where
  | command (received : Command)
  | closed

/-- An answer of `get_changed`. -/
inductive Polled where
  | command (received : Command)
  | unchanged
  | closed

inductive Seen where
  | read (command : Command)
  /-- A poll without a new command. -/
  | polled
  | launched (job : Job)
  | tested (job : Job) (nonce : UInt64)
  deriving DecidableEq

/-! The GPU worker. -/

structure GpuWorker where
  state : Option Job
  pomNonce : UInt64
  running : Bool
  hashesTried : UInt64

/-- What one iteration meets. `mined` is the answer of `pom_gpu::mine`, `built`
tells that the proof for its nonce could be built; `output` is the nonce copied
from the device and `valid` that the host confirms it. -/
structure GpuTurn where
  waited : Waited
  mined : Option UInt64
  built : Bool
  synced : Bool
  copied : Bool
  output : UInt64
  valid : Bool
  workload : UInt64
  polled : Polled

def GpuWorker.receive (command : Command) (onPause : Option Job) (worker : GpuWorker) :
    GpuWorker :=
  match command with
  | some (.job next) => { worker with state := some next }
  | some .close => { worker with running := false }
  | none => { worker with state := onPause }

def GpuWorker.wait (waited : Waited) (worker : GpuWorker) : GpuWorker × List Seen :=
  match worker.state with
  | some _ => (worker, [])
  | none =>
      match waited with
      | .command command => (worker.receive command none, [.read command])
      | .closed => ({ worker with running := false }, [.polled])

def GpuWorker.poll (polled : Polled) (onPause : Option Job) (worker : GpuWorker) :
    GpuWorker × List Seen :=
  match polled with
  | .command command => (worker.receive command onPause, [.read command])
  | .unchanged => (worker, [.polled])
  | .closed => ({ worker with running := false }, [.polled])

def GpuWorker.pomTurn (turn : GpuTurn) (job : Job) (worker : GpuWorker) : GpuWorker × List Seen :=
  let worker := { worker with
    pomNonce := worker.pomNonce + pomBatch
    hashesTried := worker.hashesTried + pomBatch }
  match turn.mined with
  | some _ =>
      -- `generate_block_if_pom` builds full blocks only; there is no poll here
      if turn.built && job.block.isFull then ({ worker with state := none }, [])
      else (worker, [])
  | none => worker.poll turn.polled (some job)

def GpuWorker.heavyTurn (turn : GpuTurn) (job : Job) (worker : GpuWorker) :
    GpuWorker × List Seen :=
  if !turn.synced then (worker, [])
  else if !turn.copied then ({ worker with running := false }, [])
  else if turn.output ≠ 0 ∧ job.daaScore < pomActivationDaa then
    if turn.valid then
      ({ worker with
        state := if job.block.isFull then none else some job
        hashesTried := worker.hashesTried + turn.workload }, [])
    -- the break of the loop
    else ({ worker with running := false }, [])
  else
    { worker with hashesTried := worker.hashesTried + turn.workload }.poll turn.polled none

/-- Both branches launch a batch first. -/
def GpuWorker.batch (turn : GpuTurn) (job : Job) (worker : GpuWorker) : GpuWorker × List Seen :=
  let (worker, seen) :=
    if pomActivationDaa ≤ job.daaScore then worker.pomTurn turn job else worker.heavyTurn turn job
  (worker, .launched job :: seen)

def gpuTurn (turn : GpuTurn) (worker : GpuWorker) : GpuWorker × List Seen :=
  let (worker, waited) := worker.wait turn.waited
  match worker.state with
  | none => (worker, waited)
  | some job =>
      let (worker, worked) := worker.batch turn job
      (worker, waited ++ worked)

/-! The CPU worker. -/

structure CpuWorker where
  state : Option Job
  nonce : UInt64
  mask : UInt64
  fixed : UInt64
  running : Bool
  hashesTried : UInt64

/-- `won` tells that the nonce meets the target and, for a proof, that it could
be built. -/
structure CpuTurn where
  waited : Waited
  won : Bool
  polled : Polled

def CpuWorker.receive (command : Command) (worker : CpuWorker) : CpuWorker :=
  match command with
  | some (.job next) => { worker with state := some next }
  | some .close => { worker with running := false }
  | none => { worker with state := none }

/-- Only this path takes the mask and the fixed part from the job. -/
def CpuWorker.refresh (worker : CpuWorker) : CpuWorker :=
  match worker.state with
  | none => worker
  | some job => { worker with mask := job.nonceMask, fixed := job.nonceFixed }

def CpuWorker.wait (waited : Waited) (worker : CpuWorker) : CpuWorker × List Seen :=
  match worker.state with
  | some _ => (worker, [])
  | none =>
      match waited with
      | .command command => ((worker.receive command).refresh, [.read command])
      | .closed => ({ worker with running := false }, [.polled])

def CpuWorker.poll (polled : Polled) (worker : CpuWorker) : CpuWorker × List Seen :=
  if worker.nonce % 128 = 0 then
    match polled with
    | .command command => (worker.receive command, [.read command])
    | .unchanged => (worker, [.polled])
    | .closed => ({ worker with running := false }, [.polled])
  else (worker, [])

/-- The block found for the job: past the activation only full blocks are built. -/
def foundBlock (won : Bool) (job : Job) : Option BlockSeed :=
  if pomActivationDaa ≤ job.daaScore then
    if won && job.block.isFull then some job.block else none
  else if won then some job.block
  else none

def CpuWorker.test (turn : CpuTurn) (job : Job) (worker : CpuWorker) : CpuWorker × List Seen :=
  let nonce := (worker.nonce &&& worker.mask) ||| worker.fixed
  let (worker, seen) := { worker with
    state := if (foundBlock turn.won job).any BlockSeed.isFull then none else some job
    nonce := nonce + 1
    hashesTried := worker.hashesTried + 1 }.poll turn.polled
  (worker, .tested job nonce :: seen)

def cpuTurn (turn : CpuTurn) (worker : CpuWorker) : CpuWorker × List Seen :=
  let (worker, waited) := worker.wait turn.waited
  match worker.state with
  | none => (worker, waited)
  | some job =>
      let (worker, worked) := worker.test turn job
      (worker, waited ++ worked)

/-! Runs. -/

/-- A worker with what it did so far. -/
structure Traced (Worker : Type) where
  worker : Worker
  trace : List Seen

def gpuStep (traced : Traced GpuWorker) (turn : GpuTurn) : Option (Traced GpuWorker) :=
  if traced.worker.running then
    let (worker, seen) := gpuTurn turn traced.worker
    some ⟨worker, traced.trace ++ seen⟩
  else none

def cpuStep (traced : Traced CpuWorker) (turn : CpuTurn) : Option (Traced CpuWorker) :=
  if traced.worker.running then
    let (worker, seen) := cpuTurn turn traced.worker
    some ⟨worker, traced.trace ++ seen⟩
  else none

/-- The first nonces are random. -/
def GpuWorker.spawned (pomNonce : UInt64) : Traced GpuWorker := ⟨⟨none, pomNonce, true, 0⟩, []⟩

def CpuWorker.spawned (nonce : UInt64) : Traced CpuWorker := ⟨⟨none, nonce, 0, 0, true, 0⟩, []⟩

end KeryxMiner.MinerWorkers
