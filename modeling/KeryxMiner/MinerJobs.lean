import KeryxMiner.RpcMessages

/-!
`MinerManager` of `src/miner.rs` and the jobs it publishes. Of `pow::State` only
what the workers' loops read is kept: its matrix and hashers are functions of the
block.
-/

namespace KeryxMiner.MinerJobs

open RpcMessages

/-- `POM_ACTIVATION_DAA` of `src/pom.rs`. -/
def pomActivationDaa : UInt64 := 37780000

/-- `Uint256` and the header hash: four limbs, the least significant first. -/
abbrev Limbs := Vector UInt64 4

structure PartialBlock where
  id : String
  headerHash : Limbs
  timestamp : UInt64
  daaScore : UInt64
  nonce : UInt64
  target : Limbs
  nonceMask : UInt64
  nonceFixed : UInt64
  hash : Option String
  deriving DecidableEq

inductive BlockSeed where
  | fullBlock (block : RpcBlock)
  | partialBlock (share : PartialBlock)
  deriving DecidableEq

def BlockSeed.isFull : BlockSeed → Bool
  | .fullBlock _ => true
  | .partialBlock _ => false

/-- `pow::State`. -/
structure Job where
  id : Nat
  block : BlockSeed
  nonceMask : UInt64
  nonceFixed : UInt64
  daaScore : UInt64
  deriving DecidableEq

/-- `State::new`. -/
def Job.new (id : Nat) (blockSeed : BlockSeed) : Except String Job :=
  match blockSeed with
  | .fullBlock block =>
      match block.header with
      | none => .error "Header is missing"
      | some header => .ok {
          id
          block := blockSeed
          nonceMask := 0xffffffffffffffff
          nonceFixed := 0
          daaScore := header.daaScore }
  | .partialBlock share => .ok {
      id
      block := blockSeed
      nonceMask := share.nonceMask
      nonceFixed := share.nonceFixed
      daaScore := share.daaScore }

inductive WorkerCommand where
  | job (state : Job)
  | close
  deriving DecidableEq

/-- What the watch channel carries; `none` is the pause. -/
abbrev Command := Option WorkerCommand

/-- `published` is the value in the watch channel and `receivers` counts the
workers that still hold it. -/
structure MinerManager where
  isSynced : Bool
  currentStateId : Nat
  published : Command
  receivers : Nat

def MinerManager.new (workers : Nat) : MinerManager where
  isSynced := true
  currentStateId := 0
  published := none
  receivers := workers

def send (command : Command) (manager : MinerManager) : MinerManager × Except String Unit :=
  if manager.receivers = 0 then (manager, .error "Failed sending block to threads")
  else ({ manager with published := command }, .ok ())

def processBlock (block : Option BlockSeed) (manager : MinerManager) :
    MinerManager × Except String Unit :=
  match block with
  | some seed =>
      let id := manager.currentStateId
      let manager := { manager with isSynced := true, currentStateId := id + 1 }
      match Job.new id seed with
      | .error e => (manager, .error e)
      | .ok job => send (some (.job job)) manager
  | none =>
      -- a second pause is not sent
      if !manager.isSynced then (manager, .ok ())
      else send none { manager with isSynced := false }

/-- The last command published is the pause. -/
def MinerManager.Paused (manager : MinerManager) : Prop := manager.published = none

/-- An unsynced manager, and one that nobody hears, has the pause in its channel. -/
structure PauseAnnounced (manager : MinerManager) : Prop where
  unsynced : manager.isSynced = false → manager.Paused
  unheard : manager.receivers = 0 → manager.Paused

theorem new_announced (workers : Nat) : PauseAnnounced (MinerManager.new workers) where
  unsynced := fun _ => rfl
  unheard := fun _ => rfl

/-- `process_block(None)` leaves the pause published, sent or not. -/
theorem pause_paused {manager : MinerManager} (announced : PauseAnnounced manager) :
    (processBlock none manager).1.Paused := by
  unfold processBlock
  cases synced : manager.isSynced with
  | false => exact announced.unsynced synced
  | true =>
      rw [if_neg (by decide)]
      unfold send
      dsimp only
      split
      · rename_i unheard
        exact announced.unheard unheard
      · rfl

theorem send_job_announced {manager : MinerManager} (announced : PauseAnnounced manager)
    (job : Job) (synced : manager.isSynced = true) :
    PauseAnnounced (send (some (.job job)) manager).1 := by
  unfold send
  split
  · exact announced
  · rename_i heard
    constructor
    · intro unsynced
      rw [synced] at unsynced
      contradiction
    · exact fun unheard => absurd unheard heard

theorem process_block_announced {manager : MinerManager} (announced : PauseAnnounced manager)
    (block : Option BlockSeed) : PauseAnnounced (processBlock block manager).1 := by
  cases block with
  | none =>
      have paused := pause_paused announced
      exact ⟨fun _ => paused, fun _ => paused⟩
  | some seed =>
      unfold processBlock
      dsimp only
      split
      · exact ⟨fun unsynced => by contradiction, announced.unheard⟩
      · apply send_job_announced _ _ rfl
        exact ⟨fun unsynced => by contradiction, announced.unheard⟩

end KeryxMiner.MinerJobs
