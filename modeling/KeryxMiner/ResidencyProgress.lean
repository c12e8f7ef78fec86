import KeryxMiner.LockOrder
import KeryxMiner.ResidencySafety

/-!
Who waits for whom. A guard of the engine's lock takes the miners' lock; no other guard takes
another lock, so some thread can always move.
-/

namespace KeryxMiner.ResidencyProgress

open LockOrder ModelResidency ResidencyRuns ResidencySafety ThreadPool TransitionRuns

variable {process : Process} {thread : Nat} {legacy v2 : List ModelId}
  {miningTier : Option ModelId} {events : List (Event Place Answer)} {pool : Pool Process Place}

inductive Lock where
  | engine
  | miners
  | build

def holder (process : Process) : Lock → Option Nat
  | .engine => process.engineLock.holder
  | .miners => process.minersLock.holder
  | .build => process.buildLock.holder

def holds : Lock → Place → Bool
  | .engine => holdsEngine
  | .miners => holdsMiners
  | .build => building

/-- The lock that the next turn takes, if only to look. -/
def wants : Place → Option Lock
  | .advance (.evict _ _) | .inference (.lock _) | .inference (.recover _)
  | .worker _ (.share _) => some .engine
  | .inference (.uninstall _) | .worker _ (.test _) | .worker _ (.ensure _)
  | .worker _ (.install _) | .worker _ .mine => some .miners
  | .worker _ (.lock _ _) => some .build
  | _ => none

def finished : Place → Bool
  | .advance .returned | .advance (.swapped _ _) | .inference (.answered _ _)
  | .worker _ (.dead _) => true
  | _ => false

/-- The miners' lock is taken inside the engine's, and no lock inside another besides. -/
def rank : Lock → Nat
  | .engine => 1
  | .miners | .build => 0

/-- An answer that the next turn of the thread can take. -/
def reply : Place → Answer
  | .advance (.files _ _) => .files true
  | .inference (.load _) | .inference (.generate _) | .worker _ (.build _ _)
  | .worker _ (.load _) => .failed
  | .worker _ .idle => .block 0
  | _ => .none

theorem advance_replied {place : AdvancePlace} (unfinished : finished (.advance place) = false)
    (free : wants (.advance place) = some .engine → process.engineLock.free = true) :
    (advanceLineupIfDue process place (reply (.advance place))).isSome = true := by
  cases place with
  | compare daa =>
      simp only [advanceLineupIfDue, reply]
      split
      · rfl
      · rfl
  | active daa => rfl
  | lineup daa => rfl
  | files daa lineup => rfl
  | swap daa lineup => rfl
  | write daa lineup => rfl
  | evict daa lineup => simp only [advanceLineupIfDue, reply, free rfl, if_true, Option.isSome_some]
  | swapped daa lineup => cases unfinished
  | returned => cases unfinished

theorem inference_replied {place : InferencePlace}
    (unfinished : finished (.inference place) = false)
    (engine : wants (.inference place) = some .engine → process.engineLock.free = true)
    (miners : wants (.inference place) = some .miners → process.minersLock.free = true) :
    (loadAndRunInference thread process place (reply (.inference place))).isSome = true := by
  cases place with
  | find modelId =>
      simp only [loadAndRunInference, reply]
      split
      · rfl
      · rfl
  | lock modelId => simp only [loadAndRunInference, reply, engine rfl, if_true, Option.isSome_some]
  | check modelId =>
      simp only [loadAndRunInference, reply]
      split
      · split
        · rfl
        · rfl
      · rfl
  | uninstall modelId =>
      simp only [loadAndRunInference, reply, miners rfl, if_true, Option.isSome_some]
  | load modelId => rfl
  | generate modelId => rfl
  | recover modelId =>
      simp only [loadAndRunInference, reply, engine rfl, if_true, Option.isSome_some]
  | answered modelId text => cases unfinished

theorem worker_replied {device : Nat} {place : WorkerPlace}
    (unfinished : finished (.worker device place) = false)
    (engine : wants (.worker device place) = some .engine → process.engineLock.free = true)
    (miners : wants (.worker device place) = some .miners → process.minersLock.free = true)
    (build : wants (.worker device place) = some .build → process.buildLock.free = true) :
    (workerTurn thread device process place (reply (.worker device place))).isSome = true := by
  cases place with
  | idle => rfl
  | test daa => simp only [workerTurn, reply, miners rfl, if_true, Option.isSome_some]
  | ensure daa =>
      simp only [workerTurn, ensureInstalled, reply, miners rfl, if_true, Option.isSome_some]
  | count daa => rfl
  | tier daa =>
      simp only [workerTurn, ensureInstalled, reply]
      split
      · rfl
      · rfl
  | lock modelId daa =>
      simp only [workerTurn, ensureInstalled, reply, build rfl, if_true, Option.isSome_some]
  | recheck modelId daa =>
      simp only [workerTurn, ensureInstalled, reply]
      split
      · split
        · rfl
        · rfl
      · rfl
  | build modelId tier => rfl
  | set modelId index => rfl
  | unlock modelId ready => rfl
  | share modelId =>
      simp only [workerTurn, ensureInstalled, reply, engine rfl, if_true, Option.isSome_some]
  | load shared => rfl
  | guard miner =>
      simp only [workerTurn, ensureInstalled, reply]
      split
      · rfl
      · rfl
  | install miner =>
      simp only [workerTurn, ensureInstalled, reply, miners rfl, if_true, Option.isSome_some]
  | uncount => rfl
  | mine =>
      simp only [workerTurn, mine, reply, miners rfl, if_true]
      split
      · rfl
      · split
        · rfl
        · rfl
  | batch miner => rfl
  | dead counted => cases unfinished

theorem turn_replied {place : Place} (unfinished : finished place = false)
    (free : ∀ lock, wants place = some lock → holder process lock = none) :
    ∃ label after, turn thread process place label = some after := by
  have engine : wants place = some .engine → process.engineLock.free = true :=
    fun wanted => Option.isNone_iff_eq_none.mpr (free .engine wanted)
  have miners : wants place = some .miners → process.minersLock.free = true :=
    fun wanted => Option.isNone_iff_eq_none.mpr (free .miners wanted)
  have build : wants place = some .build → process.buildLock.free = true :=
    fun wanted => Option.isNone_iff_eq_none.mpr (free .build wanted)
  refine ⟨reply place, Option.isSome_iff_exists.mp ?_⟩
  cases place with
  | advance place => exact Option.isSome_map.trans (advance_replied unfinished engine)
  | inference place => exact Option.isSome_map.trans (inference_replied unfinished engine miners)
  | worker device place =>
      exact Option.isSome_map.trans (worker_replied unfinished engine miners build)

/-- A holder is not finished, and waits for nothing or for the miners with the engine. -/
theorem holding_place {lock : Lock} {place : Place} (holding : holds lock place = true) :
    finished place = false ∧
      (wants place = none ∨ lock = .engine ∧ wants place = some .miners) := by
  cases lock with
  | engine =>
      cases place with
      | inference place =>
          cases place with
          | check modelId => exact ⟨rfl, .inl rfl⟩
          | uninstall modelId => exact ⟨rfl, .inr ⟨rfl, rfl⟩⟩
          | load modelId => exact ⟨rfl, .inl rfl⟩
          | generate modelId => exact ⟨rfl, .inl rfl⟩
          | _ => cases holding
      | advance place => cases holding
      | worker device place => cases holding
  | miners =>
      cases place with
      | worker device place =>
          cases place with
          | batch miner => exact ⟨rfl, .inl rfl⟩
          | _ => cases holding
      | advance place => cases holding
      | inference place => cases holding
  | build =>
      cases place with
      | worker device place =>
          cases place with
          | recheck modelId daa => exact ⟨rfl, .inl rfl⟩
          | build modelId tier => exact ⟨rfl, .inl rfl⟩
          | set modelId index => exact ⟨rfl, .inl rfl⟩
          | unlock modelId ready => exact ⟨rfl, .inl rfl⟩
          | _ => cases holding
      | advance place => cases holding
      | inference place => cases holding

theorem residency_ordered : Ordered holder wants holds turn finished rank where
  owns lock := by
    cases lock with
    | engine => exact engine_owns
    | miners => exact miners_owns
    | build => exact build_owns
  moves _ _ _ unfinished free := turn_replied unfinished free
  busy _ _ holding := (holding_place holding).1
  down lock place wanted holding wants := by
    obtain nothing | ⟨rfl, miners⟩ := (holding_place holding).2
    · cases nothing.symm.trans wants
    · cases miners.symm.trans wants
      exact Nat.zero_lt_one

/-- No deadlock: from every thread that is not at its end a path of at most two waits leads to a
thread that can move. -/
theorem waits_end (reached : Reached legacy v2 miningTier events pool) {place : Place}
    (here : pool.threads[thread]? = some place) (unfinished : finished place = false) :
    ∃ length last, length ≤ 2 ∧ WaitPath holder wants holds pool length thread last ∧
      CanMove turn starts pool last := by
  refine residency_ordered.progress (fun lock => ?_) 2 thread place here unfinished ?_
  · exact (residency_ordered.owns lock).run (owned_first (by cases lock <;> rfl)) reached
  · intro lock _
    cases lock <;> decide

/-- A batch is computed, an inference wants the GPU of the batch, and the swap the engine. -/
def crowdedRun : List (Event Place Answer) :=
  minedRun ++ [.turn 0 .none, .begin (.inference (.find gemma34b)), .turn 1 .none, .turn 1 .none,
    .turn 1 .none, .begin (.advance (.compare opoiV2ActivationDaa)), .turn 2 .none, .turn 2 .none,
    .turn 2 .none, .turn 2 (.files true), .turn 2 .none, .turn 2 .none]

theorem waits_end_sample : ∃ pool, Reached [gemma34b] [qwen332b] (some gemma34b) crowdedRun pool ∧
    pool.threads[2]? = some (.advance (.evict opoiV2ActivationDaa [qwen332b])) ∧
    ∃ length last, length ≤ 2 ∧ WaitPath holder wants holds pool length 2 last ∧
      CanMove turn starts pool last := by
  obtain ⟨pool, reached, here⟩ : ∃ pool,
      Reached [gemma34b] [qwen332b] (some gemma34b) crowdedRun pool ∧
      pool.threads[2]? = some (.advance (.evict opoiV2ActivationDaa [qwen332b])) := ⟨_, rfl, rfl⟩
  exact ⟨pool, reached, here, waits_end reached here rfl⟩

end KeryxMiner.ResidencyProgress
