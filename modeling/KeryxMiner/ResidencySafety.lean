import KeryxMiner.ResidencyRuns

/-!
The runs of a process that starts with no threads: one swap of the lineup, one inference on the
engine at a time, and miners that gather what the index has.
-/

namespace KeryxMiner.ResidencySafety

open ModelResidency ResidencyRuns ResidencyTurns ThreadPool TransitionRuns

/-! The locks and their holders. -/

theorem unwound_holder (lock : Mutex) (thread owner : Nat) :
    (lock.unwound thread).holder = some owner ↔ lock.holder = some owner ∧ owner ≠ thread := by
  unfold Mutex.unwound
  split
  · rename_i held
    simp only [held, reduceCtorEq, Option.some.injEq, false_iff, not_and, not_not]
    exact Eq.symm
  · rename_i apart
    exact ⟨fun held => ⟨held, fun same => apart (same ▸ held)⟩, And.left⟩

variable {process after : Process} {thread : Nat} {answer : Answer}

/-- What a call to `advance_lineup_if_due` leaves alone. -/
theorem advance_leaves {place next : AdvancePlace}
    (moved : AdvanceTurn process place answer after next) :
    after.engineLock = process.engineLock ∧ after.minersLock = process.minersLock ∧
      after.buildLock = process.buildLock ∧ after.loading = process.loading ∧
      after.pomIndex = process.pomIndex := by
  cases moved <;> exact ⟨rfl, rfl, rfl, rfl, rfl⟩

theorem inference_leaves {place next : InferencePlace}
    (moved : InferenceTurn thread process place answer after next) :
    after.minersLock = process.minersLock ∧ after.buildLock = process.buildLock ∧
      after.v2Active = process.v2Active ∧ after.loading = process.loading ∧
      after.pomIndex = process.pomIndex := by
  cases moved <;> exact ⟨rfl, rfl, rfl, rfl, rfl⟩

theorem install_leaves {device : Nat} {place next : WorkerPlace}
    (moved : InstallTurn thread device process place answer after next) :
    after.engineLock = process.engineLock ∧ after.minersLock = process.minersLock ∧
      after.v2Active = process.v2Active ∧ holdsMiners (.worker device place) = false := by
  cases moved <;> exact ⟨rfl, rfl, rfl, rfl⟩

theorem mine_leaves {device : Nat} {place next : WorkerPlace}
    (moved : MineTurn thread device process place answer after next) :
    after.engineLock = process.engineLock ∧ after.buildLock = process.buildLock ∧
      after.v2Active = process.v2Active ∧ after.loading = process.loading ∧
      after.pomIndex = process.pomIndex ∧ building (.worker device place) = false := by
  cases moved <;> exact ⟨rfl, rfl, rfl, rfl, rfl, rfl⟩

theorem unwound_turn (thread : Nat) (lock : Mutex) (standing next : Bool) :
    LockTurn thread lock.holder (lock.unwound thread).holder standing next := by
  intro held
  constructor
  · intro own
    exact absurd rfl ((unwound_holder lock thread thread).mp own).2
  · intro owner _ theirs
    exact ((unwound_holder lock thread owner).mp theirs).1

theorem inference_engine {place next : InferencePlace}
    (moved : InferenceTurn thread process place answer after next) :
    LockTurn thread process.engineLock.holder after.engineLock.holder
      (holdsEngine (.inference place)) (holdsEngine (.inference next)) := by
  cases moved with
  | lock modelId free => exact .taken
  | notLoaded modelId => exact .dropped
  | generated modelId text => exact .dropped
  | notGenerated modelId => exact .dropped
  | loadPanicked modelId => exact unwound_turn thread _ _ _
  | generatePanicked modelId => exact unwound_turn thread _ _ _
  | _ => exact .kept fun on => on

theorem mine_miners {device : Nat} {place next : WorkerPlace}
    (moved : MineTurn thread device process place answer after next) :
    LockTurn thread process.minersLock.holder after.minersLock.holder
      (holdsMiners (.worker device place)) (holdsMiners (.worker device next)) := by
  cases moved with
  | took free sane miner installed => exact .taken
  | mined miner => exact .dropped
  | failed miner => exact .dropped
  | panicked miner => exact unwound_turn thread _ _ _
  | _ => exact .kept fun on => on

theorem install_build {device : Nat} {place next : WorkerPlace}
    (moved : InstallTurn thread device process place answer after next) :
    LockTurn thread process.buildLock.holder after.buildLock.holder
      (building (.worker device place)) (building (.worker device next)) := by
  cases moved with
  | lock modelId daa free =>
      dsimp only
      split
      · exact .kept fun _ => rfl
      · exact .taken
  | unlock modelId ready =>
      dsimp only
      split
      · exact .dropped
      · rename_i apart
        exact fun _ => ⟨fun own => absurd own apart, fun _ _ theirs => theirs⟩
  | buildPanicked modelId tier => exact unwound_turn thread _ _ _
  | ensure daa free => exact .kept fun on => by cases on
  | tier daa modelId chosen => exact .kept fun on => by cases on
  | guard miner index present => exact .kept fun on => by cases on
  | _ => exact .kept fun on => on

theorem turn_locks {place next : Place}
    (turned : turn thread process place answer = some (after, next)) :
    LockTurn thread process.engineLock.holder after.engineLock.holder (holdsEngine place)
        (holdsEngine next) ∧
      LockTurn thread process.minersLock.holder after.minersLock.holder (holdsMiners place)
        (holdsMiners next) ∧
      LockTurn thread process.buildLock.holder after.buildLock.holder (building place)
        (building next) := by
  cases Turn.of turned with
  | advance moved =>
      obtain ⟨engine, miners, build, -⟩ := advance_leaves moved
      exact ⟨.same (engine ▸ rfl) rfl, .same (miners ▸ rfl) rfl, .same (build ▸ rfl) rfl⟩
  | inference moved =>
      obtain ⟨miners, build, -⟩ := inference_leaves moved
      exact ⟨inference_engine moved, .same (miners ▸ rfl) rfl, .same (build ▸ rfl) rfl⟩
  | worker moved =>
      cases moved with
      | block daa => exact ⟨.same rfl rfl, .same rfl rfl, .same rfl rfl⟩
      | test daa free => exact ⟨.same rfl rfl, .same rfl rfl, .same rfl rfl⟩
      | mines mines =>
          obtain ⟨engine, build, -, -, -, unbuilt⟩ := mine_leaves mines
          exact ⟨.same (engine ▸ rfl) rfl, mine_miners mines, .same (build ▸ rfl) unbuilt⟩
      | installs installs =>
          obtain ⟨engine, miners, -, quiet⟩ := install_leaves installs
          exact ⟨.same (engine ▸ rfl) rfl, .same (miners ▸ rfl) quiet, install_build installs⟩

theorem engine_owns : Owns turn (fun process => process.engineLock.holder) holdsEngine :=
  fun _ _ _ _ _ _ turned => (turn_locks turned).1

theorem miners_owns : Owns turn (fun process => process.minersLock.holder) holdsMiners :=
  fun _ _ _ _ _ _ turned => (turn_locks turned).2.1

theorem build_owns : Owns turn (fun process => process.buildLock.holder) building :=
  fun _ _ _ _ _ _ turned => (turn_locks turned).2.2

/-! Runs. -/

def Reached (legacy v2 : List ModelId) (miningTier : Option ModelId)
    (events : List (Event Place Answer)) (pool : Pool Process Place) : Prop :=
  runFrom (poolStep turn starts) ⟨Process.started legacy v2 miningTier, []⟩ events = some pool

variable {legacy v2 : List ModelId} {miningTier : Option ModelId}
  {events : List (Event Place Answer)} {pool : Pool Process Place}

theorem Reached.later {later : List (Event Place Answer)} {last : Pool Process Place}
    (reached : Reached legacy v2 miningTier events pool)
    (ran : runFrom (poolStep turn starts) pool later = some last) :
    Reached legacy v2 miningTier (events ++ later) last := by
  rw [Reached, run_from_append, reached]
  exact ran

theorem reached_holds (reached : Reached legacy v2 miningTier events pool) :
    Holds (Sound legacy v2) (Asserted legacy v2) pool := by
  refine residency_proven.run ⟨⟨rfl, .inl rfl, ?_, ?_⟩, ?_⟩ reached
  · intro engine none
    cases none
  · intro device miner none
    cases none
  · intro thread place none
    cases none

theorem owned_first {lock : Process → Option Nat} {holds : Place → Bool}
    (free : lock (Process.started legacy v2 miningTier) = none) :
    Owned lock holds ⟨Process.started legacy v2 miningTier, []⟩ := by
  intro owner held
  cases free.symm.trans held

/-! The lineup. -/

/-- The score at which a call of `advance_lineup_if_due` has won the swap. -/
def wonAt : Place → Option UInt64
  | .advance (.write daa _) | .advance (.evict daa _) | .advance (.swapped daa _) => some daa
  | _ => none

def hasWon (place : Place) : Bool := (wonAt place).isSome

def sawFiles : Place → Bool
  | .advance (.swap _ _) | .advance (.write _ _) | .advance (.evict _ _)
  | .advance (.swapped _ _) => true
  | _ => false

def hasWritten : Place → Bool
  | .advance (.evict _ _) | .advance (.swapped _ _) => true
  | _ => false

theorem advance_counts {place next : AdvancePlace}
    (moved : AdvanceTurn process place answer after next) :
    after.v2Active.toNat + (hasWon (.advance place)).toNat =
      process.v2Active.toNat + (hasWon (.advance next)).toNat := by
  cases moved with
  | swap daa lineup =>
      change 1 + 0 = _
      cases process.v2Active
      · rfl
      · rfl
  | active daa =>
      split
      · rfl
      · rfl
  | lineup daa =>
      split
      · rfl
      · rfl
  | files daa lineup complete =>
      split
      · rfl
      · rfl
  | _ => rfl

theorem swaps_counted :
    Counts turn starts (fun process => process.v2Active.toNat) hasWon where
  start place start := by
    obtain ⟨daa, rfl⟩ | ⟨modelId, rfl⟩ | ⟨device, rfl⟩ := starts_cases start
    all_goals rfl
  step thread process place answer after next _ turned := by
    cases Turn.of turned with
    | advance moved => exact advance_counts moved
    | inference moved =>
        rw [(inference_leaves moved).2.2.1]
        rfl
    | worker moved =>
        cases moved with
        | block daa => rfl
        | test daa free => rfl
        | mines mines =>
            rw [(mine_leaves mines).2.2.1]
            rfl
        | installs installs =>
            rw [(install_leaves installs).2.2.1]
            rfl

theorem advance_saw {place next : AdvancePlace}
    (moved : AdvanceTurn process place answer after next)
    (seen : sawFiles (.advance next) = true) :
    sawFiles (.advance place) = true ∨ answer = .files true := by
  cases moved with
  | early daa before => cases seen
  | due daa late => cases seen
  | active daa =>
      split at seen
      · cases seen
      · cases seen
  | lineup daa =>
      split at seen
      · cases seen
      · cases seen
  | files daa lineup complete =>
      cases complete
      · cases seen
      · exact .inr rfl
  | swap daa lineup => exact .inl rfl
  | write daa lineup => exact .inl rfl
  | evict daa lineup free => exact .inl rfl

/-- A thread came inside with a turn of its own. -/
theorem reached_entered {inside : Place → Bool} {place : Place}
    (start : ∀ place, starts place = true → inside place = false)
    (reached : Reached legacy v2 miningTier events pool)
    (here : pool.threads[thread]? = some place) (within : inside place = true) :
    ∃ before label standing shared next,
      Entered turn starts inside ⟨Process.started legacy v2 miningTier, []⟩ events thread before
        label standing shared next := by
  obtain ⟨_, none, _⟩ | entered := run_entered start reached thread ⟨place, here, within⟩
  · cases none
  · exact entered

theorem files_seen {place : Place} (reached : Reached legacy v2 miningTier events pool)
    (here : pool.threads[thread]? = some place) (seen : sawFiles place = true) :
    .turn thread (.files true) ∈ events := by
  have start : ∀ place, starts place = true → sawFiles place = false := by
    intro place start
    obtain ⟨daa, rfl⟩ | ⟨modelId, rfl⟩ | ⟨device, rfl⟩ := starts_cases start
    all_goals rfl
  obtain ⟨before, label, standing, shared, next, ⟨first, second, rfl, -⟩, -, turned, outside,
    within⟩ := reached_entered start reached here seen
  cases Turn.of turned with
  | advance moved =>
      obtain inside | rfl := advance_saw moved within
      · cases outside.symm.trans inside
      · exact List.mem_append_right first (List.mem_cons_self ..)
  | inference moved => cases within
  | worker moved => cases within

theorem won_cases {place : Place} {daa : UInt64} (won : wonAt place = some daa) :
    ∃ lineup, place = .advance (.write daa lineup) ∨ place = .advance (.evict daa lineup) ∨
      place = .advance (.swapped daa lineup) := by
  cases place with
  | advance place =>
      cases place with
      | write daa lineup =>
          cases won
          exact ⟨lineup, .inl rfl⟩
      | evict daa lineup =>
          cases won
          exact ⟨lineup, .inr (.inl rfl)⟩
      | swapped daa lineup =>
          cases won
          exact ⟨lineup, .inr (.inr rfl)⟩
      | _ => cases won
  | inference place => cases won
  | worker device place => cases won

/-- Of all calls ever made exactly one wins the swap once the lineup is swapped and none before.
It was made at or after the activation with a staged lineup whose files it saw; until it writes
the old lineup is served, and after that only the new one. -/
theorem lineup_swapped_once (reached : Reached legacy v2 miningTier events pool) :
    pool.threads.countP hasWon = pool.shared.v2Active.toNat ∧
      (∀ (thread : Nat) place daa, pool.threads[thread]? = some place → wonAt place = some daa →
        opoiV2ActivationDaa ≤ daa ∧ v2 ≠ [] ∧ .turn thread (.files true) ∈ events) ∧
      (pool.shared.supportedSpecs = legacy ∨
        pool.shared.v2Active = true ∧ pool.shared.supportedSpecs = v2) ∧
      ∀ (thread : Nat) place, pool.threads[thread]? = some place → hasWritten place = true →
        pool.shared.supportedSpecs = v2 := by
  obtain ⟨sound, every⟩ := reached_holds reached
  have none : Counted (fun process : Process => process.v2Active.toNat) hasWon
      ⟨Process.started legacy v2 miningTier, []⟩ := rfl
  refine ⟨(swaps_counted.run none reached).symm, ?_, sound.served, ?_⟩
  · intro thread place daa here won
    obtain ⟨lineup, rfl | rfl | rfl⟩ := won_cases won
    all_goals
      obtain ⟨⟨due, rfl, present⟩, -⟩ := (every thread _ here).facts
      exact ⟨due, present, files_seen reached here rfl⟩
  · intro thread place here written
    have facts := (every thread place here).facts
    cases place with
    | advance place =>
        cases place with
        | evict daa lineup => exact facts.2.2
        | swapped daa lineup => exact facts.2.2
        | _ => cases written
    | inference place => cases written
    | worker device place => cases written

/-- Two calls come to the swap together, and the second one first. -/
def racedRun : List (Event Place Answer) :=
  [.begin (.advance (.compare opoiV2ActivationDaa)),
    .begin (.advance (.compare (opoiV2ActivationDaa + 1))), .turn 0 .none, .turn 1 .none,
    .turn 0 .none, .turn 1 .none, .turn 0 .none, .turn 1 .none, .turn 0 (.files true),
    .turn 1 (.files true), .turn 1 .none, .turn 0 .none, .turn 1 .none]

theorem lineup_swapped_once_sample : ∃ pool, Reached [gemma34b] [qwen332b] none racedRun pool ∧
    pool.threads = [.advance .returned, .advance (.evict (opoiV2ActivationDaa + 1) [qwen332b])] ∧
    pool.threads.countP hasWon = 1 ∧ pool.shared.supportedSpecs = [qwen332b] := by
  obtain ⟨pool, reached, threads, active⟩ : ∃ pool,
      Reached [gemma34b] [qwen332b] none racedRun pool ∧
      pool.threads = [.advance .returned,
        .advance (.evict (opoiV2ActivationDaa + 1) [qwen332b])] ∧
      pool.shared.v2Active = true := ⟨_, rfl, rfl, rfl⟩
  obtain ⟨count, -, -, written⟩ := lineup_swapped_once reached
  rw [active] at count
  exact ⟨pool, reached, threads, count, written 1 _ (by rw [threads]; rfl) rfl⟩

/-! The engine. -/

def hasAnswered (modelId : ModelId) (text : String) : Place → Bool
  | .inference (.answered asked (some answer)) => decide (asked = modelId ∧ answer = text)
  | _ => false

theorem inference_answers {modelId : ModelId} {text : String} {place next : InferencePlace}
    (moved : InferenceTurn thread process place answer after next)
    (given : hasAnswered modelId text (.inference next) = true) :
    place = .generate modelId ∧ answer = .text text ∧ text ≠ "" := by
  cases moved with
  | generated asked answer =>
      split at given
      · cases given
      · rename_i present
        obtain ⟨rfl, rfl⟩ := of_decide_eq_true given
        exact ⟨rfl, rfl, present⟩
  | _ => cases given

/-- One thread at most is between taking and dropping the engine's lock, and the engine it
generates with has the model that was asked for, of one of the two lineups. A text that a call
answers was generated so, and is not empty. -/
theorem engine_exclusive (reached : Reached legacy v2 miningTier events pool) :
    (∀ (one other : Nat) first second, pool.threads[one]? = some first →
      pool.threads[other]? = some second → holdsEngine first = true →
      holdsEngine second = true → one = other) ∧
    (∀ (thread : Nat) modelId, pool.threads[thread]? = some (.inference (.generate modelId)) →
      ∃ engine, pool.shared.engine = some engine ∧ engine.modelId = modelId ∧
        Known legacy v2 modelId) ∧
    ∀ (thread : Nat) modelId text,
      pool.threads[thread]? = some (.inference (.answered modelId (some text))) →
      text ≠ "" ∧ ∃ first second before, events = first ++ .turn thread (.text text) :: second ∧
        Reached legacy v2 miningTier first before ∧
        before.threads[thread]? = some (.inference (.generate modelId)) ∧
        ∃ engine, before.shared.engine = some engine ∧ engine.modelId = modelId := by
  obtain ⟨sound, every⟩ := reached_holds reached
  refine ⟨?_, ?_, ?_⟩
  · intro one other first second found standing mine theirs
    have held := (every one first found).engineLock mine
    exact Option.some.inj (held.symm.trans ((every other second standing).engineLock theirs))
  · intro thread modelId here
    obtain ⟨engine, resident, rfl⟩ := (every thread _ here).facts
    exact ⟨engine, resident, rfl, sound.engine engine resident⟩
  · intro thread modelId text here
    have start : ∀ place, starts place = true → hasAnswered modelId text place = false := by
      intro place start
      obtain ⟨daa, rfl⟩ | ⟨modelId, rfl⟩ | ⟨device, rfl⟩ := starts_cases start
      all_goals rfl
    obtain ⟨before, label, standing, shared, next, ⟨first, second, same, ran⟩, was, turned, -,
      within⟩ := reached_entered start reached here (decide_eq_true ⟨rfl, rfl⟩)
    cases Turn.of turned with
    | advance moved => cases within
    | inference moved =>
        obtain ⟨rfl, rfl, present⟩ := inference_answers moved within
        exact ⟨present, first, second, before, same, ran, was,
          ((reached_holds ran).2 thread _ was).facts⟩
    | worker moved => cases within

def answeredRun : List (Event Place Answer) :=
  [.begin (.inference (.find gemma34b)), .begin (.inference (.find gemma34b)), .turn 0 .none,
    .turn 1 .none, .turn 0 .none, .turn 0 .none, .turn 0 .none, .turn 0 (.engine true),
    .turn 0 (.text "four"), .turn 1 .none, .turn 1 .none]

theorem engine_exclusive_sample : ∃ pool, Reached [gemma34b] [] none answeredRun pool ∧
    pool.threads[0]? = some (.inference (.answered gemma34b (some "four"))) ∧
    ∃ engine, pool.shared.engine = some engine ∧ engine.modelId = gemma34b ∧
      Known [gemma34b] [] gemma34b := by
  obtain ⟨pool, reached, first, second⟩ : ∃ pool, Reached [gemma34b] [] none answeredRun pool ∧
      pool.threads[0]? = some (.inference (.answered gemma34b (some "four"))) ∧
      pool.threads[1]? = some (.inference (.generate gemma34b)) := ⟨_, rfl, rfl, rfl⟩
  exact ⟨pool, reached, first, (engine_exclusive reached).2.1 1 gemma34b second⟩

/-! A poisoned engine. -/

theorem install_index {device : Nat} {place next : WorkerPlace} {index : WeightIndex}
    (moved : InstallTurn thread device process place answer after next)
    (present : process.pomIndex = some index) : after.pomIndex = some index := by
  cases moved with
  | set modelId built =>
      change process.pomIndex.or (some built) = some index
      rw [present]
      rfl
  | _ => exact present

theorem index_kept {place next : Place} {index : WeightIndex}
    (turned : turn thread process place answer = some (after, next))
    (present : process.pomIndex = some index) : after.pomIndex = some index := by
  cases Turn.of turned with
  | advance moved => rwa [(advance_leaves moved).2.2.2.2]
  | inference moved => rwa [(inference_leaves moved).2.2.2.2]
  | worker moved =>
      cases moved with
      | block daa => exact present
      | test daa free => exact present
      | mines mines => rwa [(mine_leaves mines).2.2.2.2.1]
      | installs installs => exact install_index installs present

/-- Every miner that is installed or computes a batch gathers what the index has, now and in every
later state, whatever else is loaded; one batch at most is computed at a time. While no build has
panicked, one thread at most builds, and no index is there yet. -/
theorem miners_match_index {later : List (Event Place Answer)} {last : Pool Process Place}
    (reached : Reached legacy v2 miningTier events pool)
    (ran : runFrom (poolStep turn starts) pool later = some last) :
    (∀ index, pool.shared.pomIndex = some index → last.shared.pomIndex = some index) ∧
    (∀ device miner, pool.shared.miners device = some miner →
      ∃ index, last.shared.pomIndex = some index ∧ miner.nChunks = index.nChunks) ∧
    (∀ (thread : Nat) device miner,
      pool.threads[thread]? = some (.worker device (.batch miner)) →
      ∃ index, last.shared.pomIndex = some index ∧ miner.nChunks = index.nChunks) ∧
    (∀ (one other : Nat) first second, pool.threads[one]? = some first →
      pool.threads[other]? = some second → holdsMiners first = true →
      holdsMiners second = true → one = other) ∧
    (pool.shared.buildLock.poisoned = false →
      (∀ (one other : Nat) first second, pool.threads[one]? = some first →
        pool.threads[other]? = some second → building first = true →
        building second = true → one = other) ∧
      ∀ (thread : Nat) device modelId tier,
        pool.threads[thread]? = some (.worker device (.build modelId tier)) →
        pool.shared.pomIndex = none) := by
  obtain ⟨sound, every⟩ := reached_holds reached
  have kept : ∀ index, pool.shared.pomIndex = some index → last.shared.pomIndex = some index :=
    fun index present => run_keeps (fun process => process.pomIndex = some index)
      (fun _ _ _ _ _ _ turned present => index_kept turned present) present ran
  refine ⟨kept, fun device miner installed => (sound.miners device miner installed).kept kept,
    fun thread device miner here => (every thread _ here).facts.kept kept, ?_, fun sane =>
      ⟨?_, fun thread device modelId tier here => (every thread _ here).facts sane⟩⟩
  · intro one other first second found standing mine theirs
    have held := (every one first found).minersLock mine
    exact Option.some.inj (held.symm.trans ((every other second standing).minersLock theirs))
  · intro one other first second found standing mine theirs
    have held := (every one first found).buildLock mine sane
    exact Option.some.inj (held.symm.trans ((every other second standing).buildLock theirs sane))

def minedRun : List (Event Place Answer) :=
  [.begin (.worker 0 .idle), .turn 0 (.block opoiV2ActivationDaa), .turn 0 .none, .turn 0 .none,
    .turn 0 .none, .turn 0 .none, .turn 0 .none, .turn 0 .none, .turn 0 (.built 64), .turn 0 .none,
    .turn 0 .none, .turn 0 .none, .turn 0 (.miner 64), .turn 0 .none, .turn 0 .none, .turn 0 .none]

theorem miners_match_index_sample : ∃ pool last,
    Reached [] [] (some gemma34b) minedRun pool ∧
    runFrom (poolStep turn starts) pool [.turn 0 .none] = some last ∧
    pool.shared.miners 0 = some ⟨64, false⟩ ∧
    ∃ index, last.shared.pomIndex = some index ∧ 64 = index.nChunks := by
  obtain ⟨pool, last, reached, ran, installed⟩ : ∃ pool last,
      Reached [] [] (some gemma34b) minedRun pool ∧
      runFrom (poolStep turn starts) pool [.turn 0 .none] = some last ∧
      pool.shared.miners 0 = some ⟨64, false⟩ := ⟨_, _, rfl, rfl, rfl⟩
  exact ⟨pool, last, reached, ran, installed, (miners_match_index reached ran).2.1 0 _ installed⟩

/-! The count of the miners that load. -/

/-- Between adding to the count and taking from it, or dead there. -/
def isCounted : Place → Bool
  | .worker _ (.tier _) | .worker _ (.lock _ _) | .worker _ (.recheck _ _)
  | .worker _ (.build _ _) | .worker _ (.set _ _) | .worker _ (.unlock _ _)
  | .worker _ (.share _) | .worker _ (.load _) | .worker _ (.guard _) | .worker _ (.install _)
  | .worker _ .uncount | .worker _ (.dead true) => true
  | _ => false

theorem install_counts {device : Nat} {place next : WorkerPlace}
    (moved : InstallTurn thread device process place answer after next)
    (present : (isCounted (.worker device place)).toNat ≤ process.loading) :
    after.loading + (isCounted (.worker device place)).toNat =
      process.loading + (isCounted (.worker device next)).toNat := by
  cases moved with
  | uncount => exact Nat.sub_add_cancel present
  | ensure daa free =>
      split
      · rfl
      · rfl
  | tier daa modelId chosen =>
      split
      · rfl
      · rfl
  | unlock modelId ready =>
      cases ready
      · rfl
      · rfl
  | guard miner index present =>
      split
      · rfl
      · rfl
  | _ => rfl

theorem mine_uncounted {device : Nat} {place next : WorkerPlace}
    (moved : MineTurn thread device process place answer after next) :
    isCounted (.worker device place) = false ∧ isCounted (.worker device next) = false := by
  cases moved <;> exact ⟨rfl, rfl⟩

theorem worker_counts {device : Nat} {place next : WorkerPlace}
    (moved : WorkerTurn thread device process place answer after next)
    (present : (isCounted (.worker device place)).toNat ≤ process.loading) :
    after.loading + (isCounted (.worker device place)).toNat =
      process.loading + (isCounted (.worker device next)).toNat := by
  cases moved with
  | block daa => rfl
  | test daa free =>
      split
      · rfl
      · rfl
  | mines mines =>
      rw [(mine_leaves mines).2.2.2.1, (mine_uncounted mines).1, (mine_uncounted mines).2]
  | installs installs => exact install_counts installs present

theorem loading_counted : Counts turn starts (fun process => process.loading) isCounted where
  start place start := by
    obtain ⟨daa, rfl⟩ | ⟨modelId, rfl⟩ | ⟨device, rfl⟩ := starts_cases start
    all_goals rfl
  step thread process place answer after next present turned := by
    cases Turn.of turned with
    | advance moved =>
        rw [(advance_leaves moved).2.2.2.1]
        rfl
    | inference moved =>
        rw [(inference_leaves moved).2.2.2.1]
        rfl
    | worker moved => exact worker_counts moved present

theorem reached_counted (reached : Reached legacy v2 miningTier events pool) :
    pool.shared.loading = pool.threads.countP isCounted := by
  have none : Counted (fun process : Process => process.loading) isCounted
      ⟨Process.started legacy v2 miningTier, []⟩ := rfl
  exact loading_counted.run none reached

theorem reached_loading (reached : Reached legacy v2 miningTier events pool) :
    isLoading pool.shared = true ↔
      ∃ (thread : Nat) (place : Place), pool.threads[thread]? = some place ∧
        isCounted place = true := by
  rw [isLoading, reached_counted reached, decide_eq_true_iff, List.countP_pos_iff]
  constructor
  · rintro ⟨place, member, within⟩
    obtain ⟨thread, here⟩ := List.mem_iff_getElem?.mp member
    exact ⟨thread, place, here, within⟩
  · rintro ⟨thread, place, here, within⟩
    exact ⟨place, List.mem_of_getElem? here, within⟩

/-- `is_loading` answers whether a worker is between adding to the count and taking from it, or
panicked there; after such a panic it answers so forever. -/
theorem loading_counts_workers {later : List (Event Place Answer)} {last : Pool Process Place}
    (reached : Reached legacy v2 miningTier events pool)
    (ran : runFrom (poolStep turn starts) pool later = some last) :
    pool.shared.loading = pool.threads.countP isCounted ∧
    (isLoading pool.shared = true ↔
      ∃ (thread : Nat) (place : Place), pool.threads[thread]? = some place ∧
        isCounted place = true) ∧
    ∀ (thread : Nat) device, pool.threads[thread]? = some (.worker device (.dead true)) →
      isLoading last.shared = true := by
  refine ⟨reached_counted reached, reached_loading reached, fun thread device here => ?_⟩
  have stays := run_stays (fun _ _ => rfl) here ran
  exact (reached_loading (reached.later ran)).mpr ⟨thread, _, stays, rfl⟩

def crashedRun : List (Event Place Answer) :=
  [.begin (.worker 0 .idle), .turn 0 (.block opoiV2ActivationDaa), .turn 0 .none, .turn 0 .none,
    .turn 0 .none, .turn 0 .none, .turn 0 .none, .turn 0 .none, .turn 0 .panicked]

theorem loading_counts_workers_sample : ∃ pool last,
    Reached [] [] (some gemma34b) crashedRun pool ∧
    runFrom (poolStep turn starts) pool [.begin (.worker 0 .idle)] = some last ∧
    isLoading last.shared = true := by
  obtain ⟨pool, last, reached, ran, dead⟩ : ∃ pool last,
      Reached [] [] (some gemma34b) crashedRun pool ∧
      runFrom (poolStep turn starts) pool [.begin (.worker 0 .idle)] = some last ∧
      pool.threads[0]? = some (.worker 0 (.dead true)) := ⟨_, _, rfl, rfl, rfl⟩
  exact ⟨pool, last, reached, ran, (loading_counts_workers reached ran).2.2 0 0 dead⟩

end KeryxMiner.ResidencySafety
