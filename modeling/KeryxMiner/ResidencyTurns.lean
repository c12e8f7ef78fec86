import KeryxMiner.ModelResidency

/-!
The arms of the turns of `ModelResidency` by name, each with what it found.
-/

namespace KeryxMiner.ResidencyTurns

open ModelResidency

inductive AdvanceTurn (process : Process) : AdvancePlace → Answer → Process → AdvancePlace → Prop
  | early (daa : UInt64) (before : daa < opoiV2ActivationDaa) :
      AdvanceTurn process (.compare daa) .none { process with seenPreH := true } .returned
  | due (daa : UInt64) (late : ¬ daa < opoiV2ActivationDaa) :
      AdvanceTurn process (.compare daa) .none process (.active daa)
  | active (daa : UInt64) :
      AdvanceTurn process (.active daa) .none process
        (if process.v2Active then .returned else .lineup daa)
  | lineup (daa : UInt64) :
      AdvanceTurn process (.lineup daa) .none process
        (if process.lineupV2 = [] then .returned else .files daa process.lineupV2)
  | files (daa : UInt64) (v2 : List ModelId) (complete : Bool) :
      AdvanceTurn process (.files daa v2) (.files complete) process
        (if complete then .swap daa v2 else .returned)
  | swap (daa : UInt64) (v2 : List ModelId) :
      AdvanceTurn process (.swap daa v2) .none { process with v2Active := true }
        (if process.v2Active then .returned else .write daa v2)
  | write (daa : UInt64) (v2 : List ModelId) :
      AdvanceTurn process (.write daa v2) .none { process with supportedSpecs := v2 }
        (.evict daa v2)
  | evict (daa : UInt64) (v2 : List ModelId) (free : process.engineLock.free = true) :
      AdvanceTurn process (.evict daa v2) .none { process with engine := none } (.swapped daa v2)

variable {process after : Process} {thread device : Nat} {answer : Answer}

theorem AdvanceTurn.of {place next : AdvancePlace}
    (turned : advanceLineupIfDue process place answer = some (after, next)) :
    AdvanceTurn process place answer after next := by
  revert turned
  fun_cases advanceLineupIfDue process place answer <;> intro turned <;> cases turned
  all_goals constructor <;> assumption

inductive InferenceTurn (thread : Nat) (process : Process) :
    InferencePlace → Answer → Process → InferencePlace → Prop
  | served (modelId : ModelId) (member : modelId ∈ process.supportedSpecs) :
      InferenceTurn thread process (.find modelId) .none process (.lock modelId)
  | unserved (modelId : ModelId) (missing : modelId ∉ process.supportedSpecs) :
      InferenceTurn thread process (.find modelId) .none process (.answered modelId none)
  | lock (modelId : ModelId) (free : process.engineLock.free = true) :
      InferenceTurn thread process (.lock modelId) .none { process with
        engine := if process.engineLock.poisoned then none else process.engine
        engineLock := process.engineLock.taken thread } (.check modelId)
  | resident (engine : SlmEngine) (present : process.engine = some engine) :
      InferenceTurn thread process (.check engine.modelId) .none process (.generate engine.modelId)
  | replaced (modelId : ModelId) (engine : SlmEngine) (present : process.engine = some engine)
      (other : ¬ engine.modelId = modelId) :
      InferenceTurn thread process (.check modelId) .none process (.uninstall modelId)
  | absent (modelId : ModelId) (absent : process.engine = none) :
      InferenceTurn thread process (.check modelId) .none process (.uninstall modelId)
  | uninstall (modelId : ModelId) (free : process.minersLock.free = true) :
      InferenceTurn thread process (.uninstall modelId) .none { process with
        miners := if process.minersLock.poisoned then process.miners
          else fun device => if device = 0 then none else process.miners device
        engine := none } (.load modelId)
  | loaded (modelId : ModelId) (split : Bool) :
      InferenceTurn thread process (.load modelId) (.engine split)
        { process with engine := some ⟨modelId, split⟩ } (.generate modelId)
  | notLoaded (modelId : ModelId) :
      InferenceTurn thread process (.load modelId) .failed
        { process with engineLock := process.engineLock.dropped } (.answered modelId none)
  | loadPanicked (modelId : ModelId) :
      InferenceTurn thread process (.load modelId) .panicked
        { process with engineLock := process.engineLock.unwound thread } (.recover modelId)
  | generatePanicked (modelId : ModelId) :
      InferenceTurn thread process (.generate modelId) .panicked
        { process with engineLock := process.engineLock.unwound thread } (.recover modelId)
  | generated (modelId : ModelId) (text : String) :
      InferenceTurn thread process (.generate modelId) (.text text)
        { process with engineLock := process.engineLock.dropped }
        (.answered modelId (if text = "" then none else some text))
  | notGenerated (modelId : ModelId) :
      InferenceTurn thread process (.generate modelId) .failed
        { process with engine := none, engineLock := process.engineLock.dropped }
        (.answered modelId none)
  | recover (modelId : ModelId) (free : process.engineLock.free = true) :
      InferenceTurn thread process (.recover modelId) .none
        { process with
          engine := if process.engineLock.poisoned then process.engine else none }
        (.answered modelId none)

theorem InferenceTurn.of {place next : InferencePlace}
    (turned : loadAndRunInference thread process place answer = some (after, next)) :
    InferenceTurn thread process place answer after next := by
  revert turned
  fun_cases loadAndRunInference thread process place answer <;> intro turned <;> cases turned
  all_goals first
    | exact .absent _ ‹process.engine = none›
    | constructor <;> assumption

inductive InstallTurn (thread device : Nat) (process : Process) :
    WorkerPlace → Answer → Process → WorkerPlace → Prop
  | ensure (daa : UInt64) (free : process.minersLock.free = true) :
      InstallTurn thread device process (.ensure daa) .none process
        (if isInstalled process device then .mine else .count daa)
  | count (daa : UInt64) :
      InstallTurn thread device process (.count daa) .none
        { process with loading := process.loading + 1 } (.tier daa)
  | tierless (daa : UInt64) (absent : process.miningTier = none) :
      InstallTurn thread device process (.tier daa) .none process .uncount
  | tier (daa : UInt64) (modelId : ModelId) (present : process.miningTier = some modelId) :
      InstallTurn thread device process (.tier daa) .none process
        (if process.pomIndex.isNone then .lock modelId daa else .share modelId)
  | lock (modelId : ModelId) (daa : UInt64) (free : process.buildLock.free = true) :
      InstallTurn thread device process (.lock modelId daa) .none
        { process with
          buildLock := if process.buildLock.poisoned then process.buildLock
            else process.buildLock.taken thread }
        (.recheck modelId daa)
  | needed (modelId : ModelId) (daa : UInt64) (tier : UInt8)
      (absent : process.pomIndex.isNone = true) (known : pomTierIndex modelId daa = some tier) :
      InstallTurn thread device process (.recheck modelId daa) .none process (.build modelId tier)
  | unknown (modelId : ModelId) (daa : UInt64) (absent : process.pomIndex.isNone = true)
      (unknown : pomTierIndex modelId daa = none) :
      InstallTurn thread device process (.recheck modelId daa) .none process
        (.unlock modelId false)
  | present (modelId : ModelId) (daa : UInt64) (present : ¬ process.pomIndex.isNone = true) :
      InstallTurn thread device process (.recheck modelId daa) .none process
        (.unlock modelId true)
  | built (modelId : ModelId) (tier : UInt8) (nChunks : Nat) :
      InstallTurn thread device process (.build modelId tier) (.built nChunks) process
        (.set modelId ⟨nChunks, tier⟩)
  | notBuilt (modelId : ModelId) (tier : UInt8) :
      InstallTurn thread device process (.build modelId tier) .failed process
        (.unlock modelId false)
  | buildPanicked (modelId : ModelId) (tier : UInt8) :
      InstallTurn thread device process (.build modelId tier) .panicked
        { process with buildLock := process.buildLock.unwound thread } (.dead true)
  | set (modelId : ModelId) (index : WeightIndex) :
      InstallTurn thread device process (.set modelId index) .none
        { process with pomIndex := process.pomIndex.or (some index) } (.unlock modelId true)
  | unlock (modelId : ModelId) (ready : Bool) :
      InstallTurn thread device process (.unlock modelId ready) .none
        { process with
          buildLock := if process.buildLock.holder = some thread then process.buildLock.dropped
            else process.buildLock }
        (if ready then .share modelId else .uncount)
  | share (modelId : ModelId) (free : process.engineLock.free = true) :
      InstallTurn thread device process (.share modelId) .none process
        (.load (pomShared process device modelId))
  | loaded (shared : Bool) (nChunks : Nat) :
      InstallTurn thread device process (.load shared) (.miner nChunks) process
        (.guard ⟨nChunks, shared⟩)
  | notLoaded (shared : Bool) :
      InstallTurn thread device process (.load shared) .failed process .uncount
  | loadPanicked (shared : Bool) :
      InstallTurn thread device process (.load shared) .panicked process (.dead true)
  | guard (miner : PomGpuMiner) (index : WeightIndex) (present : process.pomIndex = some index) :
      InstallTurn thread device process (.guard miner) .none process
        (if miner.nChunks = index.nChunks then .install miner else .uncount)
  | unguarded (miner : PomGpuMiner) (absent : process.pomIndex = none) :
      InstallTurn thread device process (.guard miner) .none process (.install miner)
  | install (miner : PomGpuMiner) (free : process.minersLock.free = true) :
      InstallTurn thread device process (.install miner) .none
        { process with
          miners := if process.minersLock.poisoned then process.miners
            else fun other => if other = device then some miner else process.miners other }
        .uncount
  | uncount :
      InstallTurn thread device process .uncount .none
        { process with loading := process.loading - 1 } .mine

theorem InstallTurn.of {place next : WorkerPlace}
    (turned : ensureInstalled thread device process place answer = some (after, next)) :
    InstallTurn thread device process place answer after next := by
  revert turned
  fun_cases ensureInstalled thread device process place answer <;> intro turned <;> cases turned
  all_goals constructor <;> assumption

inductive MineTurn (thread device : Nat) (process : Process) :
    WorkerPlace → Answer → Process → WorkerPlace → Prop
  | poisoned (free : process.minersLock.free = true) (poison : process.minersLock.poisoned = true) :
      MineTurn thread device process .mine .none process .idle
  | took (free : process.minersLock.free = true) (sane : ¬ process.minersLock.poisoned = true)
      (miner : PomGpuMiner) (installed : process.miners device = some miner) :
      MineTurn thread device process .mine .none
        { process with minersLock := process.minersLock.taken thread } (.batch miner)
  | missing (free : process.minersLock.free = true) (sane : ¬ process.minersLock.poisoned = true)
      (missing : process.miners device = none) :
      MineTurn thread device process .mine .none process .idle
  | mined (miner : PomGpuMiner) :
      MineTurn thread device process (.batch miner) .none
        { process with minersLock := process.minersLock.dropped } .idle
  | failed (miner : PomGpuMiner) :
      MineTurn thread device process (.batch miner) .failed
        { process with minersLock := process.minersLock.dropped } .idle
  | panicked (miner : PomGpuMiner) :
      MineTurn thread device process (.batch miner) .panicked
        { process with minersLock := process.minersLock.unwound thread } (.dead false)

theorem MineTurn.of {place next : WorkerPlace}
    (turned : mine thread device process place answer = some (after, next)) :
    MineTurn thread device process place answer after next := by
  revert turned
  fun_cases mine thread device process place answer <;> intro turned <;> cases turned
  all_goals first
    | exact .missing ‹_› ‹_› ‹_›
    | constructor <;> assumption

/-- A turn of a worker is one of its loop, of `mine` or of `ensure_installed`. -/
inductive WorkerTurn (thread device : Nat) (process : Process) :
    WorkerPlace → Answer → Process → WorkerPlace → Prop
  | block (daa : UInt64) :
      WorkerTurn thread device process .idle (.block daa) process (.test daa)
  | test (daa : UInt64) (free : process.minersLock.free = true) :
      WorkerTurn thread device process (.test daa) .none process
        (if isInstalled process device then .mine else .ensure daa)
  | mines {place next : WorkerPlace} {answer : Answer} {after : Process}
      (mines : MineTurn thread device process place answer after next) :
      WorkerTurn thread device process place answer after next
  | installs {place next : WorkerPlace} {answer : Answer} {after : Process}
      (installs : InstallTurn thread device process place answer after next) :
      WorkerTurn thread device process place answer after next

theorem WorkerTurn.of {place next : WorkerPlace}
    (turned : workerTurn thread device process place answer = some (after, next)) :
    WorkerTurn thread device process place answer after next := by
  revert turned
  fun_cases workerTurn thread device process place answer <;> intro turned
  all_goals first
    | exact .mines (MineTurn.of turned)
    | exact .installs (InstallTurn.of turned)
    | (cases turned; constructor <;> assumption)

/-- A turn is one of `advance_lineup_if_due`, of `load_and_run_inference` or of a worker. -/
inductive Turn (thread : Nat) (process : Process) :
    Place → Answer → Process → Place → Prop
  | advance {place next : AdvancePlace} {answer : Answer} {after : Process}
      (moved : AdvanceTurn process place answer after next) :
      Turn thread process (.advance place) answer after (.advance next)
  | inference {place next : InferencePlace} {answer : Answer} {after : Process}
      (moved : InferenceTurn thread process place answer after next) :
      Turn thread process (.inference place) answer after (.inference next)
  | worker {device : Nat} {place next : WorkerPlace} {answer : Answer} {after : Process}
      (moved : WorkerTurn thread device process place answer after next) :
      Turn thread process (.worker device place) answer after (.worker device next)

theorem Turn.of {place next : Place}
    (turned : turn thread process place answer = some (after, next)) :
    Turn thread process place answer after next := by
  cases place with
  | advance place =>
      obtain ⟨⟨done, following⟩, moved, same⟩ := Option.map_eq_some_iff.mp turned
      cases same
      exact .advance (AdvanceTurn.of moved)
  | inference place =>
      obtain ⟨⟨done, following⟩, moved, same⟩ := Option.map_eq_some_iff.mp turned
      cases same
      exact .inference (InferenceTurn.of moved)
  | worker device place =>
      obtain ⟨⟨done, following⟩, moved, same⟩ := Option.map_eq_some_iff.mp turned
      cases same
      exact .worker (WorkerTurn.of moved)

end KeryxMiner.ResidencyTurns
