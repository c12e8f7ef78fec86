import KeryxMiner.ResidencyTurns

/-!
What holds in every interleaving of block templates, inferences and GPU workers. A thread relies on
what the others leave alone: the locks it holds, what these protect, and what is only ever set.
-/

namespace KeryxMiner.ResidencyRuns

open ModelResidency ResidencyTurns ThreadPool TransitionRuns

section Lineups
variable (legacy v2 : List ModelId)

/-- The model is of one of the two lineups. -/
def Known (modelId : ModelId) : Prop := modelId ∈ legacy ∨ modelId ∈ v2

/-- The miner gathers as many chunks as the index has. -/
def Matches (process : Process) (miner : PomGpuMiner) : Prop :=
  ∃ index, process.pomIndex = some index ∧ miner.nChunks = index.nChunks

structure Sound (process : Process) : Prop where
  lineup : process.lineupV2 = v2
  served : process.supportedSpecs = legacy ∨ process.v2Active = true ∧ process.supportedSpecs = v2
  engine : ∀ engine, process.engine = some engine → Known legacy v2 engine.modelId
  miners : ∀ device miner, process.miners device = some miner → Matches process miner

def holdsEngine : Place → Bool
  | .inference (.check _) | .inference (.uninstall _) | .inference (.load _)
  | .inference (.generate _) => true
  | _ => false

def holdsMiners : Place → Bool
  | .worker _ (.batch _) => true
  | _ => false

/-- Between taking and dropping the lock of the build, or what there is of it. -/
def building : Place → Bool
  | .worker _ (.recheck _ _) | .worker _ (.build _ _) | .worker _ (.set _ _)
  | .worker _ (.unlock _ _) => true
  | _ => false

/-- The call is past the activation score and has read the lineup. -/
def Due (daa : UInt64) (lineup : List ModelId) : Prop :=
  opoiV2ActivationDaa ≤ daa ∧ lineup = v2 ∧ lineup ≠ []

/-- What a thread knows where it is. -/
def Facts (process : Process) : Place → Prop
  | .advance (.active daa) | .advance (.lineup daa) => opoiV2ActivationDaa ≤ daa
  | .advance (.files daa lineup) | .advance (.swap daa lineup) => Due v2 daa lineup
  | .advance (.write daa lineup) => Due v2 daa lineup ∧ process.v2Active = true
  | .advance (.evict daa lineup) | .advance (.swapped daa lineup) =>
      Due v2 daa lineup ∧ process.v2Active = true ∧ process.supportedSpecs = v2
  | .inference (.lock modelId) | .inference (.uninstall modelId) | .inference (.load modelId) =>
      Known legacy v2 modelId
  | .inference (.check modelId) =>
      Known legacy v2 modelId ∧ (process.engineLock.poisoned = true → process.engine = none)
  | .inference (.generate modelId) =>
      ∃ engine, process.engine = some engine ∧ engine.modelId = modelId
  | .worker _ (.build _ _) | .worker _ (.set _ _) =>
      process.buildLock.poisoned = false → process.pomIndex = none
  | .worker _ (.unlock _ true) | .worker _ (.share _) | .worker _ (.load _)
  | .worker _ (.guard _) => process.pomIndex ≠ none
  | .worker _ (.install miner) | .worker _ (.batch miner) => Matches process miner
  | _ => True

structure Asserted (process : Process) (thread : Nat) (place : Place) : Prop where
  engineLock : holdsEngine place = true → process.engineLock.holder = some thread
  minersLock : holdsMiners place = true → process.minersLock.holder = some thread
  buildLock : building place = true → process.buildLock.poisoned = false →
    process.buildLock.holder = some thread
  facts : Facts legacy v2 process place

/-- What the turn of another thread leaves alone. -/
structure Relies (bystander : Nat) (process after : Process) : Prop where
  engineHeld : process.engineLock.holder = some bystander →
    after.engineLock = process.engineLock ∧ after.engine = process.engine
  minersHeld : process.minersLock.holder = some bystander →
    after.minersLock.holder = some bystander
  buildHeld : process.buildLock.holder = some bystander →
    after.buildLock.holder = some bystander ∧
      (after.buildLock.poisoned = false → after.pomIndex = process.pomIndex)
  poisoned : process.buildLock.poisoned = true → after.buildLock.poisoned = true
  index : ∀ index, process.pomIndex = some index → after.pomIndex = some index
  active : process.v2Active = true → after.v2Active = true
  served : process.supportedSpecs = v2 → after.supportedSpecs = v2

theorem Relies.refl (bystander : Nat) (process : Process) :
    Relies v2 bystander process process where
  engineHeld _ := ⟨rfl, rfl⟩
  minersHeld held := held
  buildHeld held := ⟨held, fun _ => rfl⟩
  poisoned poison := poison
  index _ same := same
  active active := active
  served served := served

/-- What a turn is to do. -/
structure Keeps (process after : Process) (thread : Nat) (next : Place) : Prop where
  sound : Sound legacy v2 after
  asserted : Asserted legacy v2 after thread next
  relies : ∀ bystander, bystander ≠ thread → Relies v2 bystander process after

variable {legacy v2} {process after : Process} {thread : Nat} {answer : Answer}

theorem Asserted.advance {place : AdvancePlace} (facts : Facts legacy v2 process (.advance place)) :
    Asserted legacy v2 process thread (.advance place) where
  engineLock held := by cases held
  minersLock held := by cases held
  buildLock held := by cases held
  facts

/-- A free lock is held by nobody. -/
theorem free_apart {lock : Mutex} (free : lock.free = true) (bystander : Nat) :
    lock.holder ≠ some bystander := by
  intro held
  rw [Mutex.free, held] at free
  cases free

theorem advance_own {place next : AdvancePlace} (sound : Sound legacy v2 process)
    (asserted : Asserted legacy v2 process thread (.advance place))
    (moved : AdvanceTurn process place answer after next) :
    Keeps legacy v2 process after thread (.advance next) := by
  have facts := asserted.facts
  cases moved with
  | early daa before =>
      exact ⟨{ sound with }, .advance trivial, fun bystander _ =>
        { Relies.refl v2 bystander process with }⟩
  | due daa late => exact ⟨sound, .advance (UInt64.not_lt.mp late), fun _ _ => .refl v2 _ _⟩
  | active daa =>
      refine ⟨sound, .advance ?_, fun _ _ => .refl v2 _ _⟩
      split
      · trivial
      · exact facts
  | lineup daa =>
      refine ⟨sound, .advance ?_, fun _ _ => .refl v2 _ _⟩
      split
      · trivial
      · rename_i present
        exact ⟨facts, sound.lineup, present⟩
  | files daa lineup complete =>
      refine ⟨sound, .advance ?_, fun _ _ => .refl v2 _ _⟩
      split
      · exact facts
      · trivial
  | swap daa lineup =>
      refine ⟨{ sound with served := ?_ }, .advance ?_, fun bystander _ =>
        { Relies.refl v2 bystander process with active := fun _ => rfl }⟩
      · exact sound.served.imp_right fun served => ⟨rfl, served.2⟩
      · split
        · trivial
        · exact ⟨facts, rfl⟩
  | write daa lineup =>
      obtain ⟨⟨due, rfl, present⟩, active⟩ := facts
      exact ⟨{ sound with served := .inr ⟨active, rfl⟩ },
        .advance ⟨⟨due, rfl, present⟩, active, rfl⟩,
        fun bystander _ => { Relies.refl lineup bystander process with served := fun _ => rfl }⟩
  | evict daa lineup free =>
      refine ⟨{ sound with engine := fun _ none => by cases none }, .advance facts,
        fun bystander _ => { Relies.refl v2 bystander process with
          engineHeld := fun held => absurd held (free_apart free bystander) }⟩

/-- A lock that one thread holds is held by no other. -/
theorem held_apart {lock : Mutex} {bystander : Nat} (held : lock.holder = some thread)
    (other : bystander ≠ thread) : lock.holder ≠ some bystander := by
  intro same
  exact other (Option.some.inj (same.symm.trans held))

theorem Asserted.apart {place : InferencePlace}
    (outside : holdsEngine (.inference place) = false)
    (facts : Facts legacy v2 process (.inference place)) :
    Asserted legacy v2 process thread (.inference place) where
  engineLock held := absurd held (by simp [outside])
  minersLock held := by cases held
  buildLock held := by cases held
  facts

theorem Asserted.inside {place : InferencePlace}
    (held : process.engineLock.holder = some thread)
    (facts : Facts legacy v2 process (.inference place)) :
    Asserted legacy v2 process thread (.inference place) where
  engineLock _ := held
  minersLock held := by cases held
  buildLock held := by cases held
  facts

/-- What protects the engine is nothing to a thread without its lock. -/
theorem Relies.engine {bystander : Nat} (apart : process.engineLock.holder ≠ some bystander)
    (engine : Option SlmEngine) (lock : Mutex) :
    Relies v2 bystander process { process with engine := engine, engineLock := lock } :=
  { Relies.refl v2 bystander process with engineHeld := fun held => absurd held apart }

theorem inference_own {place next : InferencePlace} (sound : Sound legacy v2 process)
    (asserted : Asserted legacy v2 process thread (.inference place))
    (moved : InferenceTurn thread process place answer after next) :
    Keeps legacy v2 process after thread (.inference next) := by
  obtain ⟨held, -, -, facts⟩ := asserted
  cases moved with
  | served modelId member =>
      refine ⟨sound, .apart rfl ?_, fun _ _ => .refl v2 _ _⟩
      obtain same | ⟨-, same⟩ := sound.served <;> rw [same] at member
      · exact .inl member
      · exact .inr member
  | unserved modelId missing => exact ⟨sound, .apart rfl trivial, fun _ _ => .refl v2 _ _⟩
  | lock modelId free =>
      refine ⟨{ sound with engine := fun engine same => ?_ },
        .inside rfl ⟨facts, fun poison => if_pos poison⟩,
        fun bystander _ => .engine (free_apart free bystander) _ _⟩
      split at same
      · cases same
      · exact sound.engine engine same
  | resident engine present =>
      exact ⟨sound, .inside (held rfl) ⟨engine, present, rfl⟩, fun _ _ => .refl v2 _ _⟩
  | replaced modelId engine present other =>
      exact ⟨sound, .inside (held rfl) facts.1, fun _ _ => .refl v2 _ _⟩
  | absent modelId absent =>
      exact ⟨sound, .inside (held rfl) facts.1, fun _ _ => .refl v2 _ _⟩
  | uninstall modelId free =>
      refine ⟨{ sound with engine := (fun _ none => by cases none), miners := ?_ },
        .inside (held rfl) facts, fun bystander other => { Relies.refl v2 bystander process with
          engineHeld := fun same => absurd same (held_apart (held rfl) other) }⟩
      intro device miner installed
      apply sound.miners device miner
      dsimp only at installed
      split at installed
      · exact installed
      · dsimp only at installed
        split at installed
        · cases installed
        · exact installed
  | loaded modelId split =>
      refine ⟨{ sound with engine := ?_ }, .inside (held rfl) ⟨_, rfl, rfl⟩, fun bystander other =>
        .engine (held_apart (held rfl) other) _ process.engineLock⟩
      rintro engine ⟨⟩
      exact facts
  | notLoaded modelId =>
      exact ⟨{ sound with }, .apart rfl trivial, fun bystander other =>
        .engine (held_apart (held rfl) other) process.engine _⟩
  | loadPanicked modelId =>
      exact ⟨{ sound with }, .apart rfl trivial, fun bystander other =>
        .engine (held_apart (held rfl) other) process.engine _⟩
  | generatePanicked modelId =>
      exact ⟨{ sound with }, .apart rfl trivial, fun bystander other =>
        .engine (held_apart (held rfl) other) process.engine _⟩
  | generated modelId text =>
      exact ⟨{ sound with }, .apart rfl trivial, fun bystander other =>
        .engine (held_apart (held rfl) other) process.engine _⟩
  | notGenerated modelId =>
      exact ⟨{ sound with engine := fun _ none => by cases none }, .apart rfl trivial,
        fun bystander other => .engine (held_apart (held rfl) other) none _⟩
  | recover modelId free =>
      refine ⟨{ sound with engine := ?_ }, .apart rfl trivial, fun bystander other =>
        .engine (free_apart free bystander) _ process.engineLock⟩
      intro resident same
      dsimp only at same
      split at same
      · exact sound.engine resident same
      · cases same

/-- What is once set stays. -/
theorem Matches.kept {miner : PomGpuMiner} (matched : Matches process miner)
    (index : ∀ index, process.pomIndex = some index → after.pomIndex = some index) :
    Matches after miner :=
  matched.imp fun _ same => ⟨index _ same.1, same.2⟩

theorem present_kept (present : process.pomIndex ≠ none)
    (index : ∀ index, process.pomIndex = some index → after.pomIndex = some index) :
    after.pomIndex ≠ none := by
  obtain ⟨found, same⟩ := Option.ne_none_iff_exists'.mp present
  rw [index found same]
  exact Option.some_ne_none found

theorem Relies.sane {bystander : Nat} (relies : Relies v2 bystander process after)
    (sane : after.buildLock.poisoned = false) : process.buildLock.poisoned = false :=
  Bool.eq_false_iff.mpr fun poison => Bool.eq_false_iff.mp sane (relies.poisoned poison)

theorem Facts.other {place : Place} {bystander : Nat}
    (asserted : Asserted legacy v2 process bystander place)
    (relies : Relies v2 bystander process after) : Facts legacy v2 after place := by
  obtain ⟨engineLock, minersLock, buildLock, facts⟩ := asserted
  cases place with
  | advance place =>
      cases place with
      | write daa lineup => exact facts.imp_right relies.active
      | evict daa lineup => exact facts.imp_right (And.imp relies.active relies.served)
      | swapped daa lineup => exact facts.imp_right (And.imp relies.active relies.served)
      | _ => exact facts
  | inference place =>
      cases place with
      | check modelId =>
          obtain ⟨lock, engine⟩ := relies.engineHeld (engineLock rfl)
          rwa [Facts, lock, engine]
      | generate modelId => rwa [Facts, (relies.engineHeld (engineLock rfl)).2]
      | _ => exact facts
  | worker device place =>
      have building_kept (held : building (.worker device place) = true)
          (absent : process.buildLock.poisoned = false → process.pomIndex = none)
          (sane : after.buildLock.poisoned = false) : after.pomIndex = none := by
        have mine := buildLock held (relies.sane sane)
        rw [(relies.buildHeld mine).2 sane, absent (relies.sane sane)]
      cases place with
      | build modelId tier => exact building_kept rfl facts
      | set modelId index => exact building_kept rfl facts
      | unlock modelId ready =>
          cases ready with
          | false => trivial
          | true => exact present_kept facts relies.index
      | share modelId => exact present_kept facts relies.index
      | load shared => exact present_kept facts relies.index
      | guard miner => exact present_kept facts relies.index
      | install miner => exact facts.kept relies.index
      | batch miner => exact facts.kept relies.index
      | _ => trivial

theorem Asserted.other {place : Place} {bystander : Nat}
    (asserted : Asserted legacy v2 process bystander place)
    (relies : Relies v2 bystander process after) :
    Asserted legacy v2 after bystander place where
  engineLock held := (relies.engineHeld (asserted.engineLock held)).1 ▸ asserted.engineLock held
  minersLock held := relies.minersHeld (asserted.minersLock held)
  buildLock held sane := (relies.buildHeld (asserted.buildLock held (relies.sane sane))).1
  facts := Facts.other asserted relies

theorem Asserted.outside {device : Nat} {place : WorkerPlace}
    (apart : building (.worker device place) = false)
    (quiet : holdsMiners (.worker device place) = false)
    (facts : Facts legacy v2 process (.worker device place)) :
    Asserted legacy v2 process thread (.worker device place) where
  engineLock held := by cases held
  minersLock held := absurd held (by simp [quiet])
  buildLock held := absurd held (by simp [apart])
  facts

theorem Asserted.built {device : Nat} {place : WorkerPlace}
    (held : process.buildLock.poisoned = false → process.buildLock.holder = some thread)
    (quiet : holdsMiners (.worker device place) = false)
    (facts : Facts legacy v2 process (.worker device place)) :
    Asserted legacy v2 process thread (.worker device place) where
  engineLock held := by cases held
  minersLock held := absurd held (by simp [quiet])
  buildLock _ := held
  facts

/-- A lock unwinds or is dropped for its own thread only. -/
theorem unwound_other {lock : Mutex} {bystander : Nat} (held : lock.holder = some bystander)
    (other : bystander ≠ thread) : lock.unwound thread = lock := by
  rw [Mutex.unwound, if_neg]
  rw [held]
  exact fun same => other (Option.some.inj same)

theorem unwound_poisoned {lock : Mutex} (poison : lock.poisoned = true) :
    (lock.unwound thread).poisoned = true := by
  unfold Mutex.unwound
  split
  · rfl
  · exact poison

theorem install_own {device : Nat} {place next : WorkerPlace} (sound : Sound legacy v2 process)
    (asserted : Asserted legacy v2 process thread (.worker device place))
    (moved : InstallTurn thread device process place answer after next) :
    Keeps legacy v2 process after thread (.worker device next) := by
  obtain ⟨-, -, held, facts⟩ := asserted
  cases moved with
  | ensure daa free =>
      refine ⟨sound, ?_, fun _ _ => .refl v2 _ _⟩
      split
      · exact .outside rfl rfl trivial
      · exact .outside rfl rfl trivial
  | count daa =>
      exact ⟨{ sound with }, .outside rfl rfl trivial, fun bystander _ =>
        { Relies.refl v2 bystander process with }⟩
  | tierless daa absent => exact ⟨sound, .outside rfl rfl trivial, fun _ _ => .refl v2 _ _⟩
  | tier daa modelId chosen =>
      refine ⟨sound, ?_, fun _ _ => .refl v2 _ _⟩
      split
      · exact .outside rfl rfl trivial
      · rename_i present
        exact .outside rfl rfl (by simpa [Facts] using present)
  | lock modelId daa free =>
      refine ⟨{ sound with }, .built (fun sane => ?_) rfl trivial, fun bystander _ =>
        { Relies.refl v2 bystander process with
          buildHeld := fun same => absurd same (free_apart free bystander)
          poisoned := fun poison => ?_ }⟩
      · dsimp only at sane ⊢
        split at sane
        · rename_i poison
          exact absurd sane (by simp [poison])
        · rename_i whole
          rw [if_neg whole]
          rfl
      · simp only [poison, if_true]
  | needed modelId daa tier absent known =>
      exact ⟨sound, .built (held rfl) rfl fun _ => by simpa using absent, fun _ _ => .refl v2 _ _⟩
  | unknown modelId daa absent unknown =>
      exact ⟨sound, .built (held rfl) rfl trivial, fun _ _ => .refl v2 _ _⟩
  | present modelId daa present =>
      exact ⟨sound, .built (held rfl) rfl (by simpa [Facts] using present),
        fun _ _ => .refl v2 _ _⟩
  | built modelId tier nChunks =>
      exact ⟨sound, .built (held rfl) rfl facts, fun _ _ => .refl v2 _ _⟩
  | notBuilt modelId tier =>
      exact ⟨sound, .built (held rfl) rfl trivial, fun _ _ => .refl v2 _ _⟩
  | buildPanicked modelId tier =>
      refine ⟨{ sound with }, .outside rfl rfl trivial, fun bystander other =>
        { Relies.refl v2 bystander process with
          buildHeld := fun same => ?_
          poisoned := unwound_poisoned }⟩
      rw [unwound_other same other]
      exact ⟨same, fun _ => rfl⟩
  | set modelId index =>
      have first : ∀ found, process.pomIndex = some found →
          process.pomIndex.or (some index) = some found := by
        intro found same
        rw [same]
        rfl
      refine ⟨{ sound with
          miners := fun device miner installed => (sound.miners device miner installed).kept first },
        .built (held rfl) rfl ?_, fun bystander other =>
          { Relies.refl v2 bystander process with
            buildHeld := fun same => ⟨same, fun sane => ?_⟩
            index := first }⟩
      · change process.pomIndex.or (some index) ≠ none
        cases process.pomIndex <;> exact Option.some_ne_none _
      · exact absurd same (held_apart (held rfl sane) other)
  | unlock modelId ready =>
      refine ⟨{ sound with }, ?_, fun bystander other =>
        { Relies.refl v2 bystander process with
          buildHeld := fun same => ?_
          poisoned := fun poison => ?_ }⟩
      · cases ready
        · exact .outside rfl rfl trivial
        · exact .outside rfl rfl facts
      · rw [if_neg (held_apart same (Ne.symm other))]
        exact ⟨same, fun _ => rfl⟩
      · dsimp only
        split
        · exact poison
        · exact poison
  | share modelId free => exact ⟨sound, .outside rfl rfl facts, fun _ _ => .refl v2 _ _⟩
  | loaded shared nChunks => exact ⟨sound, .outside rfl rfl facts, fun _ _ => .refl v2 _ _⟩
  | notLoaded shared => exact ⟨sound, .outside rfl rfl trivial, fun _ _ => .refl v2 _ _⟩
  | loadPanicked shared => exact ⟨sound, .outside rfl rfl trivial, fun _ _ => .refl v2 _ _⟩
  | guard miner index present =>
      refine ⟨sound, ?_, fun _ _ => .refl v2 _ _⟩
      split
      · rename_i same
        exact .outside rfl rfl ⟨index, present, same⟩
      · exact .outside rfl rfl trivial
  | unguarded miner absent => exact absurd absent facts
  | install miner free =>
      refine ⟨{ sound with miners := ?_ }, .outside rfl rfl trivial, fun bystander _ =>
        { Relies.refl v2 bystander process with }⟩
      intro other installed same
      dsimp only at same
      split at same
      · exact sound.miners other installed same
      · dsimp only at same
        split at same
        · cases same
          exact facts
        · exact sound.miners other installed same
  | uncount =>
      exact ⟨{ sound with }, .outside rfl rfl trivial, fun bystander _ =>
        { Relies.refl v2 bystander process with }⟩

theorem mine_own {device : Nat} {place next : WorkerPlace} (sound : Sound legacy v2 process)
    (asserted : Asserted legacy v2 process thread (.worker device place))
    (moved : MineTurn thread device process place answer after next) :
    Keeps legacy v2 process after thread (.worker device next) := by
  obtain ⟨-, held, -, facts⟩ := asserted
  cases moved with
  | poisoned free poison => exact ⟨sound, .outside rfl rfl trivial, fun _ _ => .refl v2 _ _⟩
  | took free sane miner installed =>
      refine ⟨{ sound with }, ⟨?_, fun _ => rfl, ?_, sound.miners device miner installed⟩,
        fun bystander _ => { Relies.refl v2 bystander process with
          minersHeld := fun same => absurd same (free_apart free bystander) }⟩
      · intro held
        cases held
      · intro held
        cases held
  | missing free sane missing => exact ⟨sound, .outside rfl rfl trivial, fun _ _ => .refl v2 _ _⟩
  | mined miner =>
      exact ⟨{ sound with }, .outside rfl rfl trivial, fun bystander other =>
        { Relies.refl v2 bystander process with
          minersHeld := fun same => absurd same (held_apart (held rfl) other) }⟩
  | failed miner =>
      exact ⟨{ sound with }, .outside rfl rfl trivial, fun bystander other =>
        { Relies.refl v2 bystander process with
          minersHeld := fun same => absurd same (held_apart (held rfl) other) }⟩
  | panicked miner =>
      refine ⟨{ sound with }, .outside rfl rfl trivial, fun bystander other =>
        { Relies.refl v2 bystander process with
          minersHeld := fun same => ?_ }⟩
      rwa [unwound_other same other]

theorem worker_own {device : Nat} {place next : WorkerPlace} (sound : Sound legacy v2 process)
    (asserted : Asserted legacy v2 process thread (.worker device place))
    (moved : WorkerTurn thread device process place answer after next) :
    Keeps legacy v2 process after thread (.worker device next) := by
  cases moved with
  | block daa => exact ⟨sound, .outside rfl rfl trivial, fun _ _ => .refl v2 _ _⟩
  | test daa free =>
      refine ⟨sound, ?_, fun _ _ => .refl v2 _ _⟩
      split
      · exact .outside rfl rfl trivial
      · exact .outside rfl rfl trivial
  | mines mines => exact mine_own sound asserted mines
  | installs installs => exact install_own sound asserted installs

theorem turn_own {place next : Place} (sound : Sound legacy v2 process)
    (asserted : Asserted legacy v2 process thread place)
    (turned : turn thread process place answer = some (after, next)) :
    Keeps legacy v2 process after thread next := by
  cases Turn.of turned with
  | advance moved => exact advance_own sound asserted moved
  | inference moved => exact inference_own sound asserted moved
  | worker moved => exact worker_own sound asserted moved

theorem starts_cases {place : Place} (start : starts place = true) :
    (∃ daa, place = .advance (.compare daa)) ∨ (∃ modelId, place = .inference (.find modelId)) ∨
      ∃ device, place = .worker device .idle := by
  cases place with
  | advance place =>
      cases place with
      | compare daa => exact .inl ⟨daa, rfl⟩
      | _ => cases start
  | inference place =>
      cases place with
      | find modelId => exact .inr (.inl ⟨modelId, rfl⟩)
      | _ => cases start
  | worker device place =>
      cases place with
      | idle => exact .inr (.inr ⟨device, rfl⟩)
      | _ => cases start

theorem Asserted.begun {place : Place} (start : starts place = true) :
    Asserted legacy v2 process thread place := by
  obtain ⟨daa, rfl⟩ | ⟨modelId, rfl⟩ | ⟨device, rfl⟩ := starts_cases start
  · exact .advance trivial
  · exact .apart rfl trivial
  · exact .outside rfl rfl trivial

/-- Every turn keeps what every thread relies on. -/
theorem residency_proven :
    Proven turn starts (Sound legacy v2) (Asserted legacy v2) where
  start _ _ _ start := .begun start
  own _ _ _ _ _ _ sound asserted turned :=
    have keeps := turn_own sound asserted turned
    ⟨keeps.sound, keeps.asserted⟩
  other _ _ _ _ _ _ sound asserted turned bystander _ other standing :=
    standing.other ((turn_own sound asserted turned).relies bystander other)

end Lineups

end KeryxMiner.ResidencyRuns
