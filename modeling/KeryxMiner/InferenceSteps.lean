import KeryxMiner.InferencePause

/-!
`handle_challenge` and `handle_ai_task` with one atomic access a step, interleaved
with the steps of the tasks that they spawn. The handler runs one call at a time;
a call that is not interrupted is the one of `StratumClient`.
-/

namespace KeryxMiner.InferenceSteps

open AiPayloads ByteCodec MinerJobs StratumMessages StratumClient TransitionRuns

structure Challenge where
  modelIdHex : String
  nonceHex : String

structure Notify where
  id : String
  headerHash : Limbs
  timestamp : UInt64
  daaScore : UInt64
  taskJson : String

/-- What `handle_challenge` does next. -/
inductive ChallengePlace where
  | swap
  | decode
  | storeInvalid
  | ready (modelId : Bytes 32)
  | storeUnready
  | sendEmpty
  | raise (modelId : Bytes 32)
  | pause (modelId : Bytes 32)
  | spawn (modelId : Bytes 32)

/-- What `handle_ai_task` does next; `publish` is the job its caller feeds. -/
inductive AiTaskPlace where
  | parse
  | forget
  | keep (task : AiTask)
  | check (task : AiTask)
  | decode (task : AiTask)
  | ready (task : AiTask) (modelId : Bytes 32)
  | swap (task : AiTask) (modelId : Bytes 32)
  | raise (task : AiTask) (modelId : Bytes 32)
  | pause (task : AiTask) (modelId : Bytes 32)
  | mark (task : AiTask) (modelId : Bytes 32)
  | spawn (task : AiTask) (modelId : Bytes 32)
  | publish

inductive Call where
  | idle
  | challenge (request : Challenge) (place : ChallengePlace)
  | aiTask (notify : Notify) (place : AiTaskPlace)

/-- How far the closure of a task has come. -/
inductive Stage where
  | running
  | lowered
  | released
  | answered
  deriving DecidableEq

structure Spawned where
  task : InferenceTask
  stage : Stage

/-- `opoiChallenge` is the flag of the manager. -/
structure World where
  handler : StratumHandler
  miner : MinerManager
  opoiChallenge : Bool
  tasks : List Spawned
  sent : List StratumLine
  call : Call

def World.opened (blockTemplateCtr : UInt16) (stats : ShareStats) (workers : Nat) : World where
  handler := StratumHandler.connect blockTemplateCtr stats
  miner := MinerManager.new workers
  opoiChallenge := false
  tasks := []
  sent := []
  call := .idle

def Spawned.unreleased (spawned : Spawned) : Bool :=
  decide (spawned.stage = .running) || decide (spawned.stage = .lowered)

/-- The session that the world stands for. -/
def World.session (world : World) : Session where
  handler := world.handler
  miner := world.miner
  tasks := (world.tasks.filter Spawned.unreleased).map Spawned.task
  sent := world.sent

def World.setFlag (inFlight : Bool) (world : World) : World :=
  { world with handler := { world.handler with challengeInFlight := inFlight } }

def World.goTo (call : Call) (world : World) : World := { world with call }

@[simp] theorem go_to_call (call : Call) (world : World) : (world.goTo call).call = call := rfl

section Steps
variable (crates : PoolCrates) (slm : Slm)

def challengeStep (request : Challenge) (world : World) : ChallengePlace → World
  | .swap =>
      if world.handler.challengeInFlight then world.goTo .idle
      else (world.setFlag true).goTo (.challenge request .decode)
  | .decode =>
      match decodeModelId crates request.modelIdHex with
      | none => world.goTo (.challenge request .storeInvalid)
      | some modelId => world.goTo (.challenge request (.ready modelId))
  | .storeInvalid => (world.setFlag false).goTo .idle
  | .ready modelId =>
      if slm.isModelReady modelId then world.goTo (.challenge request (.raise modelId))
      else world.goTo (.challenge request .storeUnready)
  | .storeUnready => (world.setFlag false).goTo (.challenge request .sendEmpty)
  | .sendEmpty =>
      { world with
        sent := world.sent ++ [challengeResponseLine request.modelIdHex request.nonceHex ""]
        call := .idle }
  | .raise modelId =>
      { world with opoiChallenge := true, call := .challenge request (.pause modelId) }
  | .pause modelId =>
      { world with
        miner := (processBlock none world.miner).1
        call := .challenge request (.spawn modelId) }
  | .spawn modelId =>
      let prompt :=
        "Keryx inference challenge " ++ request.nonceHex ++ ": briefly describe what you are."
      { world with
        tasks := world.tasks ++
          [⟨.challenge modelId request.modelIdHex request.nonceHex prompt, .running⟩]
        call := .idle }

def aiTaskStep (notify : Notify) (world : World) : AiTaskPlace → World
  | .parse =>
      match crates.parseTask notify.taskJson with
      | none => world.goTo (.aiTask notify .forget)
      | some task => world.goTo (.aiTask notify (.keep task))
  | .forget =>
      { world with
        handler := { world.handler with currentTask := none }
        call := .aiTask notify .publish }
  | .keep task =>
      { world with
        handler := { world.handler with currentTask := some ⟨notify.id, task⟩ }
        call := .aiTask notify (.check task) }
  | .check task =>
      if task.stableId = "" then world.goTo (.aiTask notify .publish)
      else if alreadyHandled task.stableId world.handler.inferenceCache then
        world.goTo (.aiTask notify .publish)
      else world.goTo (.aiTask notify (.decode task))
  | .decode task =>
      match decodeModelId crates task.modelIdHex with
      | none => world.goTo (.aiTask notify .publish)
      | some modelId => world.goTo (.aiTask notify (.ready task modelId))
  | .ready task modelId =>
      if slm.isModelReady modelId then world.goTo (.aiTask notify (.swap task modelId))
      else world.goTo (.aiTask notify .publish)
  | .swap task modelId =>
      if world.handler.challengeInFlight then world.goTo (.aiTask notify .publish)
      else (world.setFlag true).goTo (.aiTask notify (.raise task modelId))
  | .raise task modelId =>
      { world with opoiChallenge := true, call := .aiTask notify (.pause task modelId) }
  | .pause task modelId =>
      { world with
        miner := (processBlock none world.miner).1
        call := .aiTask notify (.mark task modelId) }
  | .mark task modelId =>
      { world with
        handler := { world.handler with
          inferenceCache := { world.handler.inferenceCache with
            inProgress := insert task.stableId world.handler.inferenceCache.inProgress } }
        call := .aiTask notify (.spawn task modelId) }
  | .spawn task modelId =>
      { world with
        tasks := world.tasks ++ [⟨.aiTask modelId task false, .running⟩]
        call := .idle }
  | .publish =>
      let block := share world.handler notify.id notify.headerHash notify.timestamp notify.daaScore
      { world with miner := (processBlock (some block) world.miner).1, call := .idle }

/-- A message that starts no inference is one step. -/
def World.receive (line : StratumLine) (world : World) : World :=
  match line.error, line.payload with
  | none, .stratumCommand (.miningChallenge modelIdHex nonceHex) =>
      world.goTo (.challenge ⟨modelIdHex, nonceHex⟩ .swap)
  | none, .stratumCommand (.miningNotify (.withTask id headerHash timestamp daaScore taskJson)) =>
      let handler := { world.handler with
        blockTemplateCtr := (world.handler.blockTemplateCtr + 1) % 10000 }
      if slm.loadedModelIds = [] then
        { world with handler, miner := (processBlock none world.miner).1 }
      else
        { world with
          handler
          call := .aiTask ⟨id, headerHash, timestamp, daaScore, taskJson⟩ .parse }
  | _, _ =>
      let session := (handleMessage crates slm line world.session).1
      { world with handler := session.handler, miner := session.miner, sent := session.sent }

end Steps

inductive TaskMove where
  /-- The locked section at the end of `run_inference_and_upload`. -/
  | keep (cid : Option String)
  | lower
  | release
  | answer (text : Option String)

def World.setTask (place : Nat) (spawned : Spawned) (world : World) : World :=
  { world with tasks := world.tasks.set place spawned }

def taskMove (place : Nat) (spawned : Spawned) (world : World) : TaskMove → Option World
  | .keep cid =>
      match spawned with
      | ⟨.aiTask modelId task false, .running⟩ =>
          some { world.setTask place ⟨.aiTask modelId task true, .running⟩ with
            handler := { world.handler with
              inferenceCache := keepAnswer task.stableId cid world.handler.inferenceCache } }
      | _ => none
  | .lower =>
      match spawned with
      | ⟨.aiTask modelId task true, .running⟩ =>
          some { world.setTask place ⟨.aiTask modelId task true, .lowered⟩ with
            opoiChallenge := false }
      | ⟨.challenge modelId modelIdHex nonceHex prompt, .running⟩ =>
          some { world.setTask place ⟨.challenge modelId modelIdHex nonceHex prompt, .lowered⟩ with
            opoiChallenge := false }
      | _ => none
  | .release =>
      match spawned with
      | ⟨task, .lowered⟩ => some ((world.setTask place ⟨task, .released⟩).setFlag false)
      | _ => none
  | .answer text =>
      match spawned with
      | ⟨.challenge modelId modelIdHex nonceHex prompt, .released⟩ =>
          some { world.setTask place ⟨.challenge modelId modelIdHex nonceHex prompt, .answered⟩ with
            sent := world.sent ++ [challengeResponseLine modelIdHex nonceHex (text.getD "")] }
      | _ => none

inductive Event where
  | message (slm : Slm) (line : StratumLine)
  /-- The next access of the handler's call. -/
  | call (slm : Slm)
  | task (place : Nat) (move : TaskMove)

def worldStep (crates : PoolCrates) (world : World) : Event → Option World
  | .message slm line =>
      match world.call with
      | .idle => some (world.receive crates slm line)
      | _ => none
  | .call slm =>
      match world.call with
      | .idle => none
      | .challenge request place => some (challengeStep crates slm request world place)
      | .aiTask notify place => some (aiTaskStep crates slm notify world place)
  | .task place move =>
      match world.tasks[place]? with
      | none => none
      | some spawned => taskMove place spawned world move

/-! Who holds the flag. -/

/-- The call has taken the flag and has neither released it nor spawned the task. -/
def Call.holdsFlag : Call → Bool
  | .idle => false
  | .challenge _ .swap => false
  | .challenge _ .sendEmpty => false
  | .challenge _ _ => true
  | .aiTask _ (.raise ..) => true
  | .aiTask _ (.pause ..) => true
  | .aiTask _ (.mark ..) => true
  | .aiTask _ (.spawn ..) => true
  | .aiTask _ _ => false

/-- The id that the call has marked for the task it is about to spawn. -/
def Call.marks : Call → Option String
  | .aiTask _ (.spawn task _) => some task.stableId
  | _ => none

/-- The task infers for `stableId` and has not kept its answer yet. -/
def Spawned.Infers (stableId : String) (spawned : Spawned) : Prop :=
  ∃ modelId task, spawned = ⟨.aiTask modelId task false, .running⟩ ∧ task.stableId = stableId

def unreleasedCount (world : World) : Nat := world.tasks.countP Spawned.unreleased

/-- The flag counts the tasks that still have to clear it and the call that holds it. -/
structure Exclusive (world : World) : Prop where
  flag : unreleasedCount world + world.call.holdsFlag.toNat =
    world.handler.challengeInFlight.toNat
  marked : ∀ id ∈ world.handler.inferenceCache.inProgress,
    (∃ spawned ∈ world.tasks, spawned.Infers id) ∨ world.call.marks = some id

theorem opened_exclusive (blockTemplateCtr : UInt16) (stats : ShareStats) (workers : Nat) :
    Exclusive (World.opened blockTemplateCtr stats workers) where
  flag := rfl
  marked := by simp [World.opened, StratumHandler.connect]

/-- A step that changes neither the flag, the tasks nor the cache. -/
theorem Exclusive.carry {before after : World} (exclusive : Exclusive before)
    (tasks : after.tasks = before.tasks)
    (flag : after.handler.challengeInFlight = before.handler.challengeInFlight)
    (cache : after.handler.inferenceCache = before.handler.inferenceCache)
    (holds : after.call.holdsFlag = before.call.holdsFlag)
    (marks : before.call.marks = none) : Exclusive after where
  flag := by
    rw [unreleasedCount, tasks, flag, holds]
    exact exclusive.flag
  marked id present := by
    rw [cache] at present
    have infers := (exclusive.marked id present).resolve_right (by simp [marks])
    exact Or.inl (tasks ▸ infers)

theorem Exclusive.free {world : World} (exclusive : Exclusive world)
    (free : world.handler.challengeInFlight = false) :
    unreleasedCount world = 0 ∧ world.call.holdsFlag = false := by
  have flag := exclusive.flag
  rw [free] at flag
  cases holds : world.call.holdsFlag with
  | false => simpa [holds] using flag
  | true => simp [holds] at flag

theorem Exclusive.held {world : World} (exclusive : Exclusive world)
    (holds : world.call.holdsFlag = true) :
    unreleasedCount world = 0 ∧ world.handler.challengeInFlight = true := by
  have flag := exclusive.flag
  rw [holds] at flag
  cases taken : world.handler.challengeInFlight with
  | false => simp [taken] at flag
  | true => simpa [taken] using flag

/-- The flag is taken by the call. -/
theorem Exclusive.take {world : World} {call : Call} (exclusive : Exclusive world)
    (free : world.handler.challengeInFlight = false) (marks : world.call.marks = none)
    (holds : call.holdsFlag = true) : Exclusive ((world.setFlag true).goTo call) where
  flag := by
    have none_left := (exclusive.free free).1
    simpa [World.setFlag, World.goTo, unreleasedCount, holds] using none_left
  marked id present := Or.inl ((exclusive.marked id present).resolve_right (by simp [marks]))

/-- The call gives the flag back. -/
theorem Exclusive.giveBack {world : World} {call : Call} (exclusive : Exclusive world)
    (held : world.call.holdsFlag = true) (marks : world.call.marks = none)
    (holds : call.holdsFlag = false) : Exclusive ((world.setFlag false).goTo call) where
  flag := by
    have none_left := (exclusive.held held).1
    simpa [World.setFlag, World.goTo, unreleasedCount, holds] using none_left
  marked id present := Or.inl ((exclusive.marked id present).resolve_right (by simp [marks]))

theorem unreleased_snoc (tasks : List Spawned) (task : InferenceTask) :
    (tasks ++ [Spawned.mk task .running]).countP Spawned.unreleased =
      tasks.countP Spawned.unreleased + 1 := by
  simp [Spawned.unreleased]

/-- The call hands the flag to the task that it spawns. -/
theorem Exclusive.handOver {before after : World} {task : InferenceTask}
    (exclusive : Exclusive before) (held : before.call.holdsFlag = true)
    (tasks : after.tasks = before.tasks ++ [⟨task, .running⟩])
    (handler : after.handler = before.handler) (call : after.call = .idle)
    (marks : ∀ id, before.call.marks = some id → Spawned.Infers id ⟨task, .running⟩) :
    Exclusive after where
  flag := by
    obtain ⟨none_left, taken⟩ := exclusive.held held
    rw [unreleasedCount, tasks, unreleased_snoc, handler, call, taken]
    simpa [unreleasedCount, Call.holdsFlag] using none_left
  marked id present := by
    rw [handler] at present
    left
    rw [tasks]
    rcases exclusive.marked id present with ⟨spawned, member, infers⟩ | marked
    · exact ⟨spawned, List.mem_append_left _ member, infers⟩
    · exact ⟨_, List.mem_append_right _ (List.mem_singleton.mpr rfl), marks id marked⟩

/-! The handler. -/

section Handler
variable (crates : PoolCrates) (slm : Slm)

theorem short_v2_same (id : String) (headerHash : Limbs) (timestamp daaScore : UInt64)
    (session : Session) :
    SameInference session.handler
      (notifyShortV2 slm id headerHash timestamp daaScore session).1.handler := by
  unfold notifyShortV2 gated
  split <;> exact ⟨rfl, rfl⟩

/-- The two messages that can start an inference. -/
def StartsInference (line : StratumLine) : Prop :=
  line.error = none ∧
    ((∃ modelIdHex nonceHex, line.payload = .stratumCommand (.miningChallenge modelIdHex nonceHex)) ∨
      ∃ id headerHash timestamp daaScore taskJson, line.payload =
        .stratumCommand (.miningNotify (.withTask id headerHash timestamp daaScore taskJson)))

theorem not_starts {line : StratumLine}
    (notChallenge : ∀ modelIdHex nonceHex, line.error = none →
      line.payload = .stratumCommand (.miningChallenge modelIdHex nonceHex) → False)
    (notTask : ∀ id headerHash timestamp daaScore taskJson, line.error = none → line.payload =
      .stratumCommand (.miningNotify (.withTask id headerHash timestamp daaScore taskJson)) →
        False) : ¬ StartsInference line := by
  rintro ⟨noError, ⟨modelIdHex, nonceHex, challenge⟩ |
    ⟨id, headerHash, timestamp, daaScore, taskJson, task⟩⟩
  · exact notChallenge _ _ noError challenge
  · exact notTask _ _ _ _ _ noError task

theorem other_message_same {line : StratumLine} (other : ¬ StartsInference line)
    (session : Session) :
    SameInference session.handler (handleMessage crates slm line session).1.handler := by
  unfold handleMessage
  split
  · unfold handleResult
    split
    · exact accept_share_same _ _
    · exact accept_share_same _ _
    · exact set_extranonce_same _ _ _
    · exact ⟨rfl, rfl⟩
  · rename_i noError payload
    unfold handleCommand
    split
    · exact set_extranonce_same _ _ _
    · exact set_difficulty_same _ _
    · exact absurd ⟨noError, Or.inr ⟨_, _, _, _, _, payload⟩⟩ other
    · exact short_v2_same slm _ _ _ _ session
    · exact short_v2_same slm _ _ _ _ session
    · exact absurd ⟨noError, Or.inl ⟨_, _, payload⟩⟩ other
    · exact ⟨rfl, rfl⟩
  · exact ⟨rfl, rfl⟩
  · exact handle_error_same _ _ _
  · exact ⟨rfl, rfl⟩

theorem other_message_tasks {line : StratumLine} (other : ¬ StartsInference line)
    (session : Session) :
    (handleMessage crates slm line session).1.tasks = session.tasks := by
  have same := other_message_same crates slm other session
  cases InferencePause.handle_message_effect crates slm line session with
  | quiet kept _ => exact kept.tasks
  | paused kept _ => exact kept.tasks
  | fed _ _ kept _ => exact kept.tasks
  | started _ free _ taken _ =>
      rw [same.flag, free] at taken
      contradiction

theorem receive_exclusive (line : StratumLine) {world : World} (exclusive : Exclusive world)
    (idle : world.call = .idle) : Exclusive (world.receive crates slm line) := by
  have marks : world.call.marks = none := by rw [idle]; rfl
  unfold World.receive
  split
  · exact exclusive.carry rfl rfl rfl (by rw [idle]; rfl) marks
  · dsimp only
    split
    · exact exclusive.carry rfl rfl rfl rfl marks
    · exact exclusive.carry rfl rfl rfl (by rw [idle]; rfl) marks
  · rename_i notChallenge notTask
    have same := other_message_same crates slm (not_starts notChallenge notTask) world.session
    exact exclusive.carry rfl same.flag same.cache rfl marks

theorem challenge_step_exclusive (request : Challenge) (place : ChallengePlace) {world : World}
    (exclusive : Exclusive world) (doing : world.call = .challenge request place) :
    Exclusive (challengeStep crates slm request world place) := by
  have marks : world.call.marks = none := by rw [doing]; rfl
  cases place with
  | swap =>
      simp only [challengeStep]
      split
      · exact exclusive.carry rfl rfl rfl (by rw [doing]; rfl) marks
      · rename_i free
        exact exclusive.take (Bool.eq_false_of_not_eq_true free) marks rfl
  | decode =>
      simp only [challengeStep]
      split <;> exact exclusive.carry rfl rfl rfl (by rw [doing]; rfl) marks
  | storeInvalid => exact exclusive.giveBack (by rw [doing]; rfl) marks rfl
  | ready modelId =>
      simp only [challengeStep]
      split <;> exact exclusive.carry rfl rfl rfl (by rw [doing]; rfl) marks
  | storeUnready => exact exclusive.giveBack (by rw [doing]; rfl) marks rfl
  | sendEmpty => exact exclusive.carry rfl rfl rfl (by rw [doing]; rfl) marks
  | raise modelId => exact exclusive.carry rfl rfl rfl (by rw [doing]; rfl) marks
  | pause modelId => exact exclusive.carry rfl rfl rfl (by rw [doing]; rfl) marks
  | spawn modelId =>
      refine exclusive.handOver (by rw [doing]; rfl) rfl rfl rfl fun id marked => ?_
      rw [marks] at marked
      contradiction

theorem mark_exclusive (notify : Notify) (task : AiTask) (modelId : Bytes 32) {world : World}
    (exclusive : Exclusive world) (doing : world.call = .aiTask notify (.mark task modelId)) :
    Exclusive (aiTaskStep crates slm notify world (.mark task modelId)) where
  flag := by
    have flag := exclusive.flag
    rw [doing] at flag
    exact flag
  marked id present := by
    rcases Finset.mem_insert.mp present with rfl | before
    · exact Or.inr rfl
    · exact Or.inl ((exclusive.marked id before).resolve_right (by simp [doing, Call.marks]))

theorem ai_task_step_exclusive (notify : Notify) (place : AiTaskPlace) {world : World}
    (exclusive : Exclusive world) (doing : world.call = .aiTask notify place) :
    Exclusive (aiTaskStep crates slm notify world place) := by
  cases place with
  | parse =>
      simp only [aiTaskStep]
      split <;> exact exclusive.carry rfl rfl rfl (by rw [doing]; rfl) (by rw [doing]; rfl)
  | forget => exact exclusive.carry rfl rfl rfl (by rw [doing]; rfl) (by rw [doing]; rfl)
  | keep task => exact exclusive.carry rfl rfl rfl (by rw [doing]; rfl) (by rw [doing]; rfl)
  | check task =>
      simp only [aiTaskStep]
      split
      · exact exclusive.carry rfl rfl rfl (by rw [doing]; rfl) (by rw [doing]; rfl)
      · split <;> exact exclusive.carry rfl rfl rfl (by rw [doing]; rfl) (by rw [doing]; rfl)
  | decode task =>
      simp only [aiTaskStep]
      split <;> exact exclusive.carry rfl rfl rfl (by rw [doing]; rfl) (by rw [doing]; rfl)
  | ready task modelId =>
      simp only [aiTaskStep]
      split <;> exact exclusive.carry rfl rfl rfl (by rw [doing]; rfl) (by rw [doing]; rfl)
  | swap task modelId =>
      simp only [aiTaskStep]
      split
      · exact exclusive.carry rfl rfl rfl (by rw [doing]; rfl) (by rw [doing]; rfl)
      · rename_i free
        exact exclusive.take (Bool.eq_false_of_not_eq_true free) (by rw [doing]; rfl) rfl
  | raise task modelId =>
      exact exclusive.carry rfl rfl rfl (by rw [doing]; rfl) (by rw [doing]; rfl)
  | pause task modelId =>
      exact exclusive.carry rfl rfl rfl (by rw [doing]; rfl) (by rw [doing]; rfl)
  | mark task modelId => exact mark_exclusive crates slm notify task modelId exclusive doing
  | spawn task modelId =>
      refine exclusive.handOver (by rw [doing]; rfl) rfl rfl rfl fun id marked => ?_
      rw [doing] at marked
      obtain rfl := Option.some.inj marked
      exact ⟨modelId, task, rfl, rfl⟩
  | publish => exact exclusive.carry rfl rfl rfl (by rw [doing]; rfl) (by rw [doing]; rfl)

end Handler

/-! The tasks. -/

theorem set_count {tasks : List Spawned} {place : Nat} {spawned : Spawned}
    (present : tasks[place]? = some spawned) (replaced : Spawned) :
    (tasks.set place replaced).countP Spawned.unreleased + spawned.unreleased.toNat =
      tasks.countP Spawned.unreleased + replaced.unreleased.toNat := by
  obtain ⟨inside, found⟩ := List.getElem?_eq_some_iff.mp present
  have member : spawned ∈ tasks := List.mem_of_getElem? present
  rw [List.countP_set inside, found]
  cases old : spawned.unreleased with
  | false => cases replaced.unreleased <;> simp
  | true =>
      have positive := List.countP_pos_iff.mpr ⟨spawned, member, old⟩
      cases replaced.unreleased <;> simp <;> omega

theorem set_infers {tasks : List Spawned} {place : Nat} {spawned replaced : Spawned} {id : String}
    (present : tasks[place]? = some spawned) (idle : ¬ spawned.Infers id)
    (infers : ∃ other ∈ tasks, other.Infers id) :
    ∃ other ∈ tasks.set place replaced, other.Infers id := by
  obtain ⟨other, member, inferring⟩ := infers
  obtain ⟨index, found⟩ := List.mem_iff_getElem?.mp member
  have elsewhere : place ≠ index := by
    rintro rfl
    obtain rfl := Option.some.inj (present.symm.trans found)
    exact idle inferring
  refine ⟨other, ?_, inferring⟩
  apply List.mem_of_getElem? (i := index)
  rw [List.getElem?_set_ne elsewhere, found]

/-- A task moves on while the flag stays as it is. -/
theorem Exclusive.move {before after : World} {place : Nat} {spawned replaced : Spawned}
    (exclusive : Exclusive before) (present : before.tasks[place]? = some spawned)
    (tasks : after.tasks = before.tasks.set place replaced)
    (still : replaced.unreleased = spawned.unreleased)
    (flag : after.handler.challengeInFlight = before.handler.challengeInFlight)
    (call : after.call = before.call)
    (kept : ∀ id ∈ after.handler.inferenceCache.inProgress,
      id ∈ before.handler.inferenceCache.inProgress ∧ ¬ spawned.Infers id) :
    Exclusive after where
  flag := by
    have count := set_count present replaced
    rw [still] at count
    have same : unreleasedCount after = unreleasedCount before := by
      rw [unreleasedCount, tasks]
      exact Nat.add_right_cancel count
    rw [same, call, flag]
    exact exclusive.flag
  marked id member := by
    obtain ⟨before_member, idle⟩ := kept id member
    rw [call, tasks]
    exact (exclusive.marked id before_member).imp_left (set_infers present idle)

theorem lowered_idle {task : InferenceTask} (id : String) :
    ¬ Spawned.Infers id ⟨task, .lowered⟩ := by
  rintro ⟨modelId, aiTask, same, -⟩
  cases same

theorem release_exclusive {world : World} {place : Nat} {task : InferenceTask}
    (exclusive : Exclusive world) (present : world.tasks[place]? = some ⟨task, .lowered⟩) :
    Exclusive ((world.setTask place ⟨task, .released⟩).setFlag false) where
  flag := by
    have count : (world.tasks.set place ⟨task, .released⟩).countP Spawned.unreleased + 1 =
        unreleasedCount world := set_count present ⟨task, .released⟩
    have flag := exclusive.flag
    have bound := world.handler.challengeInFlight.toNat_le
    have counted : (world.tasks.set place ⟨task, .released⟩).countP Spawned.unreleased +
        world.call.holdsFlag.toNat = 0 := by omega
    exact counted
  marked id member :=
    (exclusive.marked id member).imp_left (set_infers present (lowered_idle id))

theorem task_move_exclusive {place : Nat} {spawned : Spawned} {before after : World}
    {move : TaskMove} (exclusive : Exclusive before)
    (present : before.tasks[place]? = some spawned)
    (moved : taskMove place spawned before move = some after) : Exclusive after := by
  cases move with
  | keep cid =>
      simp only [taskMove] at moved
      split at moved
      · rename_i modelId task
        obtain rfl := Option.some.inj moved
        refine exclusive.move present rfl rfl rfl rfl fun id member => ?_
        obtain ⟨other, old⟩ := Finset.mem_erase.mp member
        refine ⟨old, ?_⟩
        rintro ⟨_, _, same, named⟩
        cases same
        exact other named.symm
      · contradiction
  | lower =>
      simp only [taskMove] at moved
      split at moved
      · obtain rfl := Option.some.inj moved
        refine exclusive.move present rfl rfl rfl rfl fun id member => ⟨member, ?_⟩
        rintro ⟨_, _, same, -⟩
        cases same
      · obtain rfl := Option.some.inj moved
        refine exclusive.move present rfl rfl rfl rfl fun id member => ⟨member, ?_⟩
        rintro ⟨_, _, same, -⟩
        cases same
      · contradiction
  | release =>
      simp only [taskMove] at moved
      split at moved
      · obtain rfl := Option.some.inj moved
        exact release_exclusive exclusive present
      · contradiction
  | answer text =>
      simp only [taskMove] at moved
      split at moved
      · obtain rfl := Option.some.inj moved
        refine exclusive.move present rfl rfl rfl rfl fun id member => ⟨member, ?_⟩
        rintro ⟨_, _, same, -⟩
        cases same
      · contradiction

theorem world_step_exclusive (crates : PoolCrates) (before : World) (event : Event) (after : World)
    (exclusive : Exclusive before) (stepped : worldStep crates before event = some after) :
    Exclusive after := by
  cases event with
  | message slm line =>
      simp only [worldStep] at stepped
      split at stepped
      · rename_i idle
        obtain rfl := Option.some.inj stepped
        exact receive_exclusive crates slm line exclusive idle
      · contradiction
  | call slm =>
      simp only [worldStep] at stepped
      split at stepped
      · contradiction
      · rename_i request place doing
        obtain rfl := Option.some.inj stepped
        exact challenge_step_exclusive crates slm request place exclusive doing
      · rename_i notify place doing
        obtain rfl := Option.some.inj stepped
        exact ai_task_step_exclusive crates slm notify place exclusive doing
  | task place move =>
      simp only [worldStep] at stepped
      split at stepped
      · contradiction
      · rename_i spawned present
        exact task_move_exclusive exclusive present stepped

/-! A task comes nearer to its release by its own moves, and by nothing else. -/

def releasedCount (world : World) : Nat :=
  world.tasks.countP fun spawned => !spawned.unreleased

theorem counts_add (world : World) :
    unreleasedCount world + releasedCount world = world.tasks.length := by
  rw [unreleasedCount, releasedCount, List.length_eq_countP_add_countP Spawned.unreleased]
  simp

/-- The moves a task has left until the flag is down. -/
def Spawned.remaining (spawned : Spawned) : Nat :=
  match spawned.stage with
  | .running =>
      match spawned.task with
      | .aiTask _ _ false => 3
      | _ => 2
  | .lowered => 1
  | .released => 0
  | .answered => 0

/-- The next of them; `cid` is what the upload returns. -/
def Spawned.nextMove (cid : Option String) (spawned : Spawned) : TaskMove :=
  match spawned.stage with
  | .running =>
      match spawned.task with
      | .aiTask _ _ false => .keep cid
      | _ => .lower
  | _ => .release

theorem unreleased_iff (spawned : Spawned) :
    spawned.unreleased = true ↔ 0 < spawned.remaining := by
  obtain ⟨task, stage⟩ := spawned
  cases stage with
  | running =>
      cases task with
      | challenge => simp [Spawned.unreleased, Spawned.remaining]
      | aiTask modelId task kept =>
          cases kept <;> simp [Spawned.unreleased, Spawned.remaining]
  | lowered => simp [Spawned.unreleased, Spawned.remaining]
  | released => simp [Spawned.unreleased, Spawned.remaining]
  | answered => simp [Spawned.unreleased, Spawned.remaining]

def Event.movesTask (place : Nat) : Event → Bool
  | .task other _ => decide (other = place)
  | _ => false

def movesOf (place : Nat) (events : List Event) : Nat := events.countP (Event.movesTask place)

/-- What a step does to the tasks: nothing, a spawn, or a move of one of them that
brings it nearer to its release. -/
inductive TasksMove (before : World) (event : Event) (after : World) : Prop
  | same (tasks : after.tasks = before.tasks) (foreign : ∀ place, event.movesTask place = false)
  | spawned (task : InferenceTask) (tasks : after.tasks = before.tasks ++ [⟨task, .running⟩])
      (foreign : ∀ place, event.movesTask place = false)
  | moved (place : Nat) (move : TaskMove) (mine : event = .task place move) (old new : Spawned)
      (present : before.tasks[place]? = some old) (tasks : after.tasks = before.tasks.set place new)
      (spent : new.remaining = old.remaining - 1)

theorem tasks_move_counts {before after : World} {event : Event}
    (move : TasksMove before event after) : releasedCount before ≤ releasedCount after := by
  have first := counts_add before
  have last := counts_add after
  cases move with
  | same tasks foreign => rw [releasedCount, releasedCount, tasks]
  | spawned task tasks foreign =>
      have unreleased : unreleasedCount after = unreleasedCount before + 1 := by
        rw [unreleasedCount, tasks, unreleased_snoc, unreleasedCount]
      rw [tasks, List.length_append, List.length_singleton] at last
      omega
  | moved place move mine old new present tasks spent =>
      have count : unreleasedCount after + old.unreleased.toNat =
          unreleasedCount before + new.unreleased.toNat := by
        rw [unreleasedCount, tasks]
        exact set_count present new
      have falls : new.unreleased.toNat ≤ old.unreleased.toNat := by
        cases later : new.unreleased with
        | false => exact Nat.zero_le _
        | true =>
            have left := (unreleased_iff new).mp later
            simp [(unreleased_iff old).mpr (by omega)]
      rw [tasks, List.length_set] at last
      omega

theorem challenge_step_tasks (crates : PoolCrates) (slm : Slm) (request : Challenge)
    (place : ChallengePlace) (world : World) :
    TasksMove world (.call slm) (challengeStep crates slm request world place) := by
  cases place with
  | spawn modelId => exact .spawned _ rfl fun _ => rfl
  | swap => simp only [challengeStep]; split <;> exact .same rfl fun _ => rfl
  | decode => simp only [challengeStep]; split <;> exact .same rfl fun _ => rfl
  | ready modelId => simp only [challengeStep]; split <;> exact .same rfl fun _ => rfl
  | _ => exact .same rfl fun _ => rfl

theorem ai_task_step_tasks (crates : PoolCrates) (slm : Slm) (notify : Notify)
    (place : AiTaskPlace) (world : World) :
    TasksMove world (.call slm) (aiTaskStep crates slm notify world place) := by
  cases place with
  | spawn task modelId => exact .spawned _ rfl fun _ => rfl
  | parse => simp only [aiTaskStep]; split <;> exact .same rfl fun _ => rfl
  | check task =>
      simp only [aiTaskStep]
      split
      · exact .same rfl fun _ => rfl
      · split <;> exact .same rfl fun _ => rfl
  | decode task => simp only [aiTaskStep]; split <;> exact .same rfl fun _ => rfl
  | ready task modelId => simp only [aiTaskStep]; split <;> exact .same rfl fun _ => rfl
  | swap task modelId => simp only [aiTaskStep]; split <;> exact .same rfl fun _ => rfl
  | _ => exact .same rfl fun _ => rfl

theorem task_move_tasks {place : Nat} {spawned : Spawned} {before after : World} {move : TaskMove}
    (present : before.tasks[place]? = some spawned)
    (moved : taskMove place spawned before move = some after) :
    TasksMove before (.task place move) after := by
  cases move with
  | keep cid =>
      simp only [taskMove] at moved
      split at moved
      · obtain rfl := Option.some.inj moved
        exact .moved place _ rfl _ _ present rfl rfl
      · contradiction
  | lower =>
      simp only [taskMove] at moved
      split at moved
      · obtain rfl := Option.some.inj moved
        exact .moved place _ rfl _ _ present rfl rfl
      · obtain rfl := Option.some.inj moved
        exact .moved place _ rfl _ _ present rfl rfl
      · contradiction
  | release =>
      simp only [taskMove] at moved
      split at moved
      · obtain rfl := Option.some.inj moved
        exact .moved place _ rfl _ _ present rfl rfl
      · contradiction
  | answer text =>
      simp only [taskMove] at moved
      split at moved
      · obtain rfl := Option.some.inj moved
        exact .moved place _ rfl _ _ present rfl rfl
      · contradiction

theorem world_step_tasks (crates : PoolCrates) {before after : World} {event : Event}
    (stepped : worldStep crates before event = some after) : TasksMove before event after := by
  cases event with
  | message slm line =>
      simp only [worldStep] at stepped
      split at stepped
      · obtain rfl := Option.some.inj stepped
        unfold World.receive
        split
        · exact .same rfl fun _ => rfl
        · dsimp only
          split <;> exact .same rfl fun _ => rfl
        · exact .same rfl fun _ => rfl
      · contradiction
  | call slm =>
      simp only [worldStep] at stepped
      split at stepped
      · contradiction
      · obtain rfl := Option.some.inj stepped
        exact challenge_step_tasks crates slm _ _ before
      · obtain rfl := Option.some.inj stepped
        exact ai_task_step_tasks crates slm _ _ before
  | task place move =>
      simp only [worldStep] at stepped
      split at stepped
      · contradiction
      · rename_i present
        exact task_move_tasks present stepped

theorem world_step_remaining (crates : PoolCrates) {before after : World} {event : Event}
    {place : Nat} {spawned : Spawned} (present : before.tasks[place]? = some spawned)
    (stepped : worldStep crates before event = some after) :
    ∃ now, after.tasks[place]? = some now ∧
      now.remaining = spawned.remaining - movesOf place [event] := by
  cases world_step_tasks crates stepped with
  | same tasks foreign => exact ⟨spawned, tasks ▸ present, by simp [movesOf, foreign]⟩
  | spawned task tasks foreign =>
      refine ⟨spawned, ?_, by simp [movesOf, foreign]⟩
      rw [tasks, List.getElem?_append_left (List.getElem?_eq_some_iff.mp present).1]
      exact present
  | moved other move mine old new held tasks spent =>
      by_cases own : other = place
      · subst own
        obtain rfl := Option.some.inj (held.symm.trans present)
        refine ⟨new, ?_, by simp [movesOf, mine, Event.movesTask, spent]⟩
        rw [tasks, List.getElem?_set_self (List.getElem?_eq_some_iff.mp held).1]
      · refine ⟨spawned, ?_, by simp [movesOf, mine, Event.movesTask, own]⟩
        rw [tasks, List.getElem?_set_ne own]
        exact present

theorem run_remaining (crates : PoolCrates) {place : Nat} (events : List Event) :
    ∀ {start last : World} {spawned : Spawned}, start.tasks[place]? = some spawned →
      runFrom (worldStep crates) start events = some last →
        ∃ now, last.tasks[place]? = some now ∧
          now.remaining = spawned.remaining - movesOf place events := by
  induction events with
  | nil =>
      intro start last spawned present ran
      obtain rfl := Option.some.inj ran
      exact ⟨spawned, present, rfl⟩
  | cons event rest ih =>
      intro start last spawned present ran
      obtain ⟨next, stepped, continues⟩ := Option.bind_eq_some_iff.mp ran
      obtain ⟨moved, there, once⟩ := world_step_remaining crates present stepped
      obtain ⟨now, here, spent⟩ := ih there continues
      refine ⟨now, here, ?_⟩
      have both : movesOf place (event :: rest) = movesOf place [event] + movesOf place rest := by
        simp only [movesOf, ← List.countP_append, List.singleton_append]
      omega

theorem next_enabled (crates : PoolCrates) {world : World} {place : Nat} {spawned : Spawned}
    (cid : Option String) (present : world.tasks[place]? = some spawned)
    (left : 0 < spawned.remaining) :
    ∃ next, worldStep crates world (.task place (spawned.nextMove cid)) = some next := by
  obtain ⟨task, stage⟩ := spawned
  simp only [worldStep, present]
  cases stage with
  | running =>
      cases task with
      | challenge modelId modelIdHex nonceHex prompt => exact ⟨_, rfl⟩
      | aiTask modelId task kept =>
          cases kept with
          | false => exact ⟨_, rfl⟩
          | true => exact ⟨_, rfl⟩
  | lowered => exact ⟨_, rfl⟩
  | released => contradiction
  | answered => contradiction

/-- The last of the moves clears the flag. -/
theorem last_move_clears (crates : PoolCrates) {world after : World} {place : Nat}
    {spawned : Spawned} {move : TaskMove} (present : world.tasks[place]? = some spawned)
    (last : spawned.remaining = 1)
    (stepped : worldStep crates world (.task place move) = some after) :
    after.handler.challengeInFlight = false := by
  simp only [worldStep, present] at stepped
  cases move with
  | release =>
      simp only [taskMove] at stepped
      split at stepped
      · obtain rfl := Option.some.inj stepped
        rfl
      · contradiction
  | keep cid =>
      simp only [taskMove] at stepped
      split at stepped
      · simp [Spawned.remaining] at last
      · contradiction
  | lower =>
      simp only [taskMove] at stepped
      split at stepped
      · simp [Spawned.remaining] at last
      · simp [Spawned.remaining] at last
      · contradiction
  | answer text =>
      simp only [taskMove] at stepped
      split at stepped
      · simp [Spawned.remaining] at last
      · contradiction

theorem run_released (crates : PoolCrates) {start last : World} {events : List Event}
    (ran : runFrom (worldStep crates) start events = some last) :
    releasedCount start ≤ releasedCount last := by
  apply invariant_end (fun world => releasedCount start ≤ releasedCount world)
    (fun _ _ _ before stepped (_ : True) =>
      before.trans (tasks_move_counts (world_step_tasks crates stepped)))
    events start last (Nat.le_refl _) (every_step_trivial events start) ran

/-! A call ends by its own steps. -/

def ChallengePlace.left : ChallengePlace → Nat
  | .swap => 7
  | .decode => 6
  | .ready _ => 5
  | .raise _ => 3
  | .pause _ => 2
  | .storeUnready => 2
  | .storeInvalid => 1
  | .sendEmpty => 1
  | .spawn _ => 1

def AiTaskPlace.left : AiTaskPlace → Nat
  | .parse => 10
  | .keep _ => 9
  | .check _ => 8
  | .decode _ => 7
  | .ready .. => 6
  | .swap .. => 5
  | .raise .. => 4
  | .pause .. => 3
  | .mark .. => 2
  | .forget => 2
  | .spawn .. => 1
  | .publish => 1

/-- A bound on the steps of the handler until the call returns. -/
def Call.left : Call → Nat
  | .idle => 0
  | .challenge _ place => place.left
  | .aiTask _ place => place.left

theorem challenge_step_left (crates : PoolCrates) (slm : Slm) (request : Challenge) (world : World)
    (place : ChallengePlace) :
    (challengeStep crates slm request world place).call.left < place.left := by
  cases place with
  | swap => simp only [challengeStep]; split <;> simp [Call.left, ChallengePlace.left]
  | decode => simp only [challengeStep]; split <;> simp [Call.left, ChallengePlace.left]
  | ready modelId => simp only [challengeStep]; split <;> simp [Call.left, ChallengePlace.left]
  | _ => simp [challengeStep, Call.left, ChallengePlace.left]

theorem ai_task_step_left (crates : PoolCrates) (slm : Slm) (notify : Notify) (world : World)
    (place : AiTaskPlace) :
    (aiTaskStep crates slm notify world place).call.left < place.left := by
  cases place with
  | parse => simp only [aiTaskStep]; split <;> simp [Call.left, AiTaskPlace.left]
  | check task =>
      simp only [aiTaskStep]
      split
      · simp [Call.left, AiTaskPlace.left]
      · split <;> simp [Call.left, AiTaskPlace.left]
  | decode task => simp only [aiTaskStep]; split <;> simp [Call.left, AiTaskPlace.left]
  | ready task modelId => simp only [aiTaskStep]; split <;> simp [Call.left, AiTaskPlace.left]
  | swap task modelId => simp only [aiTaskStep]; split <;> simp [Call.left, AiTaskPlace.left]
  | _ => simp [aiTaskStep, Call.left, AiTaskPlace.left]

theorem call_ends (crates : PoolCrates) (slm : Slm) (world : World) :
    ∃ count after,
      runFrom (worldStep crates) world (List.replicate count (.call slm)) = some after ∧
        after.call = .idle := by
  induction left : world.call.left using Nat.strong_induction_on generalizing world with
  | _ bound ih =>
      have continues : ∀ next, worldStep crates world (.call slm) = some next →
          next.call.left < world.call.left → ∃ count after,
            runFrom (worldStep crates) world (List.replicate count (.call slm)) = some after ∧
              after.call = .idle := by
        intro next stepped nearer
        obtain ⟨count, after, ran, idle⟩ := ih next.call.left (left ▸ nearer) next rfl
        exact ⟨count + 1, after, by simp [List.replicate_succ, runFrom, stepped, ran], idle⟩
      cases doing : world.call with
      | idle => exact ⟨0, world, rfl, doing⟩
      | challenge request place =>
          apply continues (challengeStep crates slm request world place)
          · simp only [worldStep, doing]
          · rw [doing]
            exact challenge_step_left crates slm request world place
      | aiTask notify place =>
          apply continues (aiTaskStep crates slm notify world place)
          · simp only [worldStep, doing]
          · rw [doing]
            exact ai_task_step_left crates slm notify world place

/-! Every run of a connection. -/

structure OneInference (world : World) : Prop where
  single : unreleasedCount world ≤ 1
  flag : world.call = .idle →
    (world.handler.challengeInFlight = true ↔ unreleasedCount world = 1)
  /-- An id in progress is that of a running task, or of one being spawned. -/
  inProgress : ∀ id ∈ world.handler.inferenceCache.inProgress,
    (∃ spawned ∈ world.tasks, spawned.Infers id) ∨ world.call.marks = some id

theorem exclusive_one {world : World} (exclusive : Exclusive world) : OneInference world where
  single := by
    have flag := exclusive.flag
    have bound := world.handler.challengeInFlight.toNat_le
    omega
  flag idle := by
    have flag := exclusive.flag
    rw [idle] at flag
    cases taken : world.handler.challengeInFlight <;>
      simp [taken, Call.holdsFlag] at flag ⊢ <;> omega
  inProgress := exclusive.marked

/-- Whatever else runs, the moves a task has left until the flag is down stay possible,
and the last of them leaves it down. -/
structure Releases (crates : PoolCrates) (world : World) (place : Nat) (spawned : Spawned) :
    Prop where
  enabled : ∀ later after cid, runFrom (worldStep crates) world later = some after →
    movesOf place later < spawned.remaining →
      ∃ now next, after.tasks[place]? = some now ∧
        worldStep crates after (.task place (now.nextMove cid)) = some next
  cleared : ∀ later move after,
    runFrom (worldStep crates) world (later ++ [.task place move]) = some after →
      movesOf place later + 1 = spawned.remaining →
        after.handler.challengeInFlight = false ∧ unreleasedCount after = 0

theorem run_exclusive (crates : PoolCrates) {start last : World} {events : List Event}
    (exclusive : Exclusive start) (ran : runFrom (worldStep crates) start events = some last) :
    Exclusive last :=
  invariant_end Exclusive
    (fun before event after sound stepped (_ : True) =>
      world_step_exclusive crates before event after sound stepped)
    events start last exclusive (every_step_trivial events start) ran

theorem exclusive_releases (crates : PoolCrates) {world : World} (exclusive : Exclusive world)
    {place : Nat} {spawned : Spawned} (present : world.tasks[place]? = some spawned) :
    Releases crates world place spawned where
  enabled later after cid ran short := by
    obtain ⟨now, here, left⟩ := run_remaining crates later present ran
    obtain ⟨next, moved⟩ := next_enabled crates cid here (by omega)
    exact ⟨now, next, here, moved⟩
  cleared later move after ran last := by
    have sound := run_exclusive crates exclusive ran
    obtain ⟨before, next, earlier, stepped, ended⟩ := run_from_around ran
    obtain rfl : next = after := Option.some.inj ended
    obtain ⟨now, here, left⟩ := run_remaining crates later present earlier
    have down := last_move_clears crates here (by omega) stepped
    exact ⟨down, (sound.free down).1⟩

/-- At most one task is about to clear the flag, and between calls the flag is taken
exactly while there is one, which then releases it by its own moves. A call comes to its
end by its own steps, and one that spawns nothing takes nothing: until the next
task the flag only changes when one is released. -/
theorem one_inference_at_a_time (crates : PoolCrates) (blockTemplateCtr : UInt16)
    (stats : ShareStats) (workers : Nat) (events : List Event) (world : World)
    (ran : runFrom (worldStep crates) (World.opened blockTemplateCtr stats workers) events =
      some world) :
    OneInference world ∧
    (∀ place spawned, world.tasks[place]? = some spawned → Releases crates world place spawned) ∧
    (∀ slm, ∃ count after,
      runFrom (worldStep crates) world (List.replicate count (.call slm)) = some after ∧
        after.call = .idle) ∧
    ∀ later after, runFrom (worldStep crates) world later = some after →
      world.call = .idle → after.call = .idle → after.tasks.length = world.tasks.length →
        (after.handler.challengeInFlight = true ↔ world.handler.challengeInFlight = true ∧
          releasedCount after = releasedCount world) := by
  have exclusive := run_exclusive crates (opened_exclusive blockTemplateCtr stats workers) ran
  refine ⟨exclusive_one exclusive, ?_, ?_, ?_⟩
  · intro place spawned present
    exact exclusive_releases crates exclusive present
  · exact fun slm => call_ends crates slm world
  · intro later after continues idle returned spawned
    have one := exclusive_one exclusive
    have oneAfter := exclusive_one (run_exclusive crates exclusive continues)
    -- no task is spawned meanwhile, so the flag changes only by a release
    have released := run_released crates continues
    have before := counts_add world
    have afterwards := counts_add after
    have single := one.single
    have singleAfter := oneAfter.single
    rw [one.flag idle, oneAfter.flag returned]
    omega

/-! A challenge whose inference runs, and returns. -/

def challengeCalls : List Event :=
  .message InferencePause.readySlm InferencePause.challengeLine ::
    List.replicate 6 (.call InferencePause.readySlm)

theorem one_inference_challenged :
    ∃ running, runFrom (worldStep InferencePause.poolCrates) (World.opened 0 ⟨0, 0, 0, 0, ∅⟩ 1)
        challengeCalls = some running ∧
      OneInference running ∧ running.call = .idle ∧ running.handler.challengeInFlight = true ∧
      unreleasedCount running = 1 ∧
      ∃ returned, runFrom (worldStep InferencePause.poolCrates) running
          [.task 0 .lower, .task 0 .release] = some returned ∧
        returned.handler.challengeInFlight = false ∧ unreleasedCount returned = 0 := by
  refine ⟨_, rfl, ?_⟩
  obtain ⟨one, releases, _⟩ := one_inference_at_a_time InferencePause.poolCrates 0
    ⟨0, 0, 0, 0, ∅⟩ 1 challengeCalls _ rfl
  exact ⟨one, rfl, rfl, rfl, _, rfl,
    (releases 0 _ rfl).cleared [.task 0 .lower] .release _ rfl rfl⟩

/-! A call that nothing interrupts. -/

section Uninterrupted
variable (crates : PoolCrates) (slm : Slm)

def callAlone (count : Nat) (world : World) : Option World :=
  runFrom (worldStep crates) world (List.replicate count (.call slm))

theorem call_alone_challenge (count : Nat) {world : World} {request : Challenge}
    {place : ChallengePlace} (doing : world.call = .challenge request place) :
    callAlone crates slm (count + 1) world =
      callAlone crates slm count (challengeStep crates slm request world place) := by
  simp [callAlone, List.replicate_succ, runFrom, worldStep, doing]

theorem call_alone_ai_task (count : Nat) {world : World} {notify : Notify} {place : AiTaskPlace}
    (doing : world.call = .aiTask notify place) :
    callAlone crates slm (count + 1) world =
      callAlone crates slm count (aiTaskStep crates slm notify world place) := by
  simp [callAlone, List.replicate_succ, runFrom, worldStep, doing]

/-- Some number of its own steps ends the call in the given session. -/
def EndsIn (world : World) (session : Session) : Prop :=
  ∃ count after, callAlone crates slm count world = some after ∧ after.call = .idle ∧
    after.session = session

variable {crates slm}

theorem ends_now {world : World} {session : Session} (idle : world.call = .idle)
    (same : world.session = session) : EndsIn crates slm world session :=
  ⟨0, world, rfl, idle, same⟩

theorem EndsIn.challenge {world : World} {session : Session} {request : Challenge}
    {place : ChallengePlace} (doing : world.call = .challenge request place)
    (ends : EndsIn crates slm (challengeStep crates slm request world place) session) :
    EndsIn crates slm world session := by
  obtain ⟨count, after, ran, idle, same⟩ := ends
  exact ⟨count + 1, after, (call_alone_challenge crates slm count doing).trans ran, idle, same⟩

theorem EndsIn.aiTask {world : World} {session : Session} {notify : Notify}
    {place : AiTaskPlace} (doing : world.call = .aiTask notify place)
    (ends : EndsIn crates slm (aiTaskStep crates slm notify world place) session) :
    EndsIn crates slm world session := by
  obtain ⟨count, after, ran, idle, same⟩ := ends
  exact ⟨count + 1, after, (call_alone_ai_task crates slm count doing).trans ran, idle, same⟩

theorem challenge_alone (request : Challenge) (world : World)
    (doing : world.call = .challenge request .swap) :
    EndsIn crates slm world
      (handleChallenge crates slm request.modelIdHex request.nonceHex world.session) := by
  apply EndsIn.challenge doing
  have flag : world.session.handler.challengeInFlight = world.handler.challengeInFlight := rfl
  unfold handleChallenge
  simp only [challengeStep, flag]
  by_cases taken : world.handler.challengeInFlight = true
  · rw [if_pos taken, if_pos taken]
    exact ends_now rfl rfl
  rw [if_neg taken, if_neg taken]
  refine EndsIn.challenge rfl ?_
  simp only [challengeStep]
  cases decoded : decodeModelId crates request.modelIdHex with
  | none =>
      refine EndsIn.challenge rfl ?_
      exact ends_now rfl rfl
  | some modelId =>
      refine EndsIn.challenge rfl ?_
      simp only [challengeStep]
      by_cases ready : slm.isModelReady modelId = true
      · rw [if_pos ready, if_pos ready]
        refine EndsIn.challenge rfl ?_
        refine EndsIn.challenge rfl ?_
        refine EndsIn.challenge rfl ?_
        refine ends_now rfl ?_
        simp [challengeStep, World.session, Session.spawn, Session.publish, Session.withFlag,
          Spawned.unreleased, World.goTo, World.setFlag]
      · rw [if_neg ready, if_neg ready]
        refine EndsIn.challenge rfl ?_
        refine EndsIn.challenge rfl ?_
        exact ends_now rfl rfl

/-- The job goes to the miner unless an inference was started. -/
def fed (notify : Notify) (result : Session × Bool) : Session :=
  if result.2 then result.1
  else (result.1.publish (some (share result.1.handler notify.id notify.headerHash
    notify.timestamp notify.daaScore))).1

theorem fed_eq (notify : Notify) (result : Session × Bool) :
    (if result.2 then (result.1, Handled.ok)
      else result.1.publish (some (share result.1.handler notify.id notify.headerHash
        notify.timestamp notify.daaScore))).1 = fed notify result := by
  unfold fed
  split <;> rfl

theorem publish_alone (notify : Notify) (world : World)
    (doing : world.call = .aiTask notify .publish) :
    EndsIn crates slm world (fed notify (world.session, false)) := by
  refine EndsIn.aiTask doing ?_
  exact ends_now rfl rfl

theorem swap_alone (notify : Notify) (task : AiTask) (modelId : Bytes 32) (world : World)
    (doing : world.call = .aiTask notify (.swap task modelId)) :
    EndsIn crates slm world (fed notify
      (if world.session.handler.challengeInFlight then (world.session, false)
      else (markInProgress task.stableId
        ((world.session.withFlag true).spawn (.aiTask modelId task false)), true))) := by
  apply EndsIn.aiTask doing
  have flag : world.session.handler.challengeInFlight = world.handler.challengeInFlight := rfl
  simp only [aiTaskStep, flag]
  by_cases taken : world.handler.challengeInFlight = true
  · rw [if_pos taken, if_pos taken]
    exact publish_alone notify _ rfl
  · rw [if_neg taken, if_neg taken]
    refine EndsIn.aiTask rfl ?_
    refine EndsIn.aiTask rfl ?_
    refine EndsIn.aiTask rfl ?_
    refine EndsIn.aiTask rfl ?_
    refine ends_now rfl ?_
    simp [aiTaskStep, World.session, Session.spawn, Session.publish, Session.withFlag,
      markInProgress, fed, Spawned.unreleased, World.setFlag, World.goTo]

theorem decode_alone (notify : Notify) (task : AiTask) (world : World)
    (doing : world.call = .aiTask notify (.decode task)) :
    EndsIn crates slm world (fed notify
      (match decodeModelId crates task.modelIdHex with
      | none => (world.session, false)
      | some modelId =>
          if !slm.isModelReady modelId then (world.session, false)
          else if world.session.handler.challengeInFlight then (world.session, false)
          else (markInProgress task.stableId
            ((world.session.withFlag true).spawn (.aiTask modelId task false)), true))) := by
  apply EndsIn.aiTask doing
  simp only [aiTaskStep]
  cases decodeModelId crates task.modelIdHex with
  | none => exact publish_alone notify _ rfl
  | some modelId =>
      refine EndsIn.aiTask rfl ?_
      simp only [aiTaskStep]
      cases slm.isModelReady modelId with
      | false => exact publish_alone notify _ rfl
      | true => exact swap_alone notify task modelId _ rfl

theorem check_alone (notify : Notify) (task : AiTask) (world : World)
    (doing : world.call = .aiTask notify (.check task)) :
    EndsIn crates slm world (fed notify
      (if task.stableId = "" then (world.session, false)
      else if alreadyHandled task.stableId world.session.handler.inferenceCache then
        (world.session, false)
      else match decodeModelId crates task.modelIdHex with
        | none => (world.session, false)
        | some modelId =>
            if !slm.isModelReady modelId then (world.session, false)
            else if world.session.handler.challengeInFlight then (world.session, false)
            else (markInProgress task.stableId
              ((world.session.withFlag true).spawn (.aiTask modelId task false)), true))) := by
  apply EndsIn.aiTask doing
  have cache : world.session.handler.inferenceCache = world.handler.inferenceCache := rfl
  simp only [aiTaskStep, cache]
  by_cases unnamed : task.stableId = ""
  · rw [if_pos unnamed, if_pos unnamed]
    exact publish_alone notify _ rfl
  rw [if_neg unnamed, if_neg unnamed]
  cases alreadyHandled task.stableId world.handler.inferenceCache with
  | true => exact publish_alone notify _ rfl
  | false => exact decode_alone notify task _ rfl

theorem ai_task_alone (notify : Notify) (world : World)
    (doing : world.call = .aiTask notify .parse) :
    EndsIn crates slm world
      (fed notify (handleAiTask crates slm notify.id notify.taskJson world.session)) := by
  apply EndsIn.aiTask doing
  unfold handleAiTask
  simp only [aiTaskStep]
  cases crates.parseTask notify.taskJson with
  | none =>
      refine EndsIn.aiTask rfl ?_
      exact publish_alone notify _ rfl
  | some task =>
      refine EndsIn.aiTask rfl ?_
      exact check_alone notify task _ rfl

/-- A message whose call is not interrupted does what `handle_message` does. -/
theorem message_alone (line : StratumLine) (world : World) (idle : world.call = .idle) :
    EndsIn crates slm (world.receive crates slm line)
      (handleMessage crates slm line world.session).1 := by
  obtain ⟨id, payload, jsonrpc, error⟩ := line
  unfold World.receive
  split
  · rename_i modelIdHex nonceHex noError isChallenge
    obtain rfl : error = none := noError
    obtain rfl : payload = _ := isChallenge
    have alone := @challenge_alone crates slm ⟨modelIdHex, nonceHex⟩
      (world.goTo (.challenge ⟨modelIdHex, nonceHex⟩ .swap)) rfl
    simp only [handleMessage, handleCommand]
    exact alone
  · rename_i id headerHash timestamp daaScore taskJson noError isTask
    obtain rfl : error = none := noError
    obtain rfl : payload = _ := isTask
    simp only [handleMessage, handleCommand, notifyWithTask, gated]
    by_cases unloaded : slm.loadedModelIds = []
    · rw [if_pos unloaded, if_pos unloaded]
      exact ends_now idle rfl
    · rw [if_neg unloaded, if_neg unloaded]
      let notify : Notify := ⟨id, headerHash, timestamp, daaScore, taskJson⟩
      have alone := @ai_task_alone crates slm notify
        { world with
          handler := { world.handler with
            blockTemplateCtr := (world.handler.blockTemplateCtr + 1) % 10000 }
          call := .aiTask notify .parse } rfl
      rw [fed_eq notify]
      exact alone
  · rename_i notChallenge notTask
    have tasks := other_message_tasks crates slm (not_starts notChallenge notTask) world.session
    refine ends_now idle ?_
    have built : ∀ session : Session, session.tasks = world.session.tasks →
        World.session { world with
          handler := session.handler, miner := session.miner, sent := session.sent } = session := by
      rintro ⟨handler, miner, _, sent⟩ rfl
      rfl
    exact built _ tasks

end Uninterrupted

end KeryxMiner.InferenceSteps
