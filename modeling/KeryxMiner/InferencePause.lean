import KeryxMiner.StratumClient
import KeryxMiner.TransitionRuns
import Mathlib.Tactic.Common

/-!
The pause of mining under the inferences of a Stratum connection.
-/

namespace KeryxMiner.InferencePause

open AiPayloads MinerJobs StratumMessages StratumClient TransitionRuns

/-- While a task runs, the last command published is the pause. -/
def InferencePaused (session : Session) : Prop := session.tasks ≠ [] → session.miner.Paused

/-- The notify that feeds a job once a model is loaded. -/
def IsJob : StratumLinePayload → Prop
  | .stratumCommand (.miningNotify (.withTask ..)) => True
  | .stratumCommand (.miningNotify (.shortV2 ..)) => True
  | .stratumCommand (.miningNotify (.short ..)) => True
  | _ => False

def FeedsJob (slm : Slm) (line : StratumLine) : Prop :=
  line.error = none ∧ IsJob line.payload ∧ slm.loadedModelIds ≠ []

/-! What a message does. -/

structure SameTasks (before after : Session) : Prop where
  tasks : after.tasks = before.tasks
  flag : after.handler.challengeInFlight = before.handler.challengeInFlight

theorem SameTasks.trans {first second third : Session} (left : SameTasks first second)
    (right : SameTasks second third) : SameTasks first third where
  tasks := right.tasks.trans left.tasks
  flag := right.flag.trans left.flag

/-- What a message does to the manager, the tasks and the flag. -/
inductive Effect (feeds : Prop) (before after : Session) : Prop where
  | quiet (same : SameTasks before after) (miner : after.miner = before.miner)
  | paused (same : SameTasks before after)
      (miner : after.miner = (processBlock none before.miner).1)
  | fed (due : feeds) (block : BlockSeed) (same : SameTasks before after)
      (miner : after.miner = (processBlock (some block) before.miner).1)
  | started (task : InferenceTask) (free : before.handler.challengeInFlight = false)
      (tasks : after.tasks = before.tasks ++ [task])
      (flag : after.handler.challengeInFlight = true)
      (miner : after.miner = (processBlock none before.miner).1)

theorem Effect.after_quiet {feeds : Prop} {first second third : Session}
    (same : SameTasks first second) (miner : second.miner = first.miner)
    (effect : Effect feeds second third) : Effect feeds first third := by
  cases effect with
  | quiet later kept => exact .quiet (same.trans later) (kept.trans miner)
  | paused later kept => exact .paused (same.trans later) (miner ▸ kept)
  | fed due block later kept => exact .fed due block (same.trans later) (miner ▸ kept)
  | started task free tasks flag kept =>
      apply Effect.started task
      · exact same.flag.symm.trans free
      · rw [tasks, same.tasks]
      · exact flag
      · exact miner ▸ kept

theorem publish_pause_effect (feeds : Prop) (session : Session) :
    Effect feeds session (session.publish none).1 := .paused ⟨rfl, rfl⟩ rfl

theorem publish_job_effect {feeds : Prop} (due : feeds) (block : BlockSeed) (session : Session) :
    Effect feeds session (session.publish (some block)).1 := .fed due block ⟨rfl, rfl⟩ rfl

/-- An AI task is passed over, or starts an inference when none runs. -/
def TaskResult (before : Session) (result : Session × Bool) : Prop :=
  result.2 = false ∧ SameTasks before result.1 ∧ result.1.miner = before.miner ∨
    result.2 = true ∧ before.handler.challengeInFlight = false ∧
      ∀ feeds, Effect feeds before result.1

section Messages
variable (crates : PoolCrates) (slm : Slm)

theorem handle_challenge_effect (feeds : Prop) (modelIdHex nonceHex : String)
    (session : Session) :
    Effect feeds session (handleChallenge crates slm modelIdHex nonceHex session) := by
  unfold handleChallenge
  split
  · exact .quiet ⟨rfl, rfl⟩ rfl
  · rename_i taken
    have free : session.handler.challengeInFlight = false := Bool.eq_false_of_not_eq_true taken
    dsimp only
    split
    · exact .quiet ⟨rfl, free.symm⟩ rfl
    · split
      · exact .started _ free rfl rfl rfl
      · exact .quiet ⟨rfl, free.symm⟩ rfl

theorem handle_ai_task_result (jobId taskJson : String) (session : Session) :
    TaskResult session (handleAiTask crates slm jobId taskJson session) := by
  unfold handleAiTask
  split
  · exact Or.inl ⟨rfl, ⟨rfl, rfl⟩, rfl⟩
  · dsimp only
    split
    · exact Or.inl ⟨rfl, ⟨rfl, rfl⟩, rfl⟩
    · split
      · exact Or.inl ⟨rfl, ⟨rfl, rfl⟩, rfl⟩
      · split
        · exact Or.inl ⟨rfl, ⟨rfl, rfl⟩, rfl⟩
        · split
          · exact Or.inl ⟨rfl, ⟨rfl, rfl⟩, rfl⟩
          · split
            · exact Or.inl ⟨rfl, ⟨rfl, rfl⟩, rfl⟩
            · rename_i taken
              have free : session.handler.challengeInFlight = false :=
                Bool.eq_false_of_not_eq_true taken
              exact Or.inr ⟨rfl, free, fun _ => .started _ free rfl rfl rfl⟩

theorem gated_effect {feeds : Prop} (work : Session → Session × Handled) (session : Session)
    (works : slm.loadedModelIds ≠ [] → ∀ counted, Effect feeds counted (work counted).1) :
    Effect feeds session (gated slm work session).1 := by
  have same : SameTasks session session.countTemplate := ⟨rfl, rfl⟩
  apply Effect.after_quiet same rfl
  unfold gated
  split
  · exact publish_pause_effect feeds _
  · rename_i loaded
    exact works loaded _

theorem notify_with_task_effect {feeds : Prop} (due : slm.loadedModelIds ≠ [] → feeds)
    (id : String) (headerHash : Limbs) (timestamp daaScore : UInt64) (taskJson : String)
    (session : Session) :
    Effect feeds session
      (notifyWithTask crates slm id headerHash timestamp daaScore taskJson session).1 := by
  apply gated_effect
  intro loaded counted
  rcases handle_ai_task_result crates slm id taskJson counted with ⟨passed, same, miner⟩ | started
  · dsimp only
    rw [passed, if_neg (by decide)]
    exact Effect.after_quiet same miner (publish_job_effect (due loaded) _ _)
  · dsimp only
    rw [started.1, if_pos rfl]
    exact started.2.2 feeds

theorem notify_short_v2_effect {feeds : Prop} (due : slm.loadedModelIds ≠ [] → feeds)
    (id : String) (headerHash : Limbs) (timestamp daaScore : UInt64) (session : Session) :
    Effect feeds session (notifyShortV2 slm id headerHash timestamp daaScore session).1 := by
  apply gated_effect
  intro loaded counted
  have same : SameTasks counted (counted.withTask none) := ⟨rfl, rfl⟩
  exact Effect.after_quiet same rfl (publish_job_effect (due loaded) _ _)

theorem handle_command_effect {feeds : Prop} (line : StratumLine) (command : StratumCommand)
    (due : IsJob (.stratumCommand command) → slm.loadedModelIds ≠ [] → feeds)
    (session : Session) :
    Effect feeds session (handleCommand crates slm line command session).1 := by
  unfold handleCommand
  split
  · exact .quiet ⟨rfl, (set_extranonce_same _ _ _).flag⟩ rfl
  · exact .quiet ⟨rfl, (set_difficulty_same _ _).flag⟩ rfl
  · exact notify_with_task_effect crates slm (due trivial) _ _ _ _ _ session
  · exact notify_short_v2_effect slm (due trivial) _ _ _ _ session
  · exact notify_short_v2_effect slm (due trivial) _ _ _ _ session
  · exact handle_challenge_effect crates slm feeds _ _ session
  · exact .quiet ⟨rfl, rfl⟩ rfl

theorem handle_result_effect (feeds : Prop) (line : StratumLine) (id : UInt32)
    (result : StratumResult) (session : Session) :
    Effect feeds session (handleResult crates line id result session).1 := by
  unfold handleResult
  split
  · exact .quiet ⟨rfl, (accept_share_same _ _).flag⟩ rfl
  · exact .quiet ⟨rfl, (accept_share_same _ _).flag⟩ rfl
  · exact .quiet ⟨rfl, (set_extranonce_same _ _ _).flag⟩ rfl
  · exact .quiet ⟨rfl, rfl⟩ rfl

theorem handle_message_effect (line : StratumLine) (session : Session) :
    Effect (FeedsJob slm line) session (handleMessage crates slm line session).1 := by
  unfold handleMessage
  split
  · exact handle_result_effect crates _ line _ _ session
  · rename_i accepted command_payload
    apply handle_command_effect crates slm line
    intro job loaded
    rename_i command _ _ _
    exact ⟨accepted, command_payload ▸ job, loaded⟩
  · exact .quiet ⟨rfl, rfl⟩ rfl
  · exact .quiet ⟨rfl, (handle_error_same _ _ _).flag⟩ rfl
  · exact .quiet ⟨rfl, rfl⟩ rfl

end Messages

/-! Runs. -/

inductive Event where
  | message (slm : Slm) (line : StratumLine)
  | task (step : TaskStep)

/-- A connection listens until a message fails. -/
structure Connection where
  session : Session
  listening : Bool

def Connection.opened (blockTemplateCtr : UInt16) (stats : ShareStats) (workers : Nat) :
    Connection where
  session := ⟨StratumHandler.connect blockTemplateCtr stats, MinerManager.new workers, [], []⟩
  listening := true

def connectionStep (crates : PoolCrates) (connection : Connection) : Event → Option Connection
  | .message slm line =>
      if connection.listening then
        let (session, handled) := handleMessage crates slm line connection.session
        some ⟨session, decide (handled = .ok)⟩
      else none
  | .task step => (taskStep connection.session step).map fun session =>
      { connection with session := session }

/-- The flag is taken while a task runs, so there is at most one. -/
structure Sound (session : Session) : Prop where
  announced : PauseAnnounced session.miner
  single : session.tasks.length ≤ 1
  taken : session.tasks ≠ [] → session.handler.challengeInFlight = true
  paused : InferencePaused session

theorem Effect.sound {feeds : Prop} {before after : Session} (effect : Effect feeds before after)
    (sound : Sound before) (idle : feeds → before.tasks = []) : Sound after := by
  cases effect with
  | quiet same miner =>
      constructor
      · exact miner ▸ sound.announced
      · exact same.tasks ▸ sound.single
      · exact fun running => same.flag.trans (sound.taken (same.tasks ▸ running))
      · intro running
        rw [miner]
        exact sound.paused (same.tasks ▸ running)
  | paused same miner =>
      constructor
      · exact miner ▸ process_block_announced sound.announced none
      · exact same.tasks ▸ sound.single
      · exact fun running => same.flag.trans (sound.taken (same.tasks ▸ running))
      · exact fun _ => miner ▸ pause_paused sound.announced
  | fed due block same miner =>
      constructor
      · exact miner ▸ process_block_announced sound.announced (some block)
      · exact same.tasks ▸ sound.single
      · exact fun running => same.flag.trans (sound.taken (same.tasks ▸ running))
      · exact fun running => absurd (same.tasks.trans (idle due)) running
  | started task free tasks flag miner =>
      have none_running : before.tasks = [] := by
        by_contra running
        rw [sound.taken running] at free
        contradiction
      constructor
      · exact miner ▸ process_block_announced sound.announced none
      · rw [tasks, none_running]
        exact Nat.le_refl 1
      · exact fun _ => flag
      · exact fun _ => miner ▸ pause_paused sound.announced

theorem ended_sound {before after : Session} {place : Nat} {task : InferenceTask}
    (sound : Sound before) (running : before.tasks[place]? = some task)
    (tasks : after.tasks = before.tasks.eraseIdx place) (miner : after.miner = before.miner) :
    Sound after := by
  have place_lt : place < before.tasks.length := (List.getElem?_eq_some_iff.mp running).1
  have none_left : after.tasks = [] := by
    have single := sound.single
    apply List.eq_nil_of_length_eq_zero
    rw [tasks, List.length_eraseIdx_of_lt place_lt]
    omega
  constructor
  · exact miner ▸ sound.announced
  · simp [none_left]
  · exact fun still => absurd none_left still
  · exact fun still => absurd none_left still

theorem task_step_sound {before after : Session} {step : TaskStep}
    (stepped : taskStep before step = some after) (sound : Sound before) : Sound after := by
  cases step with
  | uploaded place cid =>
      unfold taskStep at stepped
      dsimp only at stepped
      split at stepped
      · rename_i running
        obtain rfl := Option.some.inj stepped
        have some_running : before.tasks ≠ [] := by
          intro none_running
          simp [none_running] at running
        constructor
        · exact sound.announced
        · exact (List.length_set ..).symm ▸ sound.single
        · exact fun _ => sound.taken some_running
        · exact fun _ => sound.paused some_running
      · contradiction
  | ended place text =>
      unfold taskStep at stepped
      dsimp only at stepped
      split at stepped
      · rename_i running
        obtain rfl := Option.some.inj stepped
        exact ended_sound sound running rfl rfl
      · rename_i running
        obtain rfl := Option.some.inj stepped
        exact ended_sound sound running rfl rfl
      · contradiction

/-- A notify that feeds a job finds no task running. -/
def IdleAtJob (before : Connection) : Event → Prop
  | .message slm line => FeedsJob slm line → before.session.tasks = []
  | .task _ => True

theorem connection_step_sound (crates : PoolCrates) (before : Connection) (event : Event)
    (after : Connection) (sound : Sound before.session)
    (stepped : connectionStep crates before event = some after) (idle : IdleAtJob before event) :
    Sound after.session := by
  cases event with
  | message slm line =>
      unfold connectionStep at stepped
      dsimp only at stepped
      split at stepped
      · obtain rfl := Option.some.inj stepped
        exact (handle_message_effect crates slm line before.session).sound sound idle
      · contradiction
  | task step =>
      obtain ⟨session, task_stepped, rfl⟩ := Option.map_eq_some_iff.mp stepped
      exact task_step_sound task_stepped sound

theorem opened_sound (blockTemplateCtr : UInt16) (stats : ShareStats) (workers : Nat) :
    Sound (Connection.opened blockTemplateCtr stats workers).session where
  announced := new_announced workers
  single := Nat.zero_le 1
  taken := fun running => absurd rfl running
  paused := fun running => absurd rfl running

/-- In a connection whose jobs arrive while no task runs. -/
theorem stratum_inference_pauses (crates : PoolCrates) (blockTemplateCtr : UInt16)
    (stats : ShareStats) (workers : Nat) (events : List Event)
    (idle : EveryStep (connectionStep crates) (fun before event _ => IdleAtJob before event)
      (Connection.opened blockTemplateCtr stats workers) events) :
    EveryStep (connectionStep crates) (fun _ _ after => InferencePaused after.session)
      (Connection.opened blockTemplateCtr stats workers) events := by
  apply every_step_of_invariant (fun connection => Sound connection.session)
    (fun before event after sound stepped free =>
      connection_step_sound crates before event after sound stepped free)
    (fun before event after sound stepped free =>
      (connection_step_sound crates before event after sound stepped free).paused)
    events _ (opened_sound blockTemplateCtr stats workers) idle

/-! A job that finds a task running. -/

theorem share_resumes {manager : MinerManager} (share : PartialBlock)
    (heard : manager.receivers ≠ 0) :
    ¬ (processBlock (some (.partialBlock share)) manager).1.Paused := by
  simp [processBlock, Job.new, send, heard, MinerManager.Paused]

section Resumed
variable (crates : PoolCrates) (slm : Slm)

/-- The flag does not keep a notify from publishing its job. -/
theorem job_resumes_mining {line : StratumLine} {session : Session} (feeds : FeedsJob slm line)
    (taken : session.handler.challengeInFlight = true) (heard : session.miner.receivers ≠ 0) :
    ¬ (handleMessage crates slm line session).1.miner.Paused := by
  obtain ⟨accepted, job, loaded⟩ := feeds
  obtain ⟨id, payload, jsonrpc, error⟩ := line
  cases payload with
  | stratumResult _ => exact job.elim
  | stratumCommand command =>
      obtain rfl : error = none := accepted
      cases command with
      | miningNotify notify =>
          cases notify with
          | withTask id headerHash timestamp daaScore taskJson =>
              rcases handle_ai_task_result crates slm id taskJson session.countTemplate with
                ⟨passed, _, kept⟩ | started
              · simp only [handleMessage, handleCommand, notifyWithTask, gated, if_neg loaded,
                  passed]
                apply share_resumes
                rw [kept]
                exact heard
              · have free : session.handler.challengeInFlight = false := started.2.1
                rw [taken] at free
                contradiction
          | shortV2 id headerHash timestamp daaScore =>
              simp only [handleMessage, handleCommand, notifyShortV2, gated, if_neg loaded]
              exact share_resumes _ heard
          | short id headerHash timestamp =>
              simp only [handleMessage, handleCommand, notifyShort, notifyShortV2, gated,
                if_neg loaded]
              exact share_resumes _ heard
          | long => exact job.elim
      | _ => exact job.elim

end Resumed

/-! A challenge and a job. -/

def challengeModel : String := "1111111111111111111111111111111111111111111111111111111111111111"

def poolCrates : PoolCrates where
  hexDecode text := if text = challengeModel then some (List.replicate 32 0x11) else none
  parseTask _ := none
  debug _ := ""

def readySlm : Slm where
  loadedModelIds := [⟨List.replicate 32 0x11, rfl⟩]
  isModelReady _ := true

def commandLine (command : StratumCommand) : StratumLine :=
  ⟨none, .stratumCommand command, none, none⟩

def challengeLine : StratumLine := commandLine (.miningChallenge challengeModel "00ff")

def jobLine : StratumLine :=
  commandLine (.miningNotify (.shortV2 "7" #v[1, 2, 3, 4] 5 pomActivationDaa))

def noShares : ShareStats := ⟨0, 0, 0, 0, ∅⟩

/-- The job comes after the end of the challenge. -/
def answeredEvents : List Event :=
  [.message readySlm challengeLine, .task (.ended 0 (some "a miner")), .message readySlm jobLine]

def interruptedEvents : List Event :=
  [.message readySlm challengeLine, .message readySlm jobLine]

theorem stratum_inference_pauses_answered :
    (∃ challenged, runFrom (connectionStep poolCrates) (Connection.opened 0 noShares 1)
        [.message readySlm challengeLine] = some challenged ∧
      challenged.session.tasks ≠ [] ∧ challenged.session.miner.Paused) ∧
    EveryStep (connectionStep poolCrates) (fun _ _ after => InferencePaused after.session)
      (Connection.opened 0 noShares 1) answeredEvents := by
  constructor
  · exact ⟨_, rfl, by decide, rfl⟩
  · apply stratum_inference_pauses poolCrates 0 noShares 1 answeredEvents
    intro challenged stepped
    obtain rfl := Option.some.inj stepped
    refine ⟨fun _ => rfl, ?_⟩
    intro answered stepped
    obtain rfl := Option.some.inj stepped
    refine ⟨trivial, ?_⟩
    intro resumed _
    exact ⟨fun _ => rfl, trivial⟩

/-- A job resumes mining under the challenge. -/
theorem job_interrupts_challenge :
    ¬ ∀ (crates : PoolCrates) (blockTemplateCtr : UInt16) (stats : ShareStats) (workers : Nat)
      (events : List Event),
      EveryStep (connectionStep crates) (fun _ _ after => InferencePaused after.session)
        (Connection.opened blockTemplateCtr stats workers) events := by
  intro pauses
  have challenged := pauses poolCrates 0 noShares 1 interruptedEvents _ rfl
  have resumed := (challenged.2 _ rfl).1
  have published := resumed (by decide)
  contradiction

end KeryxMiner.InferencePause
