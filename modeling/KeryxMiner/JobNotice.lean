import KeryxMiner.PauseObedience

/-!
Between two launches for one job the GPU worker looks at the channel, unless a
turn takes one of the paths that go round the poll.
-/

namespace KeryxMiner.JobNotice

open MinerJobs TransitionRuns MinerWorkers WorkerLaws PauseObedience

/-- The worker looks at the channel. -/
def Polls : Seen → Prop
  | .read _ | .polled => True
  | .launched _ | .tested _ _ => False

/-- Between two consecutive launches for one job the channel is polled. -/
def NoticesJobs (trace : List Seen) : Prop :=
  ∀ before middle after job,
    trace = before ++ .launched job :: (middle ++ .launched job :: after) →
    (∀ other, .launched other ∉ middle) → ∃ seen ∈ middle, Polls seen

/-- The job launched since the last poll; a second launch for it is refused. -/
def launchMonitor : Option Job → Seen → Option (Option Job)
  | _, .read _ => some none
  | _, .polled => some none
  | unpolled, .launched job => if unpolled = some job then none else some (some job)
  | unpolled, .tested _ _ => some unpolled

theorem launch_lasts {middle : List Seen} {job : Job} {last : Option Job}
    (ran : runFrom launchMonitor (some job) middle = some last)
    (no_launch : ∀ other, .launched other ∉ middle) (no_poll : ∀ seen ∈ middle, ¬ Polls seen) :
    last = some job := by
  induction middle with
  | nil => exact (Option.some.inj ran).symm
  | cons seen rest ih =>
      have later_launch : ∀ other, .launched other ∉ rest := fun other member =>
        no_launch other (List.mem_cons_of_mem _ member)
      have later_poll : ∀ other ∈ rest, ¬ Polls other := fun other member =>
        no_poll other (List.mem_cons_of_mem _ member)
      cases seen with
      | read _ => exact absurd trivial (no_poll _ (List.mem_cons_self ..))
      | polled => exact absurd trivial (no_poll _ (List.mem_cons_self ..))
      | launched other => exact absurd (List.mem_cons_self ..) (no_launch other)
      | tested _ _ => exact ih ran later_launch later_poll

theorem launch_monitor_notices {trace : List Seen} {last : Option Job}
    (ran : runFrom launchMonitor none trace = some last) : NoticesJobs trace := by
  rintro before middle after job rfl no_launch
  by_contra no_poll
  obtain ⟨unpolled, launched, _, stepped, continues⟩ := run_from_around ran
  have first : launched = some job := by
    unfold launchMonitor at stepped
    dsimp only at stepped
    split at stepped
    · contradiction
    · exact (Option.some.inj stepped).symm
  rw [first] at continues
  obtain ⟨reached, _, quiet, refused, _⟩ := run_from_around continues
  obtain rfl := launch_lasts quiet no_launch fun seen member polls => no_poll ⟨seen, member, polls⟩
  simp [launchMonitor] at refused

/-- A running worker has polled since its last launch, or dropped the job. -/
def PolledOrDropped (unpolled : Option Job) (worker : GpuWorker) : Prop :=
  worker.running = true → unpolled = none ∨ worker.state = none

/-- What a turn on the job must meet for its poll to be reached or its job to be
dropped: a nonce found by the proof-of-model branch gives a full block; the
other branch synchronises, and its valid nonces are for a full block. -/
def ReachesPoll (turn : GpuTurn) (job : Job) : Prop :=
  if pomActivationDaa ≤ job.daaScore then
    turn.mined.isSome → turn.built = true ∧ job.block.isFull = true
  else
    turn.synced = true ∧
      (turn.copied = true → turn.output ≠ 0 → turn.valid = true → job.block.isFull = true)

def NoPollSkipped (before : Traced GpuWorker) (turn : GpuTurn) : Prop :=
  ∀ job, jobInHand turn.waited before.worker = some job → ReachesPoll turn job

theorem wait_runs (waited : Waited) (worker : GpuWorker) (unpolled : Option Job)
    (running : worker.running = true) (fit : PolledOrDropped unpolled worker) :
    ∃ later, runFrom launchMonitor unpolled (worker.wait waited).2 = some later ∧
      (later = none ∨ (worker.wait waited).1.state = none) := by
  unfold GpuWorker.wait
  cases held : worker.state with
  | some job =>
      refine ⟨unpolled, rfl, Or.inl ?_⟩
      apply (fit running).resolve_right
      simp [held]
  | none =>
      cases waited with
      | closed => exact ⟨none, rfl, Or.inl rfl⟩
      | command command => exact ⟨none, rfl, Or.inl rfl⟩

theorem poll_notices (polled : Polled) (onPause : Option Job) (worker : GpuWorker)
    (unpolled : Option Job) :
    ∃ later, runFrom launchMonitor unpolled (worker.poll polled onPause).2 = some later ∧
      PolledOrDropped later (worker.poll polled onPause).1 := by
  cases polled with
  | command command => exact ⟨none, rfl, fun _ => Or.inl rfl⟩
  | unchanged => exact ⟨none, rfl, fun _ => Or.inl rfl⟩
  | closed => exact ⟨none, rfl, fun _ => Or.inl rfl⟩

theorem pom_turn_notices (turn : GpuTurn) (job : Job) (worker : GpuWorker)
    (whole : turn.mined.isSome → turn.built = true ∧ job.block.isFull = true)
    (unpolled : Option Job) :
    ∃ later, runFrom launchMonitor unpolled (worker.pomTurn turn job).2 = some later ∧
      PolledOrDropped later (worker.pomTurn turn job).1 := by
  apply pom_turn_cases turn job worker fun outcome =>
    ∃ later, runFrom launchMonitor unpolled outcome.2 = some later ∧
      PolledOrDropped later outcome.1
  · exact fun _ _ _ _ => ⟨unpolled, rfl, fun _ => Or.inr rfl⟩
  · intro _ _ mined part
    obtain ⟨built, full⟩ := whole mined
    exact absurd (by rw [built, full]; rfl) part
  · exact fun _ _ _ => poll_notices turn.polled (some job) _ unpolled

theorem heavy_turn_notices (turn : GpuTurn) (job : Job) (worker : GpuWorker)
    (synced : turn.synced = true)
    (full : turn.copied = true → turn.output ≠ 0 → turn.valid = true → job.block.isFull = true)
    (unpolled : Option Job) :
    ∃ later, runFrom launchMonitor unpolled (worker.heavyTurn turn job).2 = some later ∧
      PolledOrDropped later (worker.heavyTurn turn job).1 := by
  apply heavy_turn_cases turn job worker fun outcome =>
    ∃ later, runFrom launchMonitor unpolled outcome.2 = some later ∧
      PolledOrDropped later outcome.1
  · intro unsynced
    rw [synced] at unsynced
    contradiction
  · exact fun _ => ⟨unpolled, rfl, fun stopped => by contradiction⟩
  · intro copied found valid
    refine ⟨unpolled, rfl, fun _ => Or.inr ?_⟩
    exact if_pos (full copied found.1 valid)
  · exact fun _ _ => ⟨unpolled, rfl, fun stopped => by contradiction⟩
  · exact fun _ => poll_notices turn.polled none _ unpolled

theorem batch_notices (turn : GpuTurn) (job : Job) (worker : GpuWorker)
    (reaches : ReachesPoll turn job) :
    ∃ later, runFrom launchMonitor none (worker.batch turn job).2 = some later ∧
      PolledOrDropped later (worker.batch turn job).1 := by
  unfold ReachesPoll at reaches
  by_cases active : pomActivationDaa ≤ job.daaScore
  · rw [if_pos active] at reaches
    rw [batch_pom turn job worker active]
    exact pom_turn_notices turn job worker reaches (some job)
  · rw [if_neg active] at reaches
    rw [batch_heavy turn job worker active]
    exact heavy_turn_notices turn job worker reaches.1 reaches.2 (some job)

theorem turn_notices (turn : GpuTurn) (worker : GpuWorker) (running : worker.running = true)
    (reaches : ∀ job, jobInHand turn.waited worker = some job → ReachesPoll turn job) :
    Keeps launchMonitor PolledOrDropped worker (gpuTurn turn worker).2 (gpuTurn turn worker).1 := by
  intro unpolled fit
  obtain ⟨middle, waits, dropped⟩ := wait_runs turn.waited worker unpolled running fit
  unfold gpuTurn
  dsimp only
  split
  · rename_i idle
    exact ⟨middle, waits, fun _ => Or.inr idle⟩
  · rename_i job held
    have polled : middle = none := dropped.resolve_right (by simp [held])
    rw [wait_state] at held
    obtain ⟨later, works, fit_later⟩ := batch_notices turn job (worker.wait turn.waited).1
      (reaches job held)
    refine ⟨later, ?_, fit_later⟩
    rw [run_from_append, waits, polled]
    exact works

/-- In a run in which no turn goes round the poll. -/
theorem gpu_notices_jobs (pomNonce : UInt64) (turns : List GpuTurn) (last : Traced GpuWorker)
    (no_skip : EveryStep gpuStep (fun before turn _ => NoPollSkipped before turn)
      (GpuWorker.spawned pomNonce) turns)
    (ran : runFrom gpuStep (GpuWorker.spawned pomNonce) turns = some last) :
    NoticesJobs last.trace := by
  obtain ⟨_, accepted, _⟩ := invariant_end (Follows launchMonitor PolledOrDropped none)
    (fun before turn after follows stepped reaches => gpu_step_follows follows stepped
      fun running => turn_notices turn before.worker running reaches)
    turns _ last ⟨none, rfl, fun _ => Or.inl rfl⟩ no_skip ran
  exact launch_monitor_notices accepted

/-! Turns whose synchronisation fails. -/

def failedTurn (waited : Waited) : GpuTurn :=
  { emptyTurn waited .unchanged with synced := false }

def polledTurns : List GpuTurn :=
  [emptyTurn (.command (some (.job (jobAt 1)))) .unchanged, emptyTurn .closed .unchanged]

def failedTurns : List GpuTurn :=
  [failedTurn (.command (some (.job (jobAt 1)))), failedTurn .closed]

theorem empty_turn_reaches (waited : Waited) (polled : Polled) (job : Job)
    (inactive : ¬ pomActivationDaa ≤ job.daaScore) : ReachesPoll (emptyTurn waited polled) job := by
  unfold ReachesPoll
  rw [if_neg inactive]
  exact ⟨rfl, fun _ found => absurd rfl found⟩

/-- Two launches for one job, with a poll between them. -/
theorem gpu_notices_jobs_polled :
    ∃ last, runFrom gpuStep (GpuWorker.spawned 0) polledTurns = some last ∧
      last.trace = [.read (some (.job (jobAt 1))), .launched (jobAt 1), .polled,
        .launched (jobAt 1), .polled] ∧ NoticesJobs last.trace := by
  refine ⟨_, rfl, rfl, gpu_notices_jobs 0 polledTurns _ ?_ rfl⟩
  intro first stepped
  obtain rfl := Option.some.inj stepped
  constructor
  · intro job held
    obtain rfl := Option.some.inj held
    exact empty_turn_reaches _ _ _ (by decide)
  · intro second _
    refine ⟨?_, trivial⟩
    intro job held
    obtain rfl := Option.some.inj held
    exact empty_turn_reaches _ _ _ (by decide)

/-- As long as the synchronisation fails the worker launches the same job. -/
theorem failed_sync_skips_poll :
    ¬ ∀ (pomNonce : UInt64) (turns : List GpuTurn) (last : Traced GpuWorker),
      runFrom gpuStep (GpuWorker.spawned pomNonce) turns = some last → NoticesJobs last.trace := by
  intro notices
  have relaunched := notices 0 failedTurns _ rfl
  obtain ⟨seen, member, _⟩ := relaunched [.read (some (.job (jobAt 1)))] [] [] (jobAt 1) rfl
    fun _ => List.not_mem_nil
  exact List.not_mem_nil member

end KeryxMiner.JobNotice
