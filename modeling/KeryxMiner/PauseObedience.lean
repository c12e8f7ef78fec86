import KeryxMiner.WorkerLaws

/-!
After a pause that it reads a worker waits for a job before it works again.
-/

namespace KeryxMiner.PauseObedience

open MinerJobs TransitionRuns MinerWorkers WorkerLaws

/-- The worker launches a batch or tests a nonce. -/
def Works : Seen → Prop
  | .launched _ | .tested _ _ => True
  | .read _ | .polled => False

/-- Between a pause that is read and the next work a job is read. -/
def PauseObeyed (trace : List Seen) : Prop :=
  ∀ before middle after work, trace = before ++ .read none :: (middle ++ work :: after) →
    Works work → ∃ job, .read (some (.job job)) ∈ middle

/-! The pause. -/

/-- Whether the last command read was the pause; work is refused after it. -/
def pauseMonitor : Bool → Seen → Option Bool
  | _, .read none => some true
  | _, .read (some (.job _)) => some false
  | paused, .read (some .close) => some paused
  | paused, .polled => some paused
  | paused, .launched _ => if paused then none else some false
  | paused, .tested _ _ => if paused then none else some false

theorem pause_lasts {middle : List Seen} {last : Bool}
    (ran : runFrom pauseMonitor true middle = some last)
    (no_job : ∀ job, .read (some (.job job)) ∉ middle) : last = true := by
  induction middle with
  | nil => exact (Option.some.inj ran).symm
  | cons seen rest ih =>
      obtain ⟨next, stepped, continues⟩ := Option.bind_eq_some_iff.mp ran
      have later : ∀ job, .read (some (.job job)) ∉ rest := fun job member =>
        no_job job (List.mem_cons_of_mem _ member)
      have still : next = true := by
        cases seen with
        | read command =>
            cases command with
            | none => exact (Option.some.inj stepped).symm
            | some sent =>
                cases sent with
                | job state => exact absurd (List.mem_cons_self ..) (no_job state)
                | close => exact (Option.some.inj stepped).symm
        | polled => exact (Option.some.inj stepped).symm
        | launched _ => contradiction
        | tested _ _ => contradiction
      rw [still] at continues
      exact ih continues later

theorem pause_monitor_obeys {trace : List Seen} {last : Bool}
    (ran : runFrom pauseMonitor false trace = some last) : PauseObeyed trace := by
  rintro before middle after work rfl works
  by_contra no_job
  obtain ⟨_, paused, _, stepped, continues⟩ := run_from_around ran
  obtain rfl := Option.some.inj stepped
  obtain ⟨reached, _, quiet, refused, _⟩ := run_from_around continues
  obtain rfl := pause_lasts quiet fun job member => no_job ⟨job, member⟩
  cases work with
  | read _ => exact works
  | polled => exact works
  | launched _ => contradiction
  | tested _ _ => contradiction

/-! Pauses and the GPU worker. -/

/-- A worker that knows of the pause has no job. -/
def NoJobPaused (paused : Bool) (worker : GpuWorker) : Prop := paused = true → worker.state = none

theorem gpu_wait_pauses (waited : Waited) (worker : GpuWorker) :
    Keeps pauseMonitor NoJobPaused worker (worker.wait waited).2 (worker.wait waited).1 := by
  unfold GpuWorker.wait
  cases held : worker.state with
  | some job => exact Keeps.idle worker
  | none =>
      intro paused _
      cases waited with
      | closed => exact ⟨paused, rfl, fun _ => rfl⟩
      | command command =>
          cases command with
          | none => exact ⟨true, rfl, fun _ => rfl⟩
          | some sent =>
              cases sent with
              | job next => exact ⟨false, rfl, fun still => by contradiction⟩
              | close => exact ⟨paused, rfl, fun _ => held⟩

/-- A poll that drops the job at a pause, or meets no pause. -/
theorem gpu_poll_pauses (polled : Polled) (onPause : Option Job) (worker : GpuWorker)
    (drops : onPause = none ∨ polled ≠ .command none) :
    Keeps pauseMonitor NoJobPaused worker (worker.poll polled onPause).2
      (worker.poll polled onPause).1 := by
  intro paused fit
  cases polled with
  | closed => exact ⟨paused, rfl, fit⟩
  | unchanged => exact ⟨paused, rfl, fit⟩
  | command command =>
      cases command with
      | none => exact ⟨true, rfl, fun _ => drops.resolve_right fun differs => differs rfl⟩
      | some sent =>
          cases sent with
          | job next => exact ⟨false, rfl, fun still => by contradiction⟩
          | close => exact ⟨paused, rfl, fit⟩

/-- The poll of the proof-of-model branch reads no pause. -/
def NoPausePolled (before : Traced GpuWorker) (turn : GpuTurn) : Prop :=
  ∀ job, jobInHand turn.waited before.worker = some job →
    pomActivationDaa ≤ job.daaScore → turn.mined = none → turn.polled ≠ .command none

theorem launch_pauses (job : Job) (worker after : GpuWorker) (seen : List Seen)
    (held : worker.state = some job)
    (keeps : Keeps pauseMonitor NoJobPaused worker seen after) :
    Keeps pauseMonitor NoJobPaused worker (.launched job :: seen) after := by
  intro paused fit
  cases paused with
  | true =>
      rw [fit rfl] at held
      contradiction
  | false => exact keeps false fit

theorem pom_turn_pauses (turn : GpuTurn) (job : Job) (worker : GpuWorker)
    (unpaused : turn.mined = none → turn.polled ≠ .command none) :
    Keeps pauseMonitor NoJobPaused worker (worker.pomTurn turn job).2
      (worker.pomTurn turn job).1 := by
  intro paused fit
  apply pom_turn_cases turn job worker fun outcome =>
    ∃ later, runFrom pauseMonitor paused outcome.2 = some later ∧ NoJobPaused later outcome.1
  · exact fun _ _ _ _ => ⟨paused, rfl, fun _ => rfl⟩
  · exact fun _ _ _ _ => ⟨paused, rfl, fun still => fit still⟩
  · intro nonce tried not_mined
    exact gpu_poll_pauses turn.polled (some job) _ (Or.inr (unpaused not_mined)) paused
      fun still => fit still

theorem heavy_turn_pauses (turn : GpuTurn) (job : Job) (worker : GpuWorker)
    (held : worker.state = some job) :
    Keeps pauseMonitor NoJobPaused worker (worker.heavyTurn turn job).2
      (worker.heavyTurn turn job).1 := by
  intro paused fit
  have awake : paused = false := by
    cases paused with
    | true =>
        rw [fit rfl] at held
        contradiction
    | false => rfl
  subst awake
  have awake_fits (other : GpuWorker) : NoJobPaused false other := fun still => by contradiction
  apply heavy_turn_cases turn job worker fun outcome =>
    ∃ later, runFrom pauseMonitor false outcome.2 = some later ∧ NoJobPaused later outcome.1
  · exact fun _ => ⟨false, rfl, awake_fits _⟩
  · exact fun _ => ⟨false, rfl, awake_fits _⟩
  · exact fun _ _ _ => ⟨false, rfl, awake_fits _⟩
  · exact fun _ _ => ⟨false, rfl, awake_fits _⟩
  · exact fun _ => gpu_poll_pauses turn.polled none _ (Or.inl rfl) false (awake_fits _)

theorem gpu_batch_pauses (turn : GpuTurn) (job : Job) (worker : GpuWorker)
    (held : worker.state = some job)
    (unpaused : pomActivationDaa ≤ job.daaScore → turn.mined = none →
      turn.polled ≠ .command none) :
    Keeps pauseMonitor NoJobPaused worker (worker.batch turn job).2 (worker.batch turn job).1 := by
  by_cases active : pomActivationDaa ≤ job.daaScore
  · rw [batch_pom turn job worker active]
    exact launch_pauses job worker _ _ held (pom_turn_pauses turn job worker (unpaused active))
  · rw [batch_heavy turn job worker active]
    exact launch_pauses job worker _ _ held (heavy_turn_pauses turn job worker held)

theorem gpu_follows_pauses (before : Traced GpuWorker) (turn : GpuTurn) (after : Traced GpuWorker)
    (follows : Follows pauseMonitor NoJobPaused false before)
    (stepped : gpuStep before turn = some after) (unpaused : NoPausePolled before turn) :
    Follows pauseMonitor NoJobPaused false after := by
  apply gpu_step_follows follows stepped
  intro _
  apply gpu_turn_keeps
  · exact gpu_wait_pauses turn.waited before.worker
  · intro job held
    apply gpu_batch_pauses turn job
    · exact (wait_state turn.waited before.worker).trans held
    · exact unpaused job held

/-! Pauses and the CPU worker. -/

def CpuNoJobPaused (paused : Bool) (worker : CpuWorker) : Prop :=
  paused = true → worker.state = none

theorem cpu_receive_pauses (command : Command) (worker : CpuWorker) :
    Keeps pauseMonitor CpuNoJobPaused worker [.read command] (worker.receive command) := by
  intro paused fit
  cases command with
  | none => exact ⟨true, rfl, fun _ => rfl⟩
  | some sent =>
      cases sent with
      | job next => exact ⟨false, rfl, fun still => by contradiction⟩
      | close => exact ⟨paused, rfl, fit⟩

theorem refresh_state (worker : CpuWorker) : worker.refresh.state = worker.state := by
  unfold CpuWorker.refresh
  split
  · rfl
  · rfl

theorem cpu_wait_pauses (waited : Waited) (worker : CpuWorker) :
    Keeps pauseMonitor CpuNoJobPaused worker (worker.wait waited).2 (worker.wait waited).1 := by
  unfold CpuWorker.wait
  split
  · exact Keeps.idle worker
  · split
    · rename_i command
      intro paused fit
      obtain ⟨later, ran, fit_later⟩ := cpu_receive_pauses command worker paused fit
      exact ⟨later, ran, fun still => (refresh_state _).trans (fit_later still)⟩
    · exact fun paused fit => ⟨paused, rfl, fit⟩

theorem cpu_poll_pauses (polled : Polled) (worker : CpuWorker) :
    Keeps pauseMonitor CpuNoJobPaused worker (worker.poll polled).2 (worker.poll polled).1 := by
  unfold CpuWorker.poll
  split
  · split
    · exact cpu_receive_pauses _ worker
    · exact fun paused fit => ⟨paused, rfl, fit⟩
    · exact fun paused fit => ⟨paused, rfl, fit⟩
  · exact Keeps.idle worker

theorem cpu_test_pauses (turn : CpuTurn) (job : Job) (worker : CpuWorker)
    (held : worker.state = some job) :
    Keeps pauseMonitor CpuNoJobPaused worker (worker.test turn job).2
      (worker.test turn job).1 := by
  intro paused fit
  cases paused with
  | true =>
      rw [fit rfl] at held
      contradiction
  | false => exact cpu_poll_pauses turn.polled _ false fun still => by contradiction

theorem cpu_follows_pauses (before : Traced CpuWorker) (turn : CpuTurn) (after : Traced CpuWorker)
    (follows : Follows pauseMonitor CpuNoJobPaused false before)
    (stepped : cpuStep before turn = some after) :
    Follows pauseMonitor CpuNoJobPaused false after := by
  apply cpu_step_follows follows stepped
  apply cpu_turn_keeps
  · exact cpu_wait_pauses turn.waited before.worker
  · intro job held
    exact cpu_test_pauses turn job _ held

/-- The CPU worker obeys every pause, the GPU worker every pause that its
proof-of-model branch does not poll. -/
theorem workers_obey_pause (pomNonce nonce : UInt64) (gpuTurns : List GpuTurn)
    (cpuTurns : List CpuTurn) (gpu : Traced GpuWorker) (cpu : Traced CpuWorker)
    (gpu_ran : runFrom gpuStep (GpuWorker.spawned pomNonce) gpuTurns = some gpu)
    (cpu_ran : runFrom cpuStep (CpuWorker.spawned nonce) cpuTurns = some cpu) :
    (EveryStep gpuStep (fun before turn _ => NoPausePolled before turn)
        (GpuWorker.spawned pomNonce) gpuTurns → PauseObeyed gpu.trace) ∧
      PauseObeyed cpu.trace := by
  constructor
  · intro unpolled
    obtain ⟨_, accepted, _⟩ := invariant_end (Follows pauseMonitor NoJobPaused false)
      (fun before turn after follows stepped may =>
        gpu_follows_pauses before turn after follows stepped may)
      gpuTurns _ gpu ⟨false, rfl, fun still => by contradiction⟩ unpolled gpu_ran
    exact pause_monitor_obeys accepted
  · obtain ⟨_, accepted, _⟩ := invariant_end (Follows pauseMonitor CpuNoJobPaused false)
      (fun before turn after follows stepped _ =>
        cpu_follows_pauses before turn after follows stepped)
      cpuTurns _ cpu ⟨false, rfl, fun still => by contradiction⟩
      (every_step_trivial cpuTurns _) cpu_ran
    exact pause_monitor_obeys accepted

/-! Sample turns. -/

def jobAt (daaScore : UInt64) : Job where
  id := 0
  block := .fullBlock ⟨some { daaScore }, [], none⟩
  nonceMask := 0xffffffffffffffff
  nonceFixed := 0
  daaScore := daaScore

/-- A turn that finds nothing. -/
def emptyTurn (waited : Waited) (polled : Polled) : GpuTurn where
  waited := waited
  mined := none
  built := false
  synced := true
  copied := true
  output := 0
  valid := false
  workload := 1
  polled := polled

def emptyCpuTurn (waited : Waited) (polled : Polled) : CpuTurn := ⟨waited, false, polled⟩

/-- A pause in the branch before the activation, then batches of the proof-of-model branch: one
without a nonce and one with, and a job that is read in it. -/
def resumedTurns : List GpuTurn :=
  [emptyTurn (.command (some (.job (jobAt 1)))) (.command none),
    emptyTurn (.command (some (.job (jobAt pomActivationDaa)))) .unchanged,
    { emptyTurn .closed .unchanged with mined := some 7 },
    emptyTurn .closed (.command (some (.job (jobAt 2))))]

def resumedCpuTurns : List CpuTurn :=
  [emptyCpuTurn (.command (some (.job (jobAt 1)))) (.command none),
    emptyCpuTurn (.command (some (.job (jobAt 2)))) .unchanged]

theorem resumed_unpolled :
    EveryStep gpuStep (fun before turn _ => NoPausePolled before turn)
      (GpuWorker.spawned 0) resumedTurns := by
  intro first stepped
  obtain rfl := Option.some.inj stepped
  constructor
  · intro job held active
    obtain rfl := Option.some.inj held
    exact absurd active (by decide)
  · intro second _
    refine ⟨fun _ _ _ _ => nofun, ?_⟩
    intro third _
    refine ⟨fun _ _ _ mined => absurd mined (by decide), ?_⟩
    intro fourth _
    exact ⟨fun _ _ _ _ => nofun, trivial⟩

/-- Both workers read a job, a pause and another job; the GPU worker goes on in the
proof-of-model branch. -/
theorem workers_obey_pause_resumed :
    ∃ gpu cpu, runFrom gpuStep (GpuWorker.spawned 0) resumedTurns = some gpu ∧
      runFrom cpuStep (CpuWorker.spawned 127) resumedCpuTurns = some cpu ∧
      .read none ∈ gpu.trace ∧ gpu.trace.count (.launched (jobAt pomActivationDaa)) = 3 ∧
      .read none ∈ cpu.trace ∧ PauseObeyed gpu.trace ∧ PauseObeyed cpu.trace := by
  have obeyed := workers_obey_pause 0 127 resumedTurns resumedCpuTurns _ _ rfl rfl
  exact ⟨_, _, rfl, rfl, by decide, by decide, by decide, obeyed.1 resumed_unpolled, obeyed.2⟩

def ignoredTurns : List GpuTurn :=
  [emptyTurn (.command (some (.job (jobAt pomActivationDaa)))) (.command none),
    emptyTurn .closed .unchanged]

/-- The proof-of-model branch keeps its job at a pause. -/
theorem pom_branch_ignores_pause :
    ¬ ∀ (pomNonce : UInt64) (turns : List GpuTurn) (last : Traced GpuWorker),
      runFrom gpuStep (GpuWorker.spawned pomNonce) turns = some last → PauseObeyed last.trace := by
  intro obeyed
  have idle := obeyed 0 ignoredTurns _ rfl
  obtain ⟨job, member⟩ := idle
    [.read (some (.job (jobAt pomActivationDaa))), .launched (jobAt pomActivationDaa)] []
    [.polled] (.launched (jobAt pomActivationDaa)) rfl trivial
  exact List.not_mem_nil member

end KeryxMiner.PauseObedience
