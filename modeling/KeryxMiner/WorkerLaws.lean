import KeryxMiner.MinerWorkers
import Mathlib.Tactic.Common

/-!
Laws of the workers' traces. Each is checked by a monitor, a partial step
function over what the worker does, that a worker's turns keep in a state that
matches the worker's own.
-/

namespace KeryxMiner.WorkerLaws

open MinerJobs TransitionRuns MinerWorkers

/-! Monitors beside a worker. -/

section Monitors
variable {Mode Worker : Type} (monitor : Mode → Seen → Option Mode) (fits : Mode → Worker → Prop)

/-- The monitor accepts what the worker did and fits it again afterwards. -/
def Keeps (before : Worker) (seen : List Seen) (after : Worker) : Prop :=
  ∀ mode, fits mode before →
    ∃ later, runFrom monitor mode seen = some later ∧ fits later after

def Follows (start : Mode) (traced : Traced Worker) : Prop :=
  ∃ mode, runFrom monitor start traced.trace = some mode ∧ fits mode traced.worker

variable {monitor fits}

theorem Keeps.idle (worker : Worker) : Keeps monitor fits worker [] worker :=
  fun mode fit => ⟨mode, rfl, fit⟩

theorem Keeps.trans {before middle after : Worker} {first second : List Seen}
    (left : Keeps monitor fits before first middle)
    (right : Keeps monitor fits middle second after) :
    Keeps monitor fits before (first ++ second) after := by
  intro mode fit
  obtain ⟨between, ran, fit_between⟩ := left mode fit
  obtain ⟨later, continues, fit_later⟩ := right between fit_between
  refine ⟨later, ?_, fit_later⟩
  rw [run_from_append, ran]
  exact continues

theorem Follows.step {start : Mode} {traced : Traced Worker} {after : Worker} {seen : List Seen}
    (follows : Follows monitor fits start traced)
    (keeps : Keeps monitor fits traced.worker seen after) :
    Follows monitor fits start ⟨after, traced.trace ++ seen⟩ := by
  obtain ⟨mode, ran, fit⟩ := follows
  obtain ⟨later, continues, fit_later⟩ := keeps mode fit
  refine ⟨later, ?_, fit_later⟩
  rw [run_from_append, ran]
  exact continues

end Monitors

/-! The job of a GPU turn. -/

/-- The job a turn works on: the one held, or else the one it waited for. -/
def jobInHand (waited : Waited) (worker : GpuWorker) : Option Job :=
  match worker.state, waited with
  | some job, _ => some job
  | none, .command (some (.job next)) => some next
  | none, .command (some .close) => none
  | none, .command none => none
  | none, .closed => none

theorem wait_state (waited : Waited) (worker : GpuWorker) :
    (worker.wait waited).1.state = jobInHand waited worker := by
  unfold GpuWorker.wait jobInHand
  cases held : worker.state with
  | some job => exact held
  | none =>
      cases waited with
      | closed => rfl
      | command command =>
          cases command with
          | none => rfl
          | some sent =>
              cases sent with
              | job next => rfl
              | close => exact held

section GpuTurns
variable {Mode : Type} {monitor : Mode → Seen → Option Mode} {fits : Mode → GpuWorker → Prop}

theorem batch_pom (turn : GpuTurn) (job : Job) (worker : GpuWorker)
    (active : pomActivationDaa ≤ job.daaScore) :
    worker.batch turn job =
      ((worker.pomTurn turn job).1, .launched job :: (worker.pomTurn turn job).2) := by
  simp only [GpuWorker.batch, if_pos active]

theorem batch_heavy (turn : GpuTurn) (job : Job) (worker : GpuWorker)
    (inactive : ¬ pomActivationDaa ≤ job.daaScore) :
    worker.batch turn job =
      ((worker.heavyTurn turn job).1, .launched job :: (worker.heavyTurn turn job).2) := by
  simp only [GpuWorker.batch, if_neg inactive]

/-- What the proof-of-model branch can do after its launch. -/
theorem pom_turn_cases (turn : GpuTurn) (job : Job) (worker : GpuWorker)
    (motive : GpuWorker × List Seen → Prop)
    (built : ∀ nonce tried, turn.mined.isSome → turn.built && job.block.isFull →
      motive ({ worker with state := none, pomNonce := nonce, hashesTried := tried }, []))
    (unbuilt : ∀ nonce tried, turn.mined.isSome → ¬ (turn.built && job.block.isFull) →
      motive ({ worker with pomNonce := nonce, hashesTried := tried }, []))
    (polls : ∀ nonce tried, turn.mined = none →
      motive ({ worker with pomNonce := nonce, hashesTried := tried }.poll
        turn.polled (some job))) :
    motive (worker.pomTurn turn job) := by
  unfold GpuWorker.pomTurn
  dsimp only
  cases mined : turn.mined with
  | none => exact polls _ _ mined
  | some nonce =>
      dsimp only
      split
      · rename_i whole
        exact built _ _ (Option.isSome_of_eq_some mined) whole
      · rename_i part
        exact unbuilt _ _ (Option.isSome_of_eq_some mined) part

/-- What the kHeavyHash branch can do after its launch. -/
theorem heavy_turn_cases (turn : GpuTurn) (job : Job) (worker : GpuWorker)
    (motive : GpuWorker × List Seen → Prop)
    (unsynced : turn.synced = false → motive (worker, []))
    (uncopied : turn.copied = false → motive ({ worker with running := false }, []))
    (share : turn.copied = true → turn.output ≠ 0 ∧ job.daaScore < pomActivationDaa →
      turn.valid = true → motive ({ worker with
        state := if job.block.isFull then none else some job
        hashesTried := worker.hashesTried + turn.workload }, []))
    (wrong : turn.output ≠ 0 ∧ job.daaScore < pomActivationDaa → turn.valid = false →
      motive ({ worker with running := false }, []))
    (polls : ¬ (turn.output ≠ 0 ∧ job.daaScore < pomActivationDaa) →
      motive ({ worker with hashesTried := worker.hashesTried + turn.workload }.poll
        turn.polled none)) :
    motive (worker.heavyTurn turn job) := by
  unfold GpuWorker.heavyTurn
  cases synced : turn.synced with
  | false => exact unsynced synced
  | true =>
      rw [if_neg (by decide)]
      cases copied : turn.copied with
      | false => exact uncopied copied
      | true =>
          rw [if_neg (by decide)]
          split
          · rename_i found
            cases valid : turn.valid with
            | true => exact share copied found valid
            | false => exact wrong found valid
          · rename_i nothing
            exact polls nothing

theorem gpu_turn_keeps (turn : GpuTurn) (worker : GpuWorker)
    (waits : Keeps monitor fits worker (worker.wait turn.waited).2 (worker.wait turn.waited).1)
    (batches : ∀ job, jobInHand turn.waited worker = some job →
      Keeps monitor fits (worker.wait turn.waited).1
        ((worker.wait turn.waited).1.batch turn job).2
        ((worker.wait turn.waited).1.batch turn job).1) :
    Keeps monitor fits worker (gpuTurn turn worker).2 (gpuTurn turn worker).1 := by
  unfold gpuTurn
  dsimp only
  split
  · exact waits
  · rename_i job held
    rw [wait_state] at held
    exact waits.trans (batches job held)

theorem gpu_step_follows {start : Mode} {before after : Traced GpuWorker} {turn : GpuTurn}
    (follows : Follows monitor fits start before) (stepped : gpuStep before turn = some after)
    (keeps : before.worker.running = true → Keeps monitor fits before.worker
      (gpuTurn turn before.worker).2 (gpuTurn turn before.worker).1) :
    Follows monitor fits start after := by
  unfold gpuStep at stepped
  split at stepped
  · rename_i running
    obtain rfl := Option.some.inj stepped
    exact follows.step (keeps running)
  · contradiction

end GpuTurns

section CpuTurns
variable {Mode : Type} {monitor : Mode → Seen → Option Mode} {fits : Mode → CpuWorker → Prop}

theorem cpu_turn_keeps (turn : CpuTurn) (worker : CpuWorker)
    (waits : Keeps monitor fits worker (worker.wait turn.waited).2 (worker.wait turn.waited).1)
    (tests : ∀ job, (worker.wait turn.waited).1.state = some job →
      Keeps monitor fits (worker.wait turn.waited).1
        ((worker.wait turn.waited).1.test turn job).2
        ((worker.wait turn.waited).1.test turn job).1) :
    Keeps monitor fits worker (cpuTurn turn worker).2 (cpuTurn turn worker).1 := by
  unfold cpuTurn
  dsimp only
  split
  · exact waits
  · rename_i job held
    exact waits.trans (tests job held)

theorem cpu_step_follows {start : Mode} {before after : Traced CpuWorker} {turn : CpuTurn}
    (follows : Follows monitor fits start before) (stepped : cpuStep before turn = some after)
    (keeps : Keeps monitor fits before.worker (cpuTurn turn before.worker).2
      (cpuTurn turn before.worker).1) : Follows monitor fits start after := by
  unfold cpuStep at stepped
  split at stepped
  · obtain rfl := Option.some.inj stepped
    exact follows.step keeps
  · contradiction

end CpuTurns

end KeryxMiner.WorkerLaws
