import KeryxMiner.PauseObedience

/-!
The nonces of the CPU worker. The mask and the fixed part it applies are those
of the last job that it waited for.
-/

namespace KeryxMiner.NonceRange

open MinerJobs TransitionRuns MinerWorkers WorkerLaws PauseObedience

/-! Ranges of nonces. -/

def placed (mask fixed nonce : UInt64) : UInt64 := (nonce &&& mask) ||| fixed

/-- The nonces that `mask'` and `fixed'` place are those of `mask` and `fixed`. -/
def Covers (mask fixed mask' fixed' : UInt64) : Prop :=
  fixed &&& fixed' = fixed ∧ (mask' ||| fixed') &&& (mask ||| fixed) = mask' ||| fixed'

instance (mask fixed mask' fixed' : UInt64) : Decidable (Covers mask fixed mask' fixed') :=
  inferInstanceAs (Decidable (_ ∧ _))

theorem covers_iff (mask fixed mask' fixed' : UInt64) :
    Covers mask fixed mask' fixed' ↔
      ∀ nonce, placed mask' fixed' nonce = placed mask fixed (placed mask' fixed' nonce) := by
  unfold placed Covers
  constructor
  · rintro ⟨fixed_within, reach_within⟩ nonce
    apply UInt64.toBitVec_inj.mp
    ext bit bound
    have small := congrArg (fun word : UInt64 => word.toBitVec[bit]) fixed_within
    have large := congrArg (fun word : UInt64 => word.toBitVec[bit]) reach_within
    simp at small large ⊢
    grind
  · intro within
    constructor
    -- the nonce without a bit shows the fixed parts, the one with every bit the reach
    · apply UInt64.toBitVec_inj.mp
      ext bit bound
      have low := congrArg (fun word : UInt64 => word.toBitVec[bit]) (within 0)
      simp at low ⊢
      grind
    · apply UInt64.toBitVec_inj.mp
      ext bit bound
      have high := congrArg (fun word : UInt64 => word.toBitVec[bit]) (within (-1))
      simp at high ⊢
      grind

theorem covers_self (mask fixed : UInt64) : Covers mask fixed mask fixed := by
  constructor
  · exact UInt64.and_self
  · exact UInt64.and_self

/-! The worker. -/

/-- Every nonce is tested in the range of its job. -/
def InRange (trace : List Seen) : Prop :=
  ∀ job nonce, .tested job nonce ∈ trace → nonce = (nonce &&& job.nonceMask) ||| job.nonceFixed

def rangeMonitor : Unit → Seen → Option Unit
  | _, .tested job nonce =>
      if nonce = placed job.nonceMask job.nonceFixed nonce then some () else none
  | _, .read _ => some ()
  | _, .polled => some ()
  | _, .launched _ => some ()

theorem range_monitor_in_range {trace : List Seen} {last : Unit}
    (ran : runFrom rangeMonitor () trace = some last) : InRange trace := by
  intro job nonce member
  obtain ⟨before, after, rfl⟩ := List.append_of_mem member
  obtain ⟨_, _, _, tested, _⟩ := run_from_around ran
  unfold rangeMonitor at tested
  dsimp only at tested
  split at tested
  · rename_i within
    exact within
  · contradiction

/-- The range applied lies in the range of the job. -/
def JobCovered (_ : Unit) (worker : CpuWorker) : Prop :=
  ∀ job, worker.state = some job →
    Covers job.nonceMask job.nonceFixed worker.mask worker.fixed

/-- The mask and the fixed part that a turn applies, if it has a job. -/
def rangeInHand (waited : Waited) (worker : CpuWorker) : Option (UInt64 × UInt64) :=
  match worker.state, waited with
  | some _, _ => some (worker.mask, worker.fixed)
  | none, .command (some (.job next)) => some (next.nonceMask, next.nonceFixed)
  | none, .command (some .close) => none
  | none, .command none => none
  | none, .closed => none

/-- A job met by the poll of a turn covers the range that the turn applies. -/
def PolledJobCovers (before : Traced CpuWorker) (turn : CpuTurn) : Prop :=
  ∀ mask fixed next, rangeInHand turn.waited before.worker = some (mask, fixed) →
    turn.polled = .command (some (.job next)) →
    (placed mask fixed before.worker.nonce + 1) % 128 = 0 →
    Covers next.nonceMask next.nonceFixed mask fixed

theorem wait_range (waited : Waited) (worker : CpuWorker) {job : Job}
    (held : (worker.wait waited).1.state = some job) :
    rangeInHand waited worker =
        some ((worker.wait waited).1.mask, (worker.wait waited).1.fixed) ∧
      (worker.wait waited).1.nonce = worker.nonce := by
  unfold CpuWorker.wait rangeInHand at *
  cases state : worker.state with
  | some other => exact ⟨rfl, rfl⟩
  | none =>
      rw [state] at held
      cases waited with
      | closed => contradiction
      | command command =>
          cases command with
          | none => contradiction
          | some sent =>
              cases sent with
              | job next => exact ⟨rfl, rfl⟩
              | close =>
                  have kept : worker.state = some job :=
                    (refresh_state (worker.receive (some .close))).symm.trans held
                  rw [state] at kept
                  contradiction

theorem wait_covers (waited : Waited) (worker : CpuWorker) :
    Keeps rangeMonitor JobCovered worker (worker.wait waited).2 (worker.wait waited).1 := by
  intro mode covered
  unfold CpuWorker.wait
  cases state : worker.state with
  | some other => exact ⟨mode, rfl, covered⟩
  | none =>
      cases waited with
      | closed => exact ⟨(), rfl, fun job held => by contradiction⟩
      | command command =>
          refine ⟨(), rfl, ?_⟩
          intro job held
          dsimp only at held ⊢
          rw [refresh_state] at held
          unfold CpuWorker.refresh
          rw [held]
          exact covers_self job.nonceMask job.nonceFixed

theorem poll_covers (polled : Polled) (worker : CpuWorker)
    (covers : ∀ next, polled = .command (some (.job next)) → worker.nonce % 128 = 0 →
      Covers next.nonceMask next.nonceFixed worker.mask worker.fixed) :
    Keeps rangeMonitor JobCovered worker (worker.poll polled).2 (worker.poll polled).1 := by
  intro mode covered
  unfold CpuWorker.poll
  split
  · rename_i due
    cases polled with
    | unchanged => exact ⟨(), rfl, covered⟩
    | closed => exact ⟨(), rfl, covered⟩
    | command command =>
        refine ⟨(), rfl, ?_⟩
        cases command with
        | none => exact fun job held => by contradiction
        | some sent =>
            cases sent with
            | close => exact covered
            | job next =>
                intro job held
                obtain rfl := Option.some.inj held
                exact covers next rfl due
  · exact ⟨mode, rfl, covered⟩

theorem test_covers (turn : CpuTurn) (job : Job) (worker : CpuWorker)
    (held : worker.state = some job)
    (covers : ∀ next, turn.polled = .command (some (.job next)) →
      (placed worker.mask worker.fixed worker.nonce + 1) % 128 = 0 →
      Covers next.nonceMask next.nonceFixed worker.mask worker.fixed) :
    Keeps rangeMonitor JobCovered worker (worker.test turn job).2 (worker.test turn job).1 := by
  intro mode covered
  have within := (covers_iff _ _ _ _).mp (covered job held) worker.nonce
  have tested : rangeMonitor mode (.tested job (placed worker.mask worker.fixed worker.nonce)) =
      some () := if_pos within
  obtain ⟨later, ran, fit⟩ := poll_covers turn.polled
    { worker with
      state := if (foundBlock turn.won job).any BlockSeed.isFull then none else some job
      nonce := placed worker.mask worker.fixed worker.nonce + 1
      hashesTried := worker.hashesTried + 1 } covers () (by
        intro other kept
        dsimp only at kept
        split at kept
        · contradiction
        · obtain rfl := Option.some.inj kept
          exact covered job held)
  refine ⟨later, ?_, fit⟩
  exact Option.bind_eq_some_iff.mpr ⟨(), tested, ran⟩

/-- In a run in which the jobs met by a poll cover the range applied. -/
theorem cpu_tests_in_range (nonce : UInt64) (turns : List CpuTurn) (last : Traced CpuWorker)
    (covers : EveryStep cpuStep (fun before turn _ => PolledJobCovers before turn)
      (CpuWorker.spawned nonce) turns)
    (ran : runFrom cpuStep (CpuWorker.spawned nonce) turns = some last) : InRange last.trace := by
  obtain ⟨_, accepted, _⟩ := invariant_end (Follows rangeMonitor JobCovered ())
    (by
      intro before turn after follows stepped step_covers
      apply cpu_step_follows follows stepped
      apply cpu_turn_keeps
      · exact wait_covers turn.waited before.worker
      · intro job held
        obtain ⟨range, same_nonce⟩ := wait_range turn.waited before.worker held
        apply test_covers turn job _ held
        intro next polled due
        rw [same_nonce] at due
        exact step_covers _ _ next range polled due)
    turns _ last ⟨(), rfl, fun job held => by contradiction⟩ covers ran
  exact range_monitor_in_range accepted

/-! A pool that moves the worker from one half of the nonces to the other. -/

def jobOn (nonceMask nonceFixed : UInt64) : Job :=
  { jobAt 1 with nonceMask := nonceMask, nonceFixed := nonceFixed }

def narrowed : Job := jobOn 0x00ffffffffffffff 0

def moved : Job := jobOn 0x00ffffffffffffff 0x0100000000000000

/-- The second job arrives while the worker waits, the third by a poll. -/
def waitingTurns : List CpuTurn :=
  [⟨.command (some (.job narrowed)), false, .command none⟩,
    ⟨.command (some (.job moved)), false, .unchanged⟩]

def movedTurns : List CpuTurn :=
  [⟨.command (some (.job narrowed)), false, .command (some (.job moved))⟩,
    ⟨.closed, false, .unchanged⟩]

theorem cpu_tests_in_range_waiting :
    ∃ last, runFrom cpuStep (CpuWorker.spawned 127) waitingTurns = some last ∧
      .tested moved 0x0100000000000080 ∈ last.trace ∧ InRange last.trace := by
  refine ⟨_, rfl, by decide, cpu_tests_in_range 127 waitingTurns _ ?_ rfl⟩
  intro first stepped
  constructor
  · intro mask fixed next _ polled
    cases polled
  · intro second _
    refine ⟨?_, trivial⟩
    intro mask fixed next _ polled
    cases polled

/-- The job met by the poll is tested in the range of the one before. -/
theorem polled_job_tested_out_of_range :
    ¬ ∀ (nonce : UInt64) (turns : List CpuTurn) (last : Traced CpuWorker),
      runFrom cpuStep (CpuWorker.spawned nonce) turns = some last → InRange last.trace := by
  intro in_range
  have outside := in_range 127 movedTurns _ rfl moved 128 (by decide)
  exact absurd outside (by decide)

end KeryxMiner.NonceRange
