import KeryxMiner.MaskedWords
import KeryxMiner.NonceRange

/-!
The nonces that the CPU worker tests while one job stays current, and its polls of the
command channel.
-/

namespace KeryxMiner.NonceEnumeration

open MinerJobs TransitionRuns MinerWorkers NonceRange

def isPoll : Seen → Bool
  | .read _ => true
  | .polled => true
  | .launched _ => false
  | .tested _ _ => false

def testedNonce : Seen → Option (Job × UInt64)
  | .tested job nonce => some (job, nonce)
  | .read _ => none
  | .polled => none
  | .launched _ => none

/-- The job is current before every turn. -/
def Current (job : Job) (before : Traced CpuWorker) (_ : CpuTurn) (_ : Traced CpuWorker) : Prop :=
  before.worker.state = some job

/-- What a turn on the current job leaves. -/
structure Turn (job : Job) (before after : Traced CpuWorker) (seen : List Seen) : Prop where
  trace : after.trace = before.trace ++ seen
  tested : seen.filterMap testedNonce =
    [(job, placed before.worker.mask before.worker.fixed before.worker.nonce)]
  mask : after.worker.mask = before.worker.mask
  fixed : after.worker.fixed = before.worker.fixed
  nonce : after.worker.nonce =
    placed before.worker.mask before.worker.fixed before.worker.nonce + 1
  polls : after.worker.nonce % 128 = 0 → ∃ event ∈ seen, isPoll event = true

theorem receive_keeps (command : Command) (worker : CpuWorker) :
    (worker.receive command).mask = worker.mask ∧ (worker.receive command).fixed = worker.fixed ∧
      (worker.receive command).nonce = worker.nonce := by
  unfold CpuWorker.receive
  split <;> exact ⟨rfl, rfl, rfl⟩

theorem poll_turn (polled : Polled) (worker : CpuWorker) :
    (worker.poll polled).1.mask = worker.mask ∧ (worker.poll polled).1.fixed = worker.fixed ∧
      (worker.poll polled).1.nonce = worker.nonce ∧
      (worker.poll polled).2.filterMap testedNonce = [] ∧
      (worker.nonce % 128 = 0 → ∃ event ∈ (worker.poll polled).2, isPoll event = true) := by
  unfold CpuWorker.poll
  split
  · cases polled with
    | command command =>
        obtain ⟨mask, fixed, nonce⟩ := receive_keeps command worker
        exact ⟨mask, fixed, nonce, rfl, fun _ => ⟨_, List.mem_singleton_self _, rfl⟩⟩
    | unchanged => exact ⟨rfl, rfl, rfl, rfl, fun _ => ⟨_, List.mem_singleton_self _, rfl⟩⟩
    | closed => exact ⟨rfl, rfl, rfl, rfl, fun _ => ⟨_, List.mem_singleton_self _, rfl⟩⟩
  -- Between two polls the command channel is left alone.
  · rename_i early
    exact ⟨rfl, rfl, rfl, rfl, fun due => absurd due early⟩

theorem current_cpu_turn {job : Job} {worker : CpuWorker} (turn : CpuTurn)
    (current : worker.state = some job) : cpuTurn turn worker = worker.test turn job := by
  have waits : worker.wait turn.waited = (worker, []) := by
    unfold CpuWorker.wait
    rw [current]
  unfold cpuTurn
  simp only [waits, current, List.nil_append]

theorem current_turn {job : Job} {before after : Traced CpuWorker} {turn : CpuTurn}
    (current : Current job before turn after) (stepped : cpuStep before turn = some after) :
    ∃ seen, Turn job before after seen := by
  unfold cpuStep at stepped
  split at stepped
  · rw [current_cpu_turn turn current] at stepped
    obtain rfl := Option.some.inj stepped
    obtain ⟨mask, fixed, nonce, untested, polls⟩ := poll_turn turn.polled { before.worker with
      state := if (foundBlock turn.won job).any BlockSeed.isFull then none else some job
      nonce := placed before.worker.mask before.worker.fixed before.worker.nonce + 1
      hashesTried := before.worker.hashesTried + 1 }
    refine ⟨(before.worker.test turn job).2, ?_⟩
    constructor
    · rfl
    · exact congrArg (_ :: ·) untested
    · exact mask
    · exact fixed
    · exact nonce
    · intro due
      obtain ⟨event, member, poll⟩ := polls (nonce ▸ due)
      exact ⟨event, List.mem_cons_of_mem _ member, poll⟩
  · cases stepped

/-! Consecutive turns. -/

section Runs
variable {job : Job} {width : Nat}

/-- The nonce that a turn tests, so many turns later. -/
def nonceAfter (worker : CpuWorker) (count : Nat) : UInt64 :=
  placed worker.mask worker.fixed (worker.nonce + UInt64.ofNat count)

theorem nonce_after_turn {before after : Traced CpuWorker} {seen : List Seen}
    (turn : Turn job before after seen) (masks : before.worker.mask.toNat = 2 ^ width - 1)
    (disjoint : before.worker.fixed &&& before.worker.mask = 0) (count : Nat) :
    nonceAfter after.worker count = nonceAfter before.worker (count + 1) := by
  unfold nonceAfter
  rw [turn.mask, turn.fixed, turn.nonce, UInt64.add_assoc]
  unfold placed
  rw [MaskedWords.placed_add masks disjoint, UInt64.ofNat_add, UInt64.add_comm 1]
  rfl

theorem current_run {turns : List CpuTurn} {start last : Traced CpuWorker}
    (masks : start.worker.mask.toNat = 2 ^ width - 1)
    (disjoint : start.worker.fixed &&& start.worker.mask = 0)
    (current : EveryStep cpuStep (Current job) start turns)
    (ran : runFrom cpuStep start turns = some last) :
    ∃ seen, last.trace = start.trace ++ seen ∧
      seen.filterMap testedNonce =
        ((List.range turns.length).map (nonceAfter start.worker)).map (Prod.mk job) ∧
      ∀ count < turns.length, (nonceAfter start.worker count + 1) % 128 = 0 →
        ∃ event ∈ seen, isPoll event = true := by
  -- The fixed part never reaches the mask's bits, so the counter of the next turn differs from
  -- the counter of this one by one below the mask.
  induction turns generalizing start with
  | nil =>
      obtain rfl := Option.some.inj ran
      exact ⟨[], (List.append_nil _).symm, rfl, nofun⟩
  | cons turn rest ih =>
      obtain ⟨next, stepped, continues⟩ := Option.bind_eq_some_iff.mp ran
      obtain ⟨first, later⟩ := current next stepped
      obtain ⟨seen, turned⟩ := current_turn first stepped
      have shifts := nonce_after_turn turned masks disjoint
      have here : nonceAfter start.worker 0 =
          placed start.worker.mask start.worker.fixed start.worker.nonce := by
        have none : UInt64.ofNat 0 = 0 := rfl
        rw [nonceAfter, none, UInt64.add_zero]
      obtain ⟨others, trace, tested, polls⟩ := ih (turned.mask ▸ masks)
        (by rw [turned.mask, turned.fixed, disjoint]) later continues
      refine ⟨seen ++ others, ?_, ?_, ?_⟩
      · rw [trace, turned.trace, List.append_assoc]
      · have later : (List.range rest.length).map (nonceAfter next.worker) =
            (List.range rest.length).map (nonceAfter start.worker ∘ Nat.succ) :=
          List.map_congr_left fun count _ => shifts count
        rw [List.filterMap_append, turned.tested, tested, later, List.length_cons,
          List.range_succ_eq_map]
        simp only [List.map_cons, List.map_map, here]
        rfl
      · intro count inside due
        cases count with
        | zero =>
            obtain ⟨event, member, poll⟩ := turned.polls (by rw [turned.nonce, ← here]; exact due)
            exact ⟨event, List.mem_append_left _ member, poll⟩
        | succ count =>
            obtain ⟨event, member, poll⟩ := polls count (Nat.lt_of_succ_lt_succ inside)
              (by rw [shifts]; exact due)
            exact ⟨event, List.mem_append_right _ member, poll⟩

/-- The low bits of a nonce run through a poll in every 128 turns. -/
theorem poll_due (long : 7 ≤ width) {worker : CpuWorker}
    (masks : worker.mask.toNat = 2 ^ width - 1) (disjoint : worker.fixed &&& worker.mask = 0) :
    ∃ count < 128, (nonceAfter worker count + 1) % 128 = 0 := by
  refine ⟨127 - worker.nonce.toNat % 128, by omega, ?_⟩
  -- The mask has the seven low bits, which are those of the counter.
  have low := MaskedWords.placed_low masks disjoint long
    (worker.nonce + UInt64.ofNat (127 - worker.nonce.toNat % 128))
  rw [UInt64.toNat_add, UInt64.toNat_ofNat'] at low
  rw [← UInt64.toNat_inj, UInt64.toNat_mod, UInt64.toNat_add, nonceAfter, placed]
  simp only [UInt64.reduceToNat]
  omega

/-- A full turn of the mask's bits tests every nonce in range once, and 128 turns poll. -/
theorem cpu_nonces_enumerated (long : 7 ≤ width) {turns : List CpuTurn}
    {start last : Traced CpuWorker} (masks : start.worker.mask.toNat = 2 ^ width - 1)
    (disjoint : start.worker.fixed &&& start.worker.mask = 0)
    (current : EveryStep cpuStep (Current job) start turns)
    (ran : runFrom cpuStep start turns = some last) :
    ∃ seen, last.trace = start.trace ++ seen ∧
      (turns.length = 2 ^ width → ∀ nonce, (seen.filterMap testedNonce).count
        (job, placed start.worker.mask start.worker.fixed nonce) = 1) ∧
      (128 ≤ turns.length → ∃ event ∈ seen, isPoll event = true) := by
  obtain ⟨seen, trace, tested, polls⟩ := current_run masks disjoint current ran
  refine ⟨seen, trace, ?_, ?_⟩
  · intro full nonce
    have once := MaskedWords.turn_once masks disjoint start.worker.nonce nonce
    rw [tested, full, List.count_map_of_injective _ _ (Prod.mk_right_injective job)]
    exact once
  · intro enough
    obtain ⟨count, early, due⟩ := poll_due long masks disjoint
    exact polls count (Nat.lt_of_lt_of_le early enough) due

end Runs

/-! A worker that goes on and finds nothing. -/

def idleTurn : CpuTurn := ⟨.closed, false, .unchanged⟩

theorem idle_run {job : Job} (count : Nat) {start : Traced CpuWorker}
    (current : start.worker.state = some job) (running : start.worker.running = true) :
    ∃ last, runFrom cpuStep start (List.replicate count idleTurn) = some last ∧
      EveryStep cpuStep (Current job) start (List.replicate count idleTurn) := by
  induction count generalizing start with
  | zero => exact ⟨start, rfl, trivial⟩
  | succ count ih =>
      have kept : (start.worker.test idleTurn job).1.state = some job ∧
          (start.worker.test idleTurn job).1.running = true := by
        -- A lost turn neither submits a block nor drops the job.
        have lost : (foundBlock idleTurn.won job).any BlockSeed.isFull = false := by
          unfold foundBlock
          split <;> rfl
        unfold CpuWorker.test CpuWorker.poll
        rw [lost]
        dsimp only
        split <;> exact ⟨rfl, running⟩
      have stepped : cpuStep start idleTurn = some ⟨(start.worker.test idleTurn job).1,
          start.trace ++ (start.worker.test idleTurn job).2⟩ := by
        unfold cpuStep
        rw [if_pos running, current_cpu_turn idleTurn current]
      obtain ⟨last, ran, currents⟩ := @ih ⟨(start.worker.test idleTurn job).1,
        start.trace ++ (start.worker.test idleTurn job).2⟩ kept.1 kept.2
      refine ⟨last, ?_, every_step_cons stepped current currents⟩
      rw [List.replicate_succ, runFrom, stepped]
      exact ran

/-- In the middle of the nonces from 128 to 255. -/
def halfway : Traced CpuWorker := ⟨⟨some narrowed, 197, 127, 128, true, 0⟩, []⟩

theorem cpu_nonces_enumerated_halfway : ∃ last seen,
    runFrom cpuStep halfway (List.replicate 128 idleTurn) = some last ∧
      last.trace = halfway.trace ++ seen ∧
      (∀ nonce, (seen.filterMap testedNonce).count (narrowed, placed 127 128 nonce) = 1) ∧
      ∃ event ∈ seen, isPoll event = true := by
  have masks : halfway.worker.mask.toNat = 2 ^ 7 - 1 := by decide
  obtain ⟨last, ran, current⟩ := @idle_run narrowed 128 halfway rfl rfl
  obtain ⟨seen, trace, tested, polls⟩ :=
    cpu_nonces_enumerated (by decide) masks (by decide) current ran
  exact ⟨last, seen, ran, trace, tested List.length_replicate, polls (by simp)⟩

end KeryxMiner.NonceEnumeration
