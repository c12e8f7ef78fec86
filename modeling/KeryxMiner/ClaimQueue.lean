import KeryxMiner.EscrowEffects
import KeryxMiner.TransitionRuns

/-!
Which entry `find_claim` tries, and when the others get a turn. The queue is the
inference entries and then the rest, each in tracking order; only its first
eligible entry is tried.
-/

namespace KeryxMiner.ClaimQueue

open ByteCodec RpcMessages Escrow EscrowEffects TransitionRuns

def claimOrder (entries : List EscrowEntry) : List EscrowEntry :=
  (entries.filter fun e => e.isInference) ++ entries.filter fun e => !e.isInference

theorem mem_claim_order {entries : List EscrowEntry} {e : EscrowEntry} :
    e ∈ claimOrder entries ↔ e ∈ entries := by
  cases inference : e.isInference <;> simp [claimOrder, inference]

theorem select_entry_eq (daaScore : UInt64) (entries : List EscrowEntry) :
    selectEntry daaScore entries = (claimOrder entries).find? (isEligible daaScore) := by
  simp only [selectEntry, claimOrder, List.find?_append, List.find?_filter, Bool.decide_and,
    Bool.decide_eq_true]

section Buildable
variable (crates : Crates)

/-- The amount is above the fee and the txid is 32 bytes in hex. -/
def Payable (txid : String) (amountSompi : UInt64) : Prop :=
  claimFeeSompi.toNat < amountSompi.toNat ∧
    ∃ bytes, crates.hexDecode txid = .ok bytes ∧ bytes.length = 32

def Buildable (e : EscrowEntry) : Prop := Payable crates e.coinbaseTxid e.amountSompi

/-- Unclaimed, unslashed, matured, past its cooldown, and buildable. -/
structure Claimable (daaScore : UInt64) (e : EscrowEntry) : Prop where
  unclaimed : e.claimed = false
  unslashed : e.slashed = false
  matured : e.confirmDaa.toNat + challengeWindowBlocks.toNat + 10 ≤ daaScore.toNat
  cooled : ∀ retryDaa, e.orphanRetryAfterDaa = some retryDaa → retryDaa ≤ daaScore
  buildable : Buildable crates e

theorem amount_out_ok_iff (amount : UInt64) :
    (∃ paid, amountOut amount = .ok paid) ↔ claimFeeSompi.toNat < amount.toNat := by
  have zero : (0 : UInt64).toNat = 0 := rfl
  unfold amountOut
  split
  · rename_i covers
    obtain ⟨enough, left⟩ := covers
    rw [UInt64.lt_iff_toNat_lt, UInt64.toNat_sub_of_le _ _ enough, zero] at left
    exact iff_of_true ⟨_, rfl⟩ (by omega)
  · rename_i short
    refine iff_of_false (by simp) (fun above => short ⟨?_, ?_⟩)
    · exact UInt64.le_iff_toNat_le.mpr (Nat.le_of_lt above)
    · rw [UInt64.lt_iff_toNat_lt,
        UInt64.toNat_sub_of_le _ _ (UInt64.le_iff_toNat_le.mpr (Nat.le_of_lt above)), zero]
      omega

theorem coinbase_bytes_ok_iff (txid : String) :
    (∃ bytes, coinbaseBytes crates txid = .ok bytes) ↔
      ∃ bytes, crates.hexDecode txid = .ok bytes ∧ bytes.length = 32 := by
  unfold coinbaseBytes
  cases decoded : crates.hexDecode txid with
  | error e => simp
  | ok bytes =>
      by_cases sized : bytes.length = 32
      · simp [sized]
      · simp [sized]

variable {crates}

theorem build_ok_iff (accepts : ∀ digest, ∃ message, crates.fromDigestSlice digest = .ok message)
    (watcher : EscrowWatcher) (e : EscrowEntry) :
    (∃ tx, buildClaimTx crates watcher e = .ok tx) ↔ Buildable crates e := by
  rw [Buildable, Payable, ← amount_out_ok_iff, ← coinbase_bytes_ok_iff]
  unfold buildClaimTx
  cases paid : amountOut e.amountSompi with
  | error message => simp [bind, Except.bind]
  | ok amount =>
      cases bytes : coinbaseBytes crates e.coinbaseTxid with
      | error message => simp [bind, Except.bind]
      | ok txid =>
          obtain ⟨message, accepted⟩ := accepts (computeSighash crates txid e.outputIndex
            e.amountSompi watcher.account.escrowScript watcher.account.payoutSpkVersion
            watcher.account.payoutSpkScript amount)
          simp [bind, Except.bind, signingMessage, accepted]

theorem claimable_eligible {daaScore : UInt64} {e : EscrowEntry}
    (claimable : Claimable crates daaScore e) : isEligible daaScore e = true := by
  have window : challengeWindowBlocks.toNat = 36000 := rfl
  have margin : (10 : UInt64).toNat = 10 := rfl
  have small := daaScore.toNat_lt
  have matured := claimable.matured
  have wait : (e.confirmDaa + challengeWindowBlocks + 10).toNat =
      e.confirmDaa.toNat + challengeWindowBlocks.toNat + 10 := by
    rw [UInt64.toNat_add, UInt64.toNat_add]
    omega
  have after : e.confirmDaa + challengeWindowBlocks + 10 ≤ daaScore := by
    rw [UInt64.le_iff_toNat_le, wait]
    exact matured
  cases cooldown : e.orphanRetryAfterDaa with
  | none => simp [isEligible, claimable.unclaimed, claimable.unslashed, after, cooldown]
  | some retryDaa =>
      simp [isEligible, claimable.unclaimed, claimable.unslashed, after, cooldown,
        claimable.cooled retryDaa cooldown]

end Buildable

/-! One state. -/

/-- If some entry can be claimed, `find_claim` returns a claim. -/
def NoStarvation (crates : Crates) (daaScore : UInt64) (watcher : EscrowWatcher) : Prop :=
  watcher.pendingClaimTxid = none →
    (∃ e ∈ watcher.state.entries, Claimable crates daaScore e) →
    ∃ tx, (findClaim crates daaScore watcher).2 = some tx

/-- While some entry can be claimed, every eligible entry that cannot be built
stands behind an eligible one that can. -/
def FairQueue (crates : Crates) (daaScore : UInt64) (watcher : EscrowWatcher) : Prop :=
  watcher.pendingClaimTxid = none →
    (∃ e ∈ watcher.state.entries, Claimable crates daaScore e) →
    ∀ before blocker after, claimOrder watcher.state.entries = before ++ blocker :: after →
      isEligible daaScore blocker = true → ¬ Buildable crates blocker →
      ∃ e ∈ before, isEligible daaScore e = true ∧ Buildable crates e

section Fair
variable {crates : Crates}
variable (accepts : ∀ digest, ∃ message, crates.fromDigestSlice digest = .ok message)
include accepts

theorem fair_queue_iff (daaScore : UInt64) (watcher : EscrowWatcher) :
    NoStarvation crates daaScore watcher ↔ FairQueue crates daaScore watcher := by
  refine forall_congr' fun idle => forall_congr' fun waiting => ?_
  obtain ⟨ready, member, claimable⟩ := waiting
  simp only [find_claim_some_iff crates daaScore idle, select_entry_eq, build_ok_iff accepts]
  constructor
  · rintro ⟨first, selected, built⟩ before blocker after order eligible stuck
    obtain ⟨_, earlier, later, split, skipped⟩ := List.find?_eq_some_iff_append.mp selected
    rw [order] at split
    -- the blocker is neither among the skipped entries nor the first one
    rcases List.append_eq_append_iff.mp split with
      ⟨between, rfl, rest⟩ | ⟨between, rfl, rest⟩
    · cases between with
      | nil =>
          obtain rfl := (List.cons.inj rest).1
          exact absurd built stuck
      | cons entry between =>
          obtain rfl := (List.cons.inj rest).1
          have unskipped := skipped blocker (by simp)
          rw [eligible] at unskipped
          contradiction
    · cases between with
      | nil =>
          obtain rfl := (List.cons.inj rest).1
          exact absurd built stuck
      | cons entry between =>
          obtain rfl := (List.cons.inj rest).1
          exact ⟨first, by simp, List.find?_some selected, built⟩
  · intro fair
    cases selected : (claimOrder watcher.state.entries).find? (isEligible daaScore) with
    | none =>
        have missed := List.find?_eq_none.mp selected ready (mem_claim_order.mpr member)
        exact absurd (claimable_eligible claimable) missed
    | some first =>
        obtain ⟨eligible, before, after, split, skipped⟩ :=
          List.find?_eq_some_iff_append.mp selected
        -- the first eligible entry has no eligible entry before it, so it can be built
        refine ⟨first, rfl, ?_⟩
        by_contra stuck
        obtain ⟨e, inside, ahead, _⟩ := fair before first after split eligible stuck
        have unskipped := skipped e inside
        rw [ahead] at unskipped
        contradiction

theorem buildable_no_starvation (daaScore : UInt64) (watcher : EscrowWatcher)
    (all : AllEntries (Buildable crates) watcher) : NoStarvation crates daaScore watcher := by
  rw [fair_queue_iff accepts]
  intro _ _ before blocker after order _ stuck
  have member : blocker ∈ claimOrder watcher.state.entries := by simp [order]
  exact absurd (all blocker (mem_claim_order.mp member)) stuck

end Fair

/-! Runs. -/

def watcherStep (crates : Crates) (watcher : EscrowWatcher) (call : Operation × Clock) :
    Option EscrowWatcher := some (operate crates watcher call).watcher

/-- What the call tracks can be paid out. -/
def TracksPayable (crates : Crates) (watcher : EscrowWatcher) : Operation → Prop
  | .handleBlock block => ∀ e, Tracked block watcher e → Payable crates e.coinbaseTxid e.amountSompi
  | .onSubmitResponse _ => True
  | .trackInferenceEscrow txid _ amount => amount = 0 ∨ Payable crates txid amount

theorem answer_keeps_buildable {crates : Crates} (lastDaaScore : UInt64) (error : Option String)
    (e : EscrowEntry) (buildable : Buildable crates e) :
    Buildable crates (answerEntry lastDaaScore error e) := by
  have answered := answer_answered lastDaaScore error e
  generalize answerEntry lastDaaScore error e = after at answered
  cases answered with
  | accepted => exact buildable
  | exhausted _ => exact buildable
  | retries _ => exact buildable
  | waits => exact buildable
  | refused => exact buildable

theorem step_keeps_buildable {crates : Crates} (watcher : EscrowWatcher)
    (call : Operation × Clock) (tracks : TracksPayable crates watcher call.1)
    (all : AllEntries (Buildable crates) watcher) :
    AllEntries (Buildable crates) (operate crates watcher call).watcher := by
  obtain ⟨operation, clock⟩ := call
  cases operation with
  | handleBlock block =>
      exact handle_block_entries crates clock block (fun _ buildable _ => buildable) watcher all
        tracks
  | onSubmitResponse error =>
      exact submit_entries clock error watcher (answer_keeps_buildable _ error) all
  | trackInferenceEscrow txid confirmDaa amount =>
      apply track_inference_entries clock txid confirmDaa amount watcher _ all
      exact fun positive _ => tracks.resolve_left positive

/-- In every state a run of the watcher reaches, `find_claim` serves whoever can
be claimed exactly when the queue is fair; it is fair throughout a run that
tracks only entries that can be paid out. -/
theorem starvation_free_exact (crates : Crates)
    (accepts : ∀ digest, ∃ message, crates.fromDigestSlice digest = .ok message)
    (account : ClaimAccount) (state : EscrowState) (now : Nat) (calls : List (Operation × Clock))
    (watcher : EscrowWatcher)
    (ran : runFrom (watcherStep crates) (EscrowWatcher.loaded account state now) calls =
      some watcher) :
    (∀ daaScore, NoStarvation crates daaScore watcher ↔ FairQueue crates daaScore watcher) ∧
      ((∀ e ∈ state.entries, Buildable crates e) →
        EveryStep (watcherStep crates) (fun before call _ => TracksPayable crates before call.1)
          (EscrowWatcher.loaded account state now) calls →
        ∀ daaScore, NoStarvation crates daaScore watcher) := by
  refine ⟨fun daaScore => fair_queue_iff accepts daaScore watcher, fun loaded payable daaScore => ?_⟩
  refine buildable_no_starvation accepts daaScore watcher
    (invariant_end (AllEntries (Buildable crates)) ?_ calls _ watcher ?_ payable ran)
  · intro before call after all stepped tracks
    obtain rfl := Option.some.inj stepped
    exact step_keeps_buildable before call tracks all
  · intro e member
    rw [EscrowWatcher.loaded, rebuild_entries] at member
    exact loaded e member

/-! Two inference rewards, the first of one sompi. -/

def tracking (txid : String) (amount : UInt64) : Operation × Clock :=
  (.trackInferenceEscrow txid 0 amount, ⟨0, 0⟩)

theorem starvation_free_two_rewards :
    ∃ watcher, runFrom (watcherStep sampleCrates) (EscrowWatcher.loaded sampleAccount ⟨[]⟩ 0)
        [tracking onesTxid 40000000, tracking twosTxid 1000000000] = some watcher ∧
      ∀ daaScore, NoStarvation sampleCrates daaScore watcher :=
  ⟨_, rfl, (starvation_free_exact sampleCrates (fun digest => ⟨digest, rfl⟩) sampleAccount ⟨[]⟩ 0
    [tracking onesTxid 40000000, tracking twosTxid 1000000000] _ rfl).2 (by simp)
    (fun _ stepped => ⟨Or.inr ⟨by decide, _, rfl, rfl⟩, by
      obtain rfl := Option.some.inj stepped
      exact fun _ _ => ⟨Or.inr ⟨by decide, _, rfl, rfl⟩, trivial⟩⟩)⟩

theorem short_reward_blocks :
    ¬ ∀ (crates : Crates) (account : ClaimAccount) (state : EscrowState) (now : Nat)
      (calls : List (Operation × Clock)) (watcher : EscrowWatcher),
      (∀ digest, ∃ message, crates.fromDigestSlice digest = .ok message) →
      runFrom (watcherStep crates) (EscrowWatcher.loaded account state now) calls = some watcher →
      ∀ daaScore, NoStarvation crates daaScore watcher := by
  intro claimed
  obtain ⟨tx, found⟩ := claimed sampleCrates sampleAccount ⟨[]⟩ 0
    [tracking onesTxid 1, tracking twosTxid 1000000000] _ (fun digest => ⟨digest, rfl⟩) rfl 36010
    rfl ⟨_, List.mem_cons_of_mem _ (List.mem_cons_self ..), rfl, rfl, by decide, by simp,
      by decide, _, rfl, rfl⟩
  have nothing : none = some tx := found
  contradiction

end KeryxMiner.ClaimQueue
