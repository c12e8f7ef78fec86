import KeryxMiner.ClaimHistory
import Mathlib.Data.List.Forall2

/-!
The flags of an escrow entry over a run. Beside the watcher stand the claims that
were returned and not answered yet, the oldest first.
-/

namespace KeryxMiner.EscrowLifecycle

open ByteCodec RpcMessages Escrow EscrowEffects TransitionRuns ClaimQueue EscrowIndexes
open ClaimHistory

structure Flights where
  watcher : EscrowWatcher
  inFlight : List RpcOutpoint

def spentOutpoints (claim : Option RpcTransaction) : List RpcOutpoint :=
  claim.toList.flatMap fun tx => tx.inputs.filterMap fun input => input.previousOutpoint

def unanswered (inFlight : List RpcOutpoint) : Operation → List RpcOutpoint
  | .onSubmitResponse _ => inFlight.tail
  | _ => inFlight

def flightStep (crates : Crates) (flights : Flights) (call : Operation × Clock) :
    Option Flights :=
  let outcome := operate crates flights.watcher call
  some {
    watcher := outcome.watcher
    inFlight := unanswered flights.inFlight call.1 ++ spentOutpoints outcome.claim }

structure Lifecycle (flights : Flights) : Prop where
  exclusive : ∀ e ∈ flights.watcher.state.entries, ¬ (e.claimed = true ∧ e.slashed = true)
  bounded : ∀ e ∈ flights.watcher.state.entries, e.orphanRetries ≤ maxOrphanRetries
  exhausted : ∀ e ∈ flights.watcher.state.entries,
    e.orphanRetries = maxOrphanRetries → e.slashed = true
  single : flights.inFlight.length ≤ 1

structure EntryEvolves (before after : EscrowEntry) : Prop where
  outpoint : entryOutpoint after = entryOutpoint before
  claimed : before.claimed = true → after.claimed = true
  slashed : before.slashed = true → after.slashed = true

/-- A compaction may drop the finished entries; the others stay, in order, and
new ones come behind them. -/
def Evolves (before after : List EscrowEntry) : Prop :=
  ∃ survivors updated added,
    (survivors = before ∨ survivors = before.filter fun e => !e.claimed && !e.slashed) ∧
    List.Forall₂ EntryEvolves survivors updated ∧ after = updated ++ added

/-- An answer changes no entry but that of the claim in flight. -/
def AnswersInFlight (before : Flights) (operation : Operation) (after : Flights) : Prop :=
  ∀ error, operation = .onSubmitResponse error →
    after.watcher.state.entries.length = before.watcher.state.entries.length ∧
    ∀ (i : Nat) (e changed : EscrowEntry), before.watcher.state.entries[i]? = some e →
      after.watcher.state.entries[i]? = some changed → changed ≠ e →
      before.inFlight.head? = some (entryOutpoint e)

structure LifecycleStep (before : Flights) (call : Operation × Clock) (after : Flights) : Prop where
  lifecycle : Lifecycle after
  evolves : Evolves before.watcher.state.entries after.watcher.state.entries
  answers : AnswersInFlight before call.1 after

/-- The entry of a claim that is accepted was not slashed meanwhile. -/
def NoLateAcceptance (before : Flights) (operation : Operation) : Prop :=
  operation = .onSubmitResponse none → ∀ e ∈ before.watcher.state.entries,
    before.inFlight.head? = some (entryOutpoint e) → e.slashed = false

/-! One entry. -/

/-- What holds of an entry while the claims `inFlight` are unanswered. -/
structure Sound (inFlight : List RpcOutpoint) (e : EscrowEntry) : Prop where
  exclusive : ¬ (e.claimed = true ∧ e.slashed = true)
  bounded : e.orphanRetries ≤ maxOrphanRetries
  exhausted : e.orphanRetries = maxOrphanRetries → e.slashed = true
  flying : entryOutpoint e ∈ inFlight → e.claimed = false ∧ e.orphanRetries < maxOrphanRetries

theorem grounded {e : EscrowEntry} (exclusive : ¬ (e.claimed = true ∧ e.slashed = true))
    (bounded : e.orphanRetries ≤ maxOrphanRetries)
    (exhausted : e.orphanRetries = maxOrphanRetries → e.slashed = true) : Sound [] e :=
  ⟨exclusive, bounded, exhausted, fun member => absurd member List.not_mem_nil⟩

theorem Sound.landed {inFlight : List RpcOutpoint} {e : EscrowEntry} (sound : Sound inFlight e) :
    Sound [] e := grounded sound.exclusive sound.bounded sound.exhausted

theorem untried_sound (inFlight : List RpcOutpoint) (e : EscrowEntry)
    (unclaimed : e.claimed = false) (few : e.orphanRetries < maxOrphanRetries) : Sound inFlight e := by
  constructor
  · simp [unclaimed]
  · exact UInt8.le_of_lt few
  · intro exhausted
    rw [exhausted] at few
    exact absurd few (UInt8.lt_irrefl _)
  · exact fun _ => ⟨unclaimed, few⟩

theorem redden_sound {inFlight : List RpcOutpoint} (e : EscrowEntry) (sound : Sound inFlight e)
    (unclaimed : e.claimed = false) : Sound inFlight { e with slashed := true } := by
  constructor
  · simp [unclaimed]
  · exact sound.bounded
  · exact fun _ => rfl
  · exact sound.flying

theorem retry_bounded {retries : UInt8} (few : retries < maxOrphanRetries) :
    retries + 1 ≤ maxOrphanRetries := by
  have limit : maxOrphanRetries.toNat = 10 := rfl
  have one : (1 : UInt8).toNat = 1 := rfl
  rw [UInt8.lt_iff_toNat_lt] at few
  rw [UInt8.le_iff_toNat_le, UInt8.toNat_add]
  omega

theorem answer_sound (lastDaaScore : UInt64) (error : Option String) (e : EscrowEntry)
    (sound : Sound [entryOutpoint e] e) (timely : error = none → e.slashed = false) :
    Sound [] (answerEntry lastDaaScore error e) := by
  obtain ⟨unclaimed, few⟩ := sound.flying (List.mem_cons_self ..)
  have retry := retry_bounded few
  have answered := answer_answered lastDaaScore error e
  generalize answerEntry lastDaaScore error e = after at answered
  cases answered with
  | accepted =>
      apply grounded
      · simp [timely rfl]
      · exact sound.bounded
      · exact sound.exhausted
  | exhausted _ =>
      apply grounded
      · simp [unclaimed]
      · exact retry
      · exact fun _ => rfl
  | retries left =>
      apply grounded
      · simp [unclaimed]
      · exact retry
      · intro exhausted
        exact absurd (UInt8.le_of_eq exhausted.symm) left
  | waits => exact grounded sound.exclusive sound.bounded sound.exhausted
  | refused =>
      apply grounded
      · simp [unclaimed]
      · exact sound.bounded
      · exact fun _ => rfl

/-! The list of entries. -/

theorem EntryEvolves.refl (e : EscrowEntry) : EntryEvolves e e := ⟨rfl, id, id⟩

theorem EntryEvolves.redden {before after : EscrowEntry} (evolves : EntryEvolves before after) :
    EntryEvolves before (redden after) := by
  unfold EscrowIndexes.redden
  split
  · exact ⟨evolves.outpoint, evolves.claimed, fun _ => rfl⟩
  · exact evolves

theorem scan_red_evolves {survivors entries : List EscrowEntry}
    (evolves : List.Forall₂ EntryEvolves survivors entries) (redHash : String) :
    List.Forall₂ EntryEvolves survivors (scanRed entries redHash) := by
  unfold scanRed
  rw [List.forall₂_map_right_iff]
  apply evolves.imp
  intro before after evolved
  split
  · exact evolved.redden
  · exact evolved

theorem scan_reds_evolve (verboseData : Option RpcBlockVerboseData) {survivors : List EscrowEntry}
    (entries : List EscrowEntry) (evolves : List.Forall₂ EntryEvolves survivors entries) :
    List.Forall₂ EntryEvolves survivors (scanReds verboseData entries) := by
  cases verboseData with
  | none => exact evolves
  | some verbose =>
      simp only [scanReds]
      generalize verbose.mergeSetRedsHashes = reds
      induction reds generalizing entries with
      | nil => exact evolves
      | cons red rest ih => exact ih _ (scan_red_evolves evolves red)

theorem all_evolve (entries : List EscrowEntry) : List.Forall₂ EntryEvolves entries entries :=
  List.forall₂_same.mpr fun e _ => EntryEvolves.refl e

theorem count_block_survivors (watcher : EscrowWatcher) :
    (countBlock watcher).state.entries = watcher.state.entries ∨
      (countBlock watcher).state.entries =
        watcher.state.entries.filter fun e => !e.claimed && !e.slashed := by
  simp only [countBlock, compact]
  split
  · split
    · rw [markDirty, rebuild_entries]
      exact Or.inr rfl
    · exact Or.inl rfl
  · exact Or.inl rfl

theorem handle_block_evolves (crates : Crates) (clock : Clock) (block : RpcBlock)
    (framed : Framed (.handleBlock block)) (watcher : EscrowWatcher) (indexed : Indexed watcher) :
    Evolves watcher.state.entries
      (handleBlock crates clock block watcher).watcher.state.entries := by
  have reddened : ∀ header : RpcBlockHeader, List.Forall₂ EntryEvolves
      (countBlock { watcher with lastDaaScore := header.daaScore }).state.entries
      (slashReds block.verboseData
        (countBlock { watcher with lastDaaScore := header.daaScore })).state.entries := by
    intro header
    rw [slash_reds_scans _ _ (counted_indexed header watcher indexed)]
    exact scan_reds_evolve _ _ (all_evolve _)
  rcases handle_block_cases crates clock block watcher with
    ⟨_, handled, same | ⟨header, rfl⟩⟩ | ⟨header, coinbase, txid, found, handled⟩
  · rw [handled, same]
    exact ⟨_, _, [], Or.inl rfl, all_evolve _, (List.append_nil _).symm⟩
  · rw [handled]
    exact ⟨_, _, [], count_block_survivors { watcher with lastDaaScore := header.daaScore },
      reddened header, (List.append_nil _).symm⟩
  · obtain ⟨added, grew, _⟩ := scanned_appends block framed header coinbase txid found watcher
    rw [handled]
    dsimp only
    rw [flush_state, find_claim_state]
    exact ⟨_, _, added, count_block_survivors { watcher with lastDaaScore := header.daaScore },
      reddened header, grew⟩

theorem answer_evolves (lastDaaScore : UInt64) (error : Option String) (e : EscrowEntry) :
    EntryEvolves e (answerEntry lastDaaScore error e) :=
  ⟨(answer_outpoint lastDaaScore error e).1, (answer_flags lastDaaScore error e).1,
    (answer_flags lastDaaScore error e).2⟩

theorem update_first_evolves (isTarget : EscrowEntry → Bool) (update : EscrowEntry → EscrowEntry)
    (evolves : ∀ e, EntryEvolves e (update e)) (entries : List EscrowEntry) :
    List.Forall₂ EntryEvolves entries (updateFirst isTarget update entries) := by
  induction entries with
  | nil => exact List.Forall₂.nil
  | cons e rest ih =>
      unfold updateFirst
      split
      · exact List.Forall₂.cons (evolves e) (all_evolve rest)
      · exact List.Forall₂.cons (EntryEvolves.refl e) ih

theorem submit_evolves (clock : Clock) (error : Option String) (watcher : EscrowWatcher) :
    Evolves watcher.state.entries (onSubmitResponse clock error watcher).1.state.entries := by
  cases pending : watcher.pendingClaimTxid with
  | none =>
      rw [submit_idle clock error pending]
      exact ⟨_, _, [], Or.inl rfl, all_evolve _, (List.append_nil _).symm⟩
  | some txid =>
      rw [(submit_answers clock error pending).2.2]
      exact ⟨_, _, [], Or.inl rfl, update_first_evolves _ _ (answer_evolves _ error) _,
        (List.append_nil _).symm⟩

/-- At most one untouched inference entry comes behind the others. -/
theorem track_inference_appends (clock : Clock) (txid : String) (confirmDaa amount : UInt64)
    (watcher : EscrowWatcher) :
    ∃ added, (trackInferenceEscrow clock txid confirmDaa amount watcher).1.state.entries =
        watcher.state.entries ++ added ∧
      ∀ e ∈ added, e.claimed = false ∧ e.orphanRetries = 0 := by
  rcases track_inference_cases clock txid confirmDaa amount watcher with
    same | ⟨_, _, tracked⟩
  · rw [same]
    exact ⟨[], (List.append_nil _).symm, by simp⟩
  · rw [tracked, flush_state]
    exact ⟨[inferenceEntry txid confirmDaa amount], rfl, by simp [inferenceEntry]⟩

theorem operate_evolves (crates : Crates) (watcher : EscrowWatcher) (call : Operation × Clock)
    (framed : Framed call.1) (indexed : Indexed watcher) :
    Evolves watcher.state.entries (operate crates watcher call).watcher.state.entries := by
  obtain ⟨operation, clock⟩ := call
  cases operation with
  | handleBlock block => exact handle_block_evolves crates clock block framed watcher indexed
  | onSubmitResponse error => exact submit_evolves clock error watcher
  | trackInferenceEscrow txid confirmDaa amount =>
      obtain ⟨added, grew, _⟩ :=
        track_inference_appends clock txid confirmDaa amount watcher
      exact ⟨_, _, added, Or.inl rfl, all_evolve _, grew⟩

/-! Runs. -/

structure Tracking (flights : Flights) : Prop where
  indexed : Indexed flights.watcher
  sound : AllEntries (Sound flights.inFlight) flights.watcher
  pending : flights.inFlight = (pendingOutpoint flights.watcher).toList

theorem Tracking.lifecycle {flights : Flights} (tracking : Tracking flights) :
    Lifecycle flights := by
  constructor
  · exact fun e member => (tracking.sound e member).exclusive
  · exact fun e member => (tracking.sound e member).bounded
  · exact fun e member => (tracking.sound e member).exhausted
  · rw [tracking.pending]
    cases pendingOutpoint flights.watcher <;> simp

theorem same_claim_pending {before after : EscrowWatcher} (same : SameClaim before after) :
    pendingOutpoint after = pendingOutpoint before := by
  rw [pendingOutpoint, pendingOutpoint, same.txid, same.index]

theorem new_entry_sound (inFlight : List RpcOutpoint) (block : RpcBlock) (watcher : EscrowWatcher)
    (e : EscrowEntry) (new : NewEntry block watcher e) : Sound inFlight e := by
  obtain ⟨_, _, _, _, _, _, _, _, _, _, _, unclaimed, _⟩ := new.tracked
  apply untried_sound inFlight e unclaimed
  rw [new.untried]
  decide

theorem spent_outpoints_only {tx : RpcTransaction} {outpoint : RpcOutpoint}
    (only : SpendsOnly tx outpoint) : spentOutpoints (some tx) = [outpoint] := by
  obtain ⟨input, inputs, paying⟩ := only
  simp [spentOutpoints, inputs, paying]

variable {crates : Crates}

theorem block_tracking (clock : Clock) (block : RpcBlock) (framed : Framed (.handleBlock block))
    (flights after : Flights) (tracking : Tracking flights)
    (stepped : flightStep crates flights (.handleBlock block, clock) = some after) :
    Tracking after := by
  obtain rfl := Option.some.inj stepped
  have indexed := handle_block_indexed crates clock block framed flights.watcher tracking.indexed
  have kept := handle_block_keeps redden_sound block framed flights.watcher
    (new_entry_sound flights.inFlight block flights.watcher) tracking.sound crates clock
  cases claim : (handleBlock crates clock block flights.watcher).claim with
  | none =>
      have same : SameClaim flights.watcher
          (handleBlock crates clock block flights.watcher).watcher := by
        rcases handle_block_claim crates clock block flights.watcher with
          ⟨_, same⟩ | ⟨_, _, some_claim, _⟩
        · exact same
        · rw [claim] at some_claim
          contradiction
      simp only [operate, unanswered, spentOutpoints, claim, Option.toList_none,
        List.flatMap_nil, List.append_nil]
      constructor
      · exact indexed
      · exact kept
      · rw [same_claim_pending same]
        exact tracking.pending
  | some tx =>
      obtain ⟨_, _, _, entry, _, _, member, unclaimed, unslashed, only, idle, pending⟩ :=
        handle_block_selects crates clock block flights.watcher claim
      have none_flying : flights.inFlight = [] := by
        rw [tracking.pending, pendingOutpoint, idle]
        rfl
      simp only [operate, unanswered, claim, spent_outpoints_only only, none_flying,
        List.nil_append]
      constructor
      · exact indexed
      · intro e inside
        have sound := kept e inside
        constructor
        · exact sound.exclusive
        · exact sound.bounded
        · exact sound.exhausted
        · intro flying
          -- by its outpoint it is the selected entry, which was open
          have same : e = entry := List.inj_on_of_nodup_map indexed.distinct inside member
            (List.mem_singleton.mp flying)
          subst same
          refine ⟨unclaimed, UInt8.lt_of_le_of_ne sound.bounded fun exhausted => ?_⟩
          rw [sound.exhausted exhausted] at unslashed
          contradiction
      · rw [pending]
        rfl

theorem submit_tracking (clock : Clock) (error : Option String) (flights after : Flights)
    (timely : NoLateAcceptance flights (.onSubmitResponse error)) (tracking : Tracking flights)
    (stepped : flightStep crates flights (.onSubmitResponse error, clock) = some after) :
    Tracking after := by
  obtain rfl := Option.some.inj stepped
  simp only [operate, unanswered, spentOutpoints, Option.toList_none, List.flatMap_nil,
    List.append_nil]
  have indexed := submit_indexed clock error flights.watcher tracking.indexed
  cases pending : flights.watcher.pendingClaimTxid with
  | none =>
      have none_flying : flights.inFlight = [] := by
        rw [tracking.pending, pendingOutpoint, pending]
        rfl
      rw [submit_idle clock error pending, none_flying]
      constructor
      · exact tracking.indexed
      · rw [List.tail_nil, ← none_flying]
        exact tracking.sound
      · rw [pendingOutpoint, pending]
        rfl
  | some txid =>
      have flying : flights.inFlight =
          [⟨txid, flights.watcher.pendingClaimOutputIndex.getD 1⟩] := by
        rw [tracking.pending, pendingOutpoint, pending]
        rfl
      obtain ⟨_, answered, entries⟩ := submit_answers clock error pending
      rw [flying, List.tail_cons]
      constructor
      · exact indexed
      · intro e member
        rw [entries] at member
        rcases mem_update_first _ _ _ member with old | ⟨before, old, target, rfl⟩
        · exact (tracking.sound e old).landed
        · have hit := (is_outpoint_iff ⟨txid, flights.watcher.pendingClaimOutputIndex.getD 1⟩
            before).mp target
          apply answer_sound
          · have sound := tracking.sound before old
            rwa [flying, ← hit] at sound
          · rintro rfl
            apply timely rfl before old
            rw [flying, hit]
            rfl
      · rw [pendingOutpoint, answered]
        rfl

theorem inference_tracking (clock : Clock) (txid : String) (confirmDaa amount : UInt64)
    (flights after : Flights) (tracking : Tracking flights)
    (stepped : flightStep crates flights (.trackInferenceEscrow txid confirmDaa amount, clock) =
      some after) : Tracking after := by
  obtain rfl := Option.some.inj stepped
  simp only [operate, unanswered, spentOutpoints, Option.toList_none, List.flatMap_nil,
    List.append_nil]
  constructor
  · exact track_inference_indexed clock txid confirmDaa amount flights.watcher tracking.indexed
  · obtain ⟨added, grew, each⟩ :=
      track_inference_appends clock txid confirmDaa amount flights.watcher
    intro e member
    rw [grew] at member
    rcases List.mem_append.mp member with old | new
    · exact tracking.sound e old
    · obtain ⟨unclaimed, untried⟩ := each e new
      apply untried_sound _ e unclaimed
      rw [untried]
      decide
  · rw [same_claim_pending (track_inference_same_claim clock txid confirmDaa amount
      flights.watcher)]
    exact tracking.pending

theorem flight_tracking (before : Flights) (call : Operation × Clock) (after : Flights)
    (tracking : Tracking before) (stepped : flightStep crates before call = some after)
    (allowed : Framed call.1 ∧ NoLateAcceptance before call.1) : Tracking after := by
  obtain ⟨operation, clock⟩ := call
  obtain ⟨framed, timely⟩ := allowed
  cases operation with
  | handleBlock block => exact block_tracking clock block framed before after tracking stepped
  | onSubmitResponse error =>
      exact submit_tracking clock error before after timely tracking stepped
  | trackInferenceEscrow txid confirmDaa amount =>
      exact inference_tracking clock txid confirmDaa amount before after tracking stepped

theorem tracking_answers (before : Flights) (call : Operation × Clock) (after : Flights)
    (tracking : Tracking before) (stepped : flightStep crates before call = some after) :
    AnswersInFlight before call.1 after := by
  obtain ⟨operation, clock⟩ := call
  obtain rfl := Option.some.inj stepped
  rintro error rfl
  simp only [operate]
  cases pending : before.watcher.pendingClaimTxid with
  | none =>
      rw [submit_idle clock error pending]
      constructor
      · rfl
      · intro i e changed found same differs
        exact absurd (Option.some.inj (same.symm.trans found)) differs
  | some txid =>
      rw [(submit_answers clock error pending).2.2]
      constructor
      · exact update_first_length _ _ _
      · intro i e changed found updated differs
        rcases update_first_get _ _ _ i found updated with same | ⟨target, _⟩
        · exact absurd same differs
        · have hit := (is_outpoint_iff
            ⟨txid, before.watcher.pendingClaimOutputIndex.getD 1⟩ e).mp target
          rw [tracking.pending, pendingOutpoint, pending, hit]
          rfl

/-- The lifecycle of every entry, in runs where no accepted claim's entry was
slashed while the claim was in flight. -/
theorem lifecycle_holds (crates : Crates) (account : ClaimAccount) (state : EscrowState)
    (now : Nat) (calls : List (Operation × Clock))
    (distinct : (state.entries.map entryOutpoint).Nodup)
    (fresh : ∀ e ∈ state.entries, e.claimed = false ∧ e.slashed = false)
    (few : ∀ e ∈ state.entries, e.orphanRetries < maxOrphanRetries)
    (allowed : EveryStep (flightStep crates)
      (fun before call _ => Framed call.1 ∧ NoLateAcceptance before call.1)
      ⟨EscrowWatcher.loaded account state now, []⟩ calls) :
    Lifecycle ⟨EscrowWatcher.loaded account state now, []⟩ ∧
      EveryStep (flightStep crates) LifecycleStep
        ⟨EscrowWatcher.loaded account state now, []⟩ calls := by
  have started : Tracking ⟨EscrowWatcher.loaded account state now, []⟩ := by
    constructor
    · exact loaded_indexed account state now distinct
    · intro e member
      rw [EscrowWatcher.loaded, rebuild_entries] at member
      exact untried_sound [] e (fresh e member).1 (few e member)
    · rw [pendingOutpoint, EscrowWatcher.loaded, (rebuild_same_claim _).txid]
      rfl
  constructor
  · exact started.lifecycle
  · apply every_step_of_invariant Tracking flight_tracking _ calls _ started allowed
    intro before call after tracking stepped may
    constructor
    · exact (flight_tracking before call after tracking stepped may).lifecycle
    · obtain rfl := Option.some.inj stepped
      exact operate_evolves crates before.watcher call may.1 tracking.indexed
    · exact tracking_answers before call after tracking stepped

/-! A reward that is loaded and claimed, and one that turns red in flight. -/

def loadedReward : EscrowEntry where
  coinbaseTxid := onesTxid
  blockHash := "aa"
  confirmDaa := 0
  amountSompi := 40000000
  outputIndex := 0
  claimed := false
  slashed := false
  orphanSlashed := false
  orphanRetries := 9
  orphanRetryAfterDaa := none
  isInference := false

theorem lifecycle_loaded_reward :
    EveryStep (flightStep sampleCrates) LifecycleStep
      ⟨EscrowWatcher.loaded sampleAccount ⟨[loadedReward]⟩ 0, []⟩
      [deliver maturing, (.onSubmitResponse none, ⟨0, 0⟩)] := by
  apply (lifecycle_holds sampleCrates sampleAccount ⟨[loadedReward]⟩ 0
    [deliver maturing, (.onSubmitResponse none, ⟨0, 0⟩)] (List.nodup_singleton _) (by decide)
    (by decide) _).2
  intro first stepped
  obtain rfl := Option.some.inj stepped
  refine ⟨⟨by simp [deliver, Framed, maturing, rewardBlock], fun other => by contradiction⟩, ?_⟩
  intro second stepped
  refine ⟨⟨trivial, ?_⟩, trivial⟩
  intro _ e member _
  obtain rfl := List.mem_singleton.mp member
  rfl

def reddening : RpcBlock := rewardBlock 36011 "cc" ["aa"] twosTxid []

def redAndPaid : EscrowEntry :=
  { loadedReward with claimed := true, slashed := true, orphanRetries := 0 }

def redInFlight : Flights where
  watcher := { paidWatcher 2 with
    state := ⟨[{ loadedReward with orphanRetries := 0 }]⟩
    pendingClaimTxid := some onesTxid
    pendingClaimOutputIndex := some 0 }
  inFlight := [⟨onesTxid, 0⟩]

theorem red_in_flight_accepted :
    ∃ last, runFrom (flightStep sampleCrates)
        ⟨EscrowWatcher.loaded sampleAccount ⟨[]⟩ 0, []⟩
        ([deliver rewarding, deliver maturing] ++
          [deliver reddening, (.onSubmitResponse none, ⟨0, 0⟩)]) = some last ∧
      ¬ Lifecycle last := by
  have claimed : runFrom (flightStep sampleCrates)
      ⟨EscrowWatcher.loaded sampleAccount ⟨[]⟩ 0, []⟩ [deliver rewarding, deliver maturing] =
      some redInFlight := rfl
  refine ⟨⟨{ paidWatcher 3 with state := ⟨[redAndPaid]⟩, lastDaaScore := 36011 }, []⟩, ?_, ?_⟩
  · rw [run_from_append, claimed]
    rfl
  · intro lifecycle
    exact lifecycle.exclusive redAndPaid (List.mem_singleton_self redAndPaid) ⟨rfl, rfl⟩

end KeryxMiner.EscrowLifecycle
