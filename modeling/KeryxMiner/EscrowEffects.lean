import KeryxMiner.Escrow
import Mathlib.Tactic.Common

/-!
What the calls of an escrow watcher can do to the entries and to the claim in
flight, function by function.
-/

namespace KeryxMiner.EscrowEffects

open ByteCodec RpcMessages Escrow

/-- Same account, same claim in flight. -/
structure SameClaim (before after : EscrowWatcher) : Prop where
  account : after.account = before.account
  txid : after.pendingClaimTxid = before.pendingClaimTxid
  index : after.pendingClaimOutputIndex = before.pendingClaimOutputIndex

theorem SameClaim.refl (watcher : EscrowWatcher) : SameClaim watcher watcher := ⟨rfl, rfl, rfl⟩

theorem SameClaim.trans {first second third : EscrowWatcher} (left : SameClaim first second)
    (right : SameClaim second third) : SameClaim first third :=
  ⟨right.account.trans left.account, right.txid.trans left.txid, right.index.trans left.index⟩

theorem same_claim_fold {Item : Type} {change : EscrowWatcher → Item → EscrowWatcher}
    (same : ∀ watcher item, SameClaim watcher (change watcher item)) (items : List Item)
    (watcher : EscrowWatcher) : SameClaim watcher (items.foldl change watcher) := by
  apply List.foldlRecOn (motive := SameClaim watcher) _ _ (SameClaim.refl watcher)
  intro other reached item _
  exact reached.trans (same other item)

theorem rebuild_same_claim (watcher : EscrowWatcher) :
    SameClaim watcher (rebuildIndexes watcher) := by
  have indexed : ∀ other entry, SameClaim other (indexEntry other entry) :=
    fun _ _ => ⟨rfl, rfl, rfl⟩
  have cleared : SameClaim watcher { watcher with outpointSet := [], blockIndex := fun _ => [] } :=
    ⟨rfl, rfl, rfl⟩
  exact cleared.trans (same_claim_fold indexed _ _)

theorem rebuild_entries (watcher : EscrowWatcher) :
    (rebuildIndexes watcher).state = watcher.state :=
  List.foldlRecOn (motive := fun other : EscrowWatcher => other.state = watcher.state) _ _ rfl
    fun _ same _ _ => same

theorem compact_same_claim (watcher : EscrowWatcher) : SameClaim watcher (compact watcher) := by
  unfold compact
  dsimp only
  split
  · have rebuilt := rebuild_same_claim { watcher with
      state := ⟨watcher.state.entries.filter fun e => !e.claimed && !e.slashed⟩ }
    exact ⟨rebuilt.account, rebuilt.txid, rebuilt.index⟩
  · exact SameClaim.refl watcher

theorem count_block_same_claim (watcher : EscrowWatcher) :
    SameClaim watcher (countBlock watcher) := by
  unfold countBlock
  dsimp only
  split
  · have compacted := compact_same_claim { watcher with blocksSinceCompact := 0 }
    exact ⟨compacted.account, compacted.txid, compacted.index⟩
  · exact ⟨rfl, rfl, rfl⟩

/-- Slashing changes nothing or one unclaimed entry. -/
theorem slash_at_cases (watcher : EscrowWatcher) (i : Nat) :
    slashAt watcher i = watcher ∨
      ∃ entry, watcher.state.entries[i]? = some entry ∧ entry.claimed = false ∧
        slashAt watcher i = markDirty { watcher with
          state := ⟨watcher.state.entries.set i { entry with slashed := true }⟩ } := by
  unfold slashAt
  split
  · exact Or.inl rfl
  · rename_i entry found
    split
    · rename_i live
      simp only [Bool.and_eq_true, Bool.not_eq_true'] at live
      exact Or.inr ⟨entry, found, live.1.1.1, rfl⟩
    · exact Or.inl rfl

theorem slash_at_same_claim (watcher : EscrowWatcher) (i : Nat) :
    SameClaim watcher (slashAt watcher i) := by
  rcases slash_at_cases watcher i with same | ⟨_, _, _, slashed⟩
  · rw [same]
    exact SameClaim.refl watcher
  · rw [slashed]
    exact ⟨rfl, rfl, rfl⟩

theorem slash_reds_same_claim (verboseData : Option RpcBlockVerboseData)
    (watcher : EscrowWatcher) : SameClaim watcher (slashReds verboseData watcher) := by
  cases verboseData with
  | none => exact SameClaim.refl watcher
  | some verbose =>
      exact same_claim_fold (fun _ _ => same_claim_fold slash_at_same_claim _ _) _ watcher

section Outputs
variable (coinbaseTxid blockHash : String) (daaScore : UInt64)

/-- The entry of a coinbase output. -/
def rewardEntry (output : RpcTransactionOutput) (outIdx : Nat) : EscrowEntry where
  coinbaseTxid := coinbaseTxid
  blockHash := blockHash
  confirmDaa := daaScore
  amountSompi := output.amount
  outputIndex := UInt32.ofNat outIdx
  claimed := false
  slashed := false
  orphanSlashed := false
  orphanRetries := 0
  orphanRetryAfterDaa := none
  isInference := false

/-- An output to the account's escrow script that the watcher does not know. -/
structure Rewards (watcher : EscrowWatcher) (output : RpcTransactionOutput) (outIdx : Nat)
    (spk : RpcScriptPublicKey) : Prop where
  script : output.scriptPublicKey = some spk
  escrow : toLowercase spk.scriptPublicKey = watcher.account.escrowScriptHex
  version : spk.version = 0
  unseen : outpointKey coinbaseTxid outIdx ∉ watcher.outpointSet

def withReward (output : RpcTransactionOutput) (outIdx : Nat) (watcher : EscrowWatcher) :
    EscrowWatcher :=
  markDirty { watcher with
    state := ⟨watcher.state.entries ++ [rewardEntry coinbaseTxid blockHash daaScore output outIdx]⟩
    outpointSet := watcher.outpointSet.insert (outpointKey coinbaseTxid outIdx)
    blockIndex := addToBlock watcher.blockIndex blockHash watcher.state.entries.length }

theorem track_output_cases (watcher : EscrowWatcher) (output : RpcTransactionOutput)
    (outIdx : Nat) :
    trackOutput coinbaseTxid blockHash daaScore watcher (output, outIdx) = watcher ∨
      (∃ spk, Rewards coinbaseTxid watcher output outIdx spk) ∧
        trackOutput coinbaseTxid blockHash daaScore watcher (output, outIdx) =
          withReward coinbaseTxid blockHash daaScore output outIdx watcher := by
  simp only [trackOutput]
  split
  · exact Or.inl rfl
  · rename_i spk script
    split
    · rename_i pays
      exact Or.inr ⟨⟨spk, script, pays.1, pays.2.1, pays.2.2⟩, rfl⟩
    · exact Or.inl rfl

theorem track_output_same_claim (watcher : EscrowWatcher) (entry : RpcTransactionOutput × Nat) :
    SameClaim watcher (trackOutput coinbaseTxid blockHash daaScore watcher entry) := by
  rcases track_output_cases coinbaseTxid blockHash daaScore watcher entry.1 entry.2 with
    same | ⟨_, tracked⟩
  · rw [same]
    exact SameClaim.refl watcher
  · rw [tracked]
    exact ⟨rfl, rfl, rfl⟩

/-- A reward that a scan adds to the entries. -/
structure Added (outputs : List RpcTransactionOutput) (start : EscrowWatcher) (e : EscrowEntry)
    (outIdx : Nat) (output : RpcTransactionOutput) (spk : RpcScriptPublicKey) : Prop where
  here : outputs[outIdx]? = some output
  rewards : Rewards coinbaseTxid start output outIdx spk
  entry : e = rewardEntry coinbaseTxid blockHash daaScore output outIdx

theorem track_outputs_added (outputs : List RpcTransactionOutput) (start : EscrowWatcher) :
    ∃ added, (trackOutputs coinbaseTxid blockHash daaScore outputs start).state.entries =
        start.state.entries ++ added ∧
      ∀ e ∈ added, ∃ outIdx output spk,
        Added coinbaseTxid blockHash daaScore outputs start e outIdx output spk := by
  -- the account decides what is tracked; the set only grows, so what it lacks later it lacked first
  have scan := List.foldlRecOn (motive := fun watcher : EscrowWatcher =>
    watcher.account = start.account ∧ (∀ key ∈ start.outpointSet, key ∈ watcher.outpointSet) ∧
      ∃ added, watcher.state.entries = start.state.entries ++ added ∧
        ∀ e ∈ added, ∃ outIdx output spk,
          Added coinbaseTxid blockHash daaScore outputs start e outIdx output spk)
    outputs.zipIdx (trackOutput coinbaseTxid blockHash daaScore)
    ⟨rfl, fun _ member => member, [], (List.append_nil _).symm, fun _ member => nomatch member⟩ ?_
  · exact scan.2.2
  rintro watcher ⟨account, grown, added, entries, each⟩ ⟨output, outIdx⟩ member
  rcases track_output_cases coinbaseTxid blockHash daaScore watcher output outIdx with
    same | ⟨⟨spk, rewards⟩, tracked⟩
  · rw [same]
    exact ⟨account, grown, added, entries, each⟩
  · rw [tracked]
    refine ⟨account, fun key old => List.mem_insert_iff.mpr (Or.inr (grown key old)),
      added ++ [rewardEntry coinbaseTxid blockHash daaScore output outIdx], ?_, ?_⟩
    · rw [← List.append_assoc, ← entries]
      rfl
    · intro e new
      rcases List.mem_append.mp new with old | last
      · exact each e old
      · obtain rfl := List.mem_singleton.mp last
        have here := List.mem_zipIdx_iff_getElem?.mp member
        have unseen := fun old => rewards.unseen (grown _ old)
        exact ⟨outIdx, output, spk, here,
          ⟨rewards.script, account ▸ rewards.escrow, rewards.version, unseen⟩, rfl⟩

end Outputs

theorem flush_same_claim (clock : Clock) (watcher : EscrowWatcher) :
    SameClaim watcher (maybeFlush clock watcher).1 := by
  unfold maybeFlush
  split
  · exact ⟨rfl, rfl, rfl⟩
  · exact SameClaim.refl watcher

theorem flush_state (clock : Clock) (watcher : EscrowWatcher) :
    (maybeFlush clock watcher).1.state = watcher.state := by
  unfold maybeFlush
  split <;> rfl

/-! Properties of all entries. -/

/-- The entry a coinbase output of the block is tracked as. -/
def Tracked (block : RpcBlock) (watcher : EscrowWatcher) (e : EscrowEntry) : Prop :=
  ∃ coinbase output outIdx spk, findCoinbase block = some (coinbase, e.coinbaseTxid) ∧
    coinbase.outputs[outIdx]? = some output ∧ output.scriptPublicKey = some spk ∧
    toLowercase spk.scriptPublicKey = watcher.account.escrowScriptHex ∧ spk.version = 0 ∧
    e.amountSompi = output.amount ∧ e.outputIndex = UInt32.ofNat outIdx ∧
    e.claimed = false ∧ e.slashed = false ∧ e.isInference = false

theorem Added.tracked {txid blockHash : String} {daaScore : UInt64} {coinbase : RpcTransaction}
    {start : EscrowWatcher} {e : EscrowEntry} {outIdx : Nat} {output : RpcTransactionOutput}
    {spk : RpcScriptPublicKey} (block : RpcBlock)
    (added : Added txid blockHash daaScore coinbase.outputs start e outIdx output spk)
    (found : findCoinbase block = some (coinbase, txid)) : Tracked block start e := by
  obtain rfl := added.entry
  exact ⟨coinbase, output, outIdx, spk, found, added.here, added.rewards.script,
    added.rewards.escrow, added.rewards.version, rfl, rfl, rfl, rfl, rfl⟩

section Entries
variable {holds : EscrowEntry → Prop}

def AllEntries (holds : EscrowEntry → Prop) (watcher : EscrowWatcher) : Prop :=
  ∀ e ∈ watcher.state.entries, holds e

theorem count_block_entries (watcher : EscrowWatcher) (all : AllEntries holds watcher) :
    AllEntries holds (countBlock watcher) := by
  intro e member
  unfold countBlock compact at member
  dsimp only at member
  split at member
  · split at member
    · rw [markDirty, rebuild_entries] at member
      exact all e (List.mem_filter.mp member).1
    · exact all e member
  · exact all e member

theorem slash_at_entries
    (reddens : ∀ e, holds e → e.claimed = false → holds { e with slashed := true })
    (watcher : EscrowWatcher) (i : Nat) (all : AllEntries holds watcher) :
    AllEntries holds (slashAt watcher i) := by
  rcases slash_at_cases watcher i with same | ⟨entry, found, unclaimed, slashed⟩
  · rwa [same]
  · rw [slashed]
    intro e member
    rcases List.mem_or_eq_of_mem_set member with old | rfl
    · exact all e old
    · exact reddens entry (all entry (List.mem_of_getElem? found)) unclaimed

theorem slash_reds_entries
    (reddens : ∀ e, holds e → e.claimed = false → holds { e with slashed := true })
    (verboseData : Option RpcBlockVerboseData) (watcher : EscrowWatcher)
    (all : AllEntries holds watcher) : AllEntries holds (slashReds verboseData watcher) := by
  cases verboseData with
  | none => exact all
  | some verbose =>
      apply List.foldlRecOn (motive := AllEntries holds) _ _ all
      intro other kept red _
      apply List.foldlRecOn (motive := AllEntries holds) _ _ kept
      intro next later i _
      exact slash_at_entries reddens next i later

theorem track_outputs_entries (block : RpcBlock) (coinbase : RpcTransaction) (txid : String)
    (found : findCoinbase block = some (coinbase, txid)) (blockHash : String) (daaScore : UInt64)
    (start : EscrowWatcher) (tracks : ∀ e, Tracked block start e → holds e)
    (all : AllEntries holds start) :
    AllEntries holds (trackOutputs txid blockHash daaScore coinbase.outputs start) := by
  obtain ⟨added, grew, each⟩ :=
    track_outputs_added txid blockHash daaScore coinbase.outputs start
  intro e member
  rw [grew] at member
  rcases List.mem_append.mp member with old | new
  · exact all e old
  · obtain ⟨outIdx, output, spk, reward⟩ := each e new
    exact tracks e (reward.tracked block found)

end Entries

/-! The calls. -/

section Calls
variable (crates : Crates)

/-- What `find_claim` does when it does something. -/
structure Claims (daaScore : UInt64) (before : EscrowWatcher) (entry : EscrowEntry)
    (tx : RpcTransaction) (after : EscrowWatcher) : Prop where
  idle : before.pendingClaimTxid = none
  selected : selectEntry daaScore before.state.entries = some entry
  built : buildClaimTx crates before entry = .ok tx
  flies : after = { before with
    pendingClaimOutputIndex := some entry.outputIndex
    pendingClaimTxid := some entry.coinbaseTxid }

theorem find_claim_cases (daaScore : UInt64) (watcher : EscrowWatcher) :
    findClaim crates daaScore watcher = (watcher, none) ∨
      ∃ entry tx after, findClaim crates daaScore watcher = (after, some tx) ∧
        Claims crates daaScore watcher entry tx after := by
  unfold findClaim
  split
  · exact Or.inl rfl
  · rename_i idle
    split
    · exact Or.inl rfl
    · rename_i entry selected
      split
      · rename_i tx built
        exact Or.inr ⟨entry, tx, _, rfl, by simpa using idle, selected, built, rfl⟩
      · exact Or.inl rfl

theorem find_claim_some_iff (daaScore : UInt64) {watcher : EscrowWatcher}
    (idle : watcher.pendingClaimTxid = none) :
    (∃ tx, (findClaim crates daaScore watcher).2 = some tx) ↔
      ∃ entry, selectEntry daaScore watcher.state.entries = some entry ∧
        ∃ tx, buildClaimTx crates watcher entry = .ok tx := by
  constructor
  · rintro ⟨tx, found⟩
    rcases find_claim_cases crates daaScore watcher with none_found | ⟨entry, other, _, _, claims⟩
    · rw [none_found] at found
      contradiction
    · exact ⟨entry, claims.selected, other, claims.built⟩
  · rintro ⟨entry, selected, tx, built⟩
    exact ⟨tx, by simp [findClaim, idle, selected, built]⟩

theorem find_claim_state (daaScore : UInt64) (watcher : EscrowWatcher) :
    (findClaim crates daaScore watcher).1.state = watcher.state := by
  rcases find_claim_cases crates daaScore watcher with same | ⟨_, _, after, found, claims⟩
  · rw [same]
  · rw [found, claims.flies]

/-- The transaction's only input is the outpoint. -/
def SpendsOnly (tx : RpcTransaction) (outpoint : RpcOutpoint) : Prop :=
  ∃ input, tx.inputs = [input] ∧ input.previousOutpoint = some outpoint

theorem built_spends {watcher : EscrowWatcher} {entry : EscrowEntry} {tx : RpcTransaction}
    (built : buildClaimTx crates watcher entry = .ok tx) :
    SpendsOnly tx ⟨entry.coinbaseTxid, entry.outputIndex⟩ := by
  unfold buildClaimTx at built
  cases paid : amountOut entry.amountSompi with
  | error e => simp [paid, bind, Except.bind] at built
  | ok amount =>
      cases bytes : coinbaseBytes crates entry.coinbaseTxid with
      | error e => simp [paid, bytes, bind, Except.bind] at built
      | ok txid =>
          simp only [paid, bytes, bind, Except.bind] at built
          split at built
          · contradiction
          · obtain rfl := Except.ok.inj built
            exact ⟨_, rfl, rfl⟩

/-- A claim of the outpoint is in flight that was not before. -/
structure Submits (before after : EscrowWatcher) (outpoint : RpcOutpoint) (tx : RpcTransaction) :
    Prop where
  idle : before.pendingClaimTxid = none
  txid : after.pendingClaimTxid = some outpoint.transactionId
  index : after.pendingClaimOutputIndex = some outpoint.index
  spends : SpendsOnly tx outpoint

theorem find_claim_effect (daaScore : UInt64) (watcher : EscrowWatcher) :
    ((findClaim crates daaScore watcher).2 = none ∧
      SameClaim watcher (findClaim crates daaScore watcher).1) ∨
    ∃ outpoint tx, (findClaim crates daaScore watcher).2 = some tx ∧
      Submits watcher (findClaim crates daaScore watcher).1 outpoint tx := by
  rcases find_claim_cases crates daaScore watcher with same | ⟨entry, tx, after, found, claims⟩
  · rw [same]
    exact Or.inl ⟨rfl, SameClaim.refl watcher⟩
  · rw [found]
    refine Or.inr ⟨_, tx, rfl, claims.idle, ?_, ?_, built_spends crates claims.built⟩
    · rw [claims.flies]
    · rw [claims.flies]

variable (clock : Clock) (block : RpcBlock)

/-- The watcher when `handle_block` comes to `find_claim`. -/
def scanned (header : RpcBlockHeader) (coinbase : RpcTransaction) (txid : String)
    (watcher : EscrowWatcher) : EscrowWatcher :=
  trackOutputs txid ((block.verboseData.map (·.hash)).getD "") header.daaScore coinbase.outputs
    (slashReds block.verboseData (countBlock { watcher with lastDaaScore := header.daaScore }))

theorem counted_same_claim (header : RpcBlockHeader) (watcher : EscrowWatcher) :
    SameClaim watcher (slashReds block.verboseData
      (countBlock { watcher with lastDaaScore := header.daaScore })) := by
  have noted : SameClaim watcher { watcher with lastDaaScore := header.daaScore } :=
    ⟨rfl, rfl, rfl⟩
  exact (noted.trans (count_block_same_claim _)).trans (slash_reds_same_claim _ _)

theorem scanned_same_claim (header : RpcBlockHeader) (coinbase : RpcTransaction) (txid : String)
    (watcher : EscrowWatcher) : SameClaim watcher (scanned block header coinbase txid watcher) :=
  (counted_same_claim block header watcher).trans
    (same_claim_fold (track_output_same_claim txid _ header.daaScore) coinbase.outputs.zipIdx _)

/-- The ways through `handle_block`. -/
theorem handle_block_cases (watcher : EscrowWatcher) :
    (∃ after, handleBlock crates clock block watcher = ⟨after, none, none⟩ ∧
      (after = watcher ∨ ∃ header : RpcBlockHeader, after = slashReds block.verboseData
        (countBlock { watcher with lastDaaScore := header.daaScore }))) ∨
    ∃ (header : RpcBlockHeader) (coinbase : RpcTransaction) (txid : String),
      findCoinbase block = some (coinbase, txid) ∧
      handleBlock crates clock block watcher =
        let found := findClaim crates header.daaScore (scanned block header coinbase txid watcher)
        ⟨(maybeFlush clock found.1).1, found.2, (maybeFlush clock found.1).2⟩ := by
  cases present : block.header with
  | none => exact Or.inl ⟨watcher, by simp only [handleBlock, present], Or.inl rfl⟩
  | some header =>
      cases found : findCoinbase block with
      | none =>
          exact Or.inl ⟨_, by simp only [handleBlock, present, found], Or.inr ⟨header, rfl⟩⟩
      | some coinbase =>
          refine Or.inr ⟨header, coinbase.1, coinbase.2, rfl, ?_⟩
          simp only [handleBlock, present, found]
          rfl

theorem handle_block_claim (watcher : EscrowWatcher) :
    ((handleBlock crates clock block watcher).claim = none ∧
      SameClaim watcher (handleBlock crates clock block watcher).watcher) ∨
    ∃ outpoint tx, (handleBlock crates clock block watcher).claim = some tx ∧
      Submits watcher (handleBlock crates clock block watcher).watcher outpoint tx := by
  rcases handle_block_cases crates clock block watcher with
    ⟨after, handled, same | ⟨header, rfl⟩⟩ | ⟨header, coinbase, txid, _, handled⟩
  · rw [handled, same]
    exact Or.inl ⟨rfl, SameClaim.refl watcher⟩
  · rw [handled]
    exact Or.inl ⟨rfl, counted_same_claim block header watcher⟩
  · rw [handled]
    have scan := scanned_same_claim block header coinbase txid watcher
    have flushed := flush_same_claim clock
      (findClaim crates header.daaScore (scanned block header coinbase txid watcher)).1
    rcases find_claim_effect crates header.daaScore (scanned block header coinbase txid watcher)
      with ⟨none_found, same⟩ | ⟨outpoint, tx, claim, submits⟩
    · exact Or.inl ⟨none_found, (scan.trans same).trans flushed⟩
    · exact Or.inr ⟨outpoint, tx, claim, scan.txid ▸ submits.idle,
        flushed.txid.trans submits.txid, flushed.index.trans submits.index, submits.spends⟩

section Entries
variable {holds : EscrowEntry → Prop}
variable (reddens : ∀ e, holds e → e.claimed = false → holds { e with slashed := true })
variable (watcher : EscrowWatcher) (all : AllEntries holds watcher)
include reddens all

theorem counted_entries (header : RpcBlockHeader) :
    AllEntries holds (slashReds block.verboseData
      (countBlock { watcher with lastDaaScore := header.daaScore })) :=
  slash_reds_entries reddens _ _
    (count_block_entries { watcher with lastDaaScore := header.daaScore } all)

/-- What the scan keeps of the entries, the call keeps. -/
theorem handle_block_scanned
    (scan : ∀ header coinbase txid, findCoinbase block = some (coinbase, txid) →
      AllEntries holds (scanned block header coinbase txid watcher)) :
    AllEntries holds (handleBlock crates clock block watcher).watcher := by
  rcases handle_block_cases crates clock block watcher with
    ⟨_, handled, same | ⟨header, rfl⟩⟩ | ⟨header, coinbase, txid, found, handled⟩
  · rw [handled, same]
    exact all
  · rw [handled]
    exact counted_entries block reddens watcher all header
  · intro e member
    rw [handled] at member
    dsimp only at member
    rw [flush_state, find_claim_state] at member
    exact scan header coinbase txid found e member

theorem handle_block_entries (tracks : ∀ e, Tracked block watcher e → holds e) :
    AllEntries holds (handleBlock crates clock block watcher).watcher := by
  apply handle_block_scanned crates clock block reddens watcher all
  intro header coinbase txid found
  refine track_outputs_entries block coinbase txid found _ header.daaScore _ ?_ ?_
  · intro e new
    have same := (counted_same_claim block header watcher).account
    rw [Tracked, same] at new
    exact tracks e new
  · exact counted_entries block reddens watcher all header

end Entries

end Calls

section Inference
variable (clock : Clock) (txid : String) (confirmDaa amount : UInt64)

/-- The entry of the reward for an answered request. -/
def inferenceEntry : EscrowEntry where
  coinbaseTxid := txid
  blockHash := ""
  confirmDaa := confirmDaa
  amountSompi := amount
  outputIndex := 1
  claimed := false
  slashed := false
  orphanSlashed := false
  orphanRetries := 0
  orphanRetryAfterDaa := none
  isInference := true

def withInference (watcher : EscrowWatcher) : EscrowWatcher :=
  markDirty { watcher with
    state := ⟨watcher.state.entries ++ [inferenceEntry txid confirmDaa amount]⟩
    outpointSet := watcher.outpointSet.insert (outpointKey txid 1)
    blockIndex := addToBlock watcher.blockIndex "" watcher.state.entries.length }

theorem track_inference_cases (watcher : EscrowWatcher) :
    trackInferenceEscrow clock txid confirmDaa amount watcher = (watcher, none) ∨
      amount ≠ 0 ∧ outpointKey txid 1 ∉ watcher.outpointSet ∧
        trackInferenceEscrow clock txid confirmDaa amount watcher =
          maybeFlush clock (withInference txid confirmDaa amount watcher) := by
  simp only [trackInferenceEscrow]
  split
  · exact Or.inl rfl
  · rename_i fresh
    exact Or.inr ⟨fun zero => fresh (Or.inl zero), fun seen => fresh (Or.inr seen), rfl⟩

theorem track_inference_same_claim (watcher : EscrowWatcher) :
    SameClaim watcher (trackInferenceEscrow clock txid confirmDaa amount watcher).1 := by
  rcases track_inference_cases clock txid confirmDaa amount watcher with
    same | ⟨_, _, tracked⟩
  · rw [same]
    exact SameClaim.refl watcher
  · rw [tracked]
    have flushed := flush_same_claim clock (withInference txid confirmDaa amount watcher)
    exact ⟨flushed.account, flushed.txid, flushed.index⟩

theorem track_inference_entries {holds : EscrowEntry → Prop} (watcher : EscrowWatcher)
    (tracks : amount ≠ 0 → outpointKey txid 1 ∉ watcher.outpointSet →
      holds (inferenceEntry txid confirmDaa amount))
    (all : AllEntries holds watcher) :
    AllEntries holds (trackInferenceEscrow clock txid confirmDaa amount watcher).1 := by
  rcases track_inference_cases clock txid confirmDaa amount watcher with
    same | ⟨positive, unseen, tracked⟩
  · rwa [same]
  · intro e member
    rw [tracked, flush_state] at member
    rcases List.mem_append.mp member with old | new
    · exact all e old
    · obtain rfl := List.mem_singleton.mp new
      exact tracks positive unseen

end Inference

/-! Answers. -/

/-- What an answer makes of the entry it is for. -/
inductive Answered (lastDaaScore : UInt64) (e : EscrowEntry) : Option String → EscrowEntry → Prop
    where
  | accepted : Answered lastDaaScore e none { e with claimed := true }
  | exhausted {message : String} (last : maxOrphanRetries ≤ e.orphanRetries + 1) :
      Answered lastDaaScore e (some message)
        { e with orphanRetries := e.orphanRetries + 1, orphanSlashed := false, slashed := true }
  | retries {message : String} (left : ¬ maxOrphanRetries ≤ e.orphanRetries + 1) :
      Answered lastDaaScore e (some message)
        { e with
          orphanRetries := e.orphanRetries + 1
          orphanSlashed := true
          orphanRetryAfterDaa := some (lastDaaScore + orphanRetryCooldownBlocks) }
  | waits {message : String} : Answered lastDaaScore e (some message)
      { e with orphanRetryAfterDaa := some (lastDaaScore + seqLockRetryCooldownBlocks) }
  | refused {message : String} : Answered lastDaaScore e (some message) { e with slashed := true }

theorem answer_answered (lastDaaScore : UInt64) (error : Option String) (e : EscrowEntry) :
    Answered lastDaaScore e error (answerEntry lastDaaScore error e) := by
  unfold answerEntry
  cases error with
  | none => exact .accepted
  | some message =>
      dsimp only
      split
      · split
        · rename_i last
          exact .exhausted last
        · rename_i left
          exact .retries left
      · split
        · exact .waits
        · exact .refused

section Update
variable {Item : Type} (isTarget : Item → Bool) (update : Item → Item)

@[simp]
theorem update_first_length (items : List Item) :
    (updateFirst isTarget update items).length = items.length := by
  induction items with
  | nil => rfl
  | cons item rest ih =>
      unfold updateFirst
      split
      · rfl
      · simp [ih]

/-- Only a target changes, and it changes by `update`. -/
theorem update_first_get (items : List Item) (i : Nat) {before after : Item}
    (at_before : items[i]? = some before)
    (at_after : (updateFirst isTarget update items)[i]? = some after) :
    after = before ∨ (isTarget before = true ∧ after = update before) := by
  induction items generalizing i with
  | nil => contradiction
  | cons item rest ih =>
      unfold updateFirst at at_after
      split at at_after
      · rename_i target
        cases i with
        | zero =>
            obtain rfl := Option.some.inj at_before
            exact Or.inr ⟨target, (Option.some.inj at_after).symm⟩
        | succ i =>
            rw [List.getElem?_cons_succ] at at_before at_after
            exact Or.inl (Option.some.inj (at_after.symm.trans at_before))
      · cases i with
        | zero => exact Or.inl (Option.some.inj (at_after.symm.trans at_before))
        | succ i => exact ih i at_before at_after

theorem mem_update_first (items : List Item) {after : Item}
    (member : after ∈ updateFirst isTarget update items) :
    after ∈ items ∨ ∃ before ∈ items, isTarget before = true ∧ after = update before := by
  obtain ⟨i, inside, rfl⟩ := List.mem_iff_getElem.mp member
  have within : i < items.length := by rwa [update_first_length] at inside
  rcases update_first_get isTarget update items i (List.getElem?_eq_getElem within)
    (List.getElem?_eq_getElem inside) with same | changed
  · exact Or.inl (same ▸ List.getElem_mem within)
  · exact Or.inr ⟨items[i], List.getElem_mem within, changed⟩

end Update

theorem submit_idle (clock : Clock) (error : Option String) {watcher : EscrowWatcher}
    (idle : watcher.pendingClaimTxid = none) :
    onSubmitResponse clock error watcher = (watcher, none) := by
  simp [onSubmitResponse, idle]

/-- An answer to a claim in flight. -/
theorem submit_answers (clock : Clock) (error : Option String) {watcher : EscrowWatcher}
    {txid : String} (pending : watcher.pendingClaimTxid = some txid) :
    (onSubmitResponse clock error watcher).1.account = watcher.account ∧
      (onSubmitResponse clock error watcher).1.pendingClaimTxid = none ∧
      (onSubmitResponse clock error watcher).1.state.entries =
        updateFirst (isOutpoint txid (watcher.pendingClaimOutputIndex.getD 1))
          (answerEntry watcher.lastDaaScore error) watcher.state.entries := by
  simp only [onSubmitResponse, pending]
  have flushed := flush_same_claim clock
  exact ⟨(flushed _).account, (flushed _).txid, by rw [flush_state]; rfl⟩

theorem submit_entries {holds : EscrowEntry → Prop} (clock : Clock) (error : Option String)
    (watcher : EscrowWatcher)
    (answers : ∀ e, holds e → holds (answerEntry watcher.lastDaaScore error e))
    (all : AllEntries holds watcher) :
    AllEntries holds (onSubmitResponse clock error watcher).1 := by
  cases pending : watcher.pendingClaimTxid with
  | none => rwa [submit_idle clock error pending]
  | some txid =>
      intro e member
      rw [(submit_answers clock error pending).2.2] at member
      rcases mem_update_first _ _ _ member with old | ⟨before, old, _, rfl⟩
      · exact all e old
      · exact answers before (all before old)

/-! A sample account. -/

def onesTxid : String := "1111111111111111111111111111111111111111111111111111111111111111"
def twosTxid : String := "2222222222222222222222222222222222222222222222222222222222222222"

def sampleCrates : Crates where
  hexDecode text :=
    if text = onesTxid then .ok (List.replicate 32 0x11)
    else if text = twosTxid then .ok (List.replicate 32 0x22)
    else .error "Odd number of digits"
  hexEncode bytes := String.ofList
    (bytes.flatMap fun b => [Nat.digitChar (b.toNat / 16), Nat.digitChar (b.toNat % 16)])
  blake2b _ _ := zeroBytes 32
  fromDigestSlice digest := .ok digest
  signSchnorr _ _ := zeroBytes 64

def sampleAccount : ClaimAccount where
  secretKey := ⟨1 :: (zeroBytes 31).items, rfl⟩
  escrowScript := [2, 0xa0, 0x8c, 0xb1, 0x20] ++ List.replicate 32 7 ++ [0xac]
  escrowScriptHex :=
    "02a08cb1200707070707070707070707070707070707070707070707070707070707070707ac"
  payoutSpkVersion := 0
  payoutSpkScript := [0x20] ++ List.replicate 32 9 ++ [0xac]
  payoutSpkScriptHex :=
    "200909090909090909090909090909090909090909090909090909090909090909ac"

end KeryxMiner.EscrowEffects
