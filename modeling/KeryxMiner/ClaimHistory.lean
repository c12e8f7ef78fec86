import KeryxMiner.EscrowIndexes

/-!
Which outpoints are claimed a second time. The history beside the watcher is the
list of the outpoints whose claims were accepted.
-/

namespace KeryxMiner.ClaimHistory

open ByteCodec RpcMessages Escrow EscrowEffects TransitionRuns ClaimQueue EscrowIndexes

structure History where
  watcher : EscrowWatcher
  accepted : List RpcOutpoint

/-- The outpoint an answer is applied to. -/
def pendingOutpoint (watcher : EscrowWatcher) : Option RpcOutpoint :=
  watcher.pendingClaimTxid.map fun txid => ⟨txid, watcher.pendingClaimOutputIndex.getD 1⟩

def acceptedBy (watcher : EscrowWatcher) : Operation → List RpcOutpoint
  | .onSubmitResponse none => (pendingOutpoint watcher).toList
  | _ => []

def historyStep (crates : Crates) (history : History) (call : Operation × Clock) :
    Option History :=
  some {
    watcher := (operate crates history.watcher call).watcher
    accepted := acceptedBy history.watcher call.1 ++ history.accepted }

def Spends (tx : RpcTransaction) (outpoint : RpcOutpoint) : Prop :=
  ∃ input ∈ tx.inputs, input.previousOutpoint = some outpoint

/-- The call returns no claim of an outpoint that was claimed before. -/
def NoSecondClaim (crates : Crates) (before : History) (call : Operation × Clock)
    (_ : History) : Prop :=
  ∀ tx, (operate crates before.watcher call).claim = some tx →
    ∀ outpoint ∈ before.accepted, ¬ Spends tx outpoint

/-- An outpoint that was claimed before is not offered again, unless its entry
is still there. -/
def NoRetracking (before : History) (call : Operation × Clock) (_ : History) : Prop :=
  match call.1 with
  | .handleBlock block => ∀ e, Tracked block before.watcher e →
      entryOutpoint e ∈ before.accepted →
      entryKey e ∈ (countBlock before.watcher).outpointSet
  | .onSubmitResponse _ => True
  | .trackInferenceEscrow txid _ amount => amount ≠ 0 → ⟨txid, 1⟩ ∈ before.accepted →
      outpointKey txid 1 ∈ before.watcher.outpointSet

/-! The selected entry. -/

theorem select_entry_some {daaScore : UInt64} {entries : List EscrowEntry} {entry : EscrowEntry}
    (selected : selectEntry daaScore entries = some entry) :
    entry ∈ entries ∧ entry.claimed = false ∧ entry.slashed = false := by
  rw [select_entry_eq] at selected
  have eligible := List.find?_some selected
  simp only [isEligible, Bool.and_eq_true, Bool.not_eq_true'] at eligible
  exact ⟨mem_claim_order.mp (List.mem_of_find?_eq_some selected), eligible.1.1.1, eligible.1.1.2⟩

theorem spends_only {tx : RpcTransaction} {paid other : RpcOutpoint} (only : SpendsOnly tx paid)
    (spends : Spends tx other) : other = paid := by
  obtain ⟨input, inputs, paying⟩ := only
  obtain ⟨found, member, spending⟩ := spends
  rw [inputs, List.mem_singleton] at member
  rw [member, paying] at spending
  exact (Option.some.inj spending).symm

/-- A claim that `handle_block` returns spends an entry that the scan left open,
and is in flight afterwards. -/
theorem handle_block_selects (crates : Crates) (clock : Clock) (block : RpcBlock)
    (watcher : EscrowWatcher) {tx : RpcTransaction}
    (claim : (handleBlock crates clock block watcher).claim = some tx) :
    ∃ header coinbase txid entry, findCoinbase block = some (coinbase, txid) ∧
      entry ∈ (scanned block header coinbase txid watcher).state.entries ∧
      entry ∈ (handleBlock crates clock block watcher).watcher.state.entries ∧
      entry.claimed = false ∧ entry.slashed = false ∧ SpendsOnly tx (entryOutpoint entry) ∧
      watcher.pendingClaimTxid = none ∧
      pendingOutpoint (handleBlock crates clock block watcher).watcher =
        some (entryOutpoint entry) := by
  rcases handle_block_cases crates clock block watcher with
    ⟨after, handled, _⟩ | ⟨header, coinbase, txid, found, handled⟩
  · rw [handled] at claim
    contradiction
  · rw [handled] at claim ⊢
    dsimp only at claim ⊢
    have scan := scanned_same_claim block header coinbase txid watcher
    rcases find_claim_cases crates header.daaScore (scanned block header coinbase txid watcher)
      with none_found | ⟨entry, built, after, claimed, claims⟩
    · rw [none_found] at claim
      contradiction
    · rw [claimed] at claim ⊢
      obtain rfl := Option.some.inj claim
      obtain ⟨member, unclaimed, unslashed⟩ := select_entry_some claims.selected
      have flushed := flush_same_claim clock after
      refine ⟨header, coinbase, txid, entry, found, member, ?_, unclaimed, unslashed,
        built_spends crates claims.built, scan.txid ▸ claims.idle, ?_⟩
      · rw [flush_state, claims.flies]
        exact member
      · rw [pendingOutpoint, flushed.txid, flushed.index, claims.flies]
        rfl

/-! What a scan leaves in the entries. -/

theorem index_outpoints (items : List (EscrowEntry × Nat)) (watcher : EscrowWatcher) :
    (items.foldl indexEntry watcher).outpointSet = items.foldl (fun keys entry =>
      keys.insert (outpointKey entry.1.coinbaseTxid entry.1.outputIndex.toNat))
        watcher.outpointSet := by
  induction items generalizing watcher with
  | nil => rfl
  | cons item rest ih => rw [List.foldl_cons, ih, List.foldl_cons, indexEntry]

theorem count_block_outpoints (watcher : EscrowWatcher) (daaScore : UInt64) :
    (countBlock { watcher with lastDaaScore := daaScore }).outpointSet =
      (countBlock watcher).outpointSet := by
  simp only [countBlock, compact]
  split
  · split
    · simp only [markDirty, rebuildIndexes, index_outpoints]
    · rfl
  · rfl

theorem slash_reds_outpoints (verboseData : Option RpcBlockVerboseData)
    (watcher : EscrowWatcher) :
    (slashReds verboseData watcher).outpointSet = watcher.outpointSet := by
  have spots : ∀ (items : List Nat) (other : EscrowWatcher),
      (items.foldl slashAt other).outpointSet = other.outpointSet := fun items other =>
    List.foldlRecOn (motive := fun next : EscrowWatcher => next.outpointSet = other.outpointSet)
      items slashAt rfl fun next same i _ => (slash_at_lookups next i).1.trans same
  cases verboseData with
  | none => rfl
  | some verbose =>
      simp only [slashReds]
      generalize verbose.mergeSetRedsHashes = reds
      induction reds generalizing watcher with
      | nil => rfl
      | cons red rest ih => exact (ih (slashRed watcher red)).trans (spots _ watcher)

/-- An entry that the scan of a block adds. -/
structure NewEntry (block : RpcBlock) (watcher : EscrowWatcher) (e : EscrowEntry) : Prop where
  tracked : Tracked block watcher e
  unseen : entryKey e ∉ (countBlock watcher).outpointSet
  untried : e.orphanRetries = 0

theorem scanned_appends (block : RpcBlock) (framed : Framed (.handleBlock block))
    (header : RpcBlockHeader) (coinbase : RpcTransaction) (txid : String)
    (found : findCoinbase block = some (coinbase, txid)) (watcher : EscrowWatcher) :
    ∃ added, (scanned block header coinbase txid watcher).state.entries =
        (slashReds block.verboseData
          (countBlock { watcher with lastDaaScore := header.daaScore })).state.entries ++ added ∧
      ∀ e ∈ added, NewEntry block watcher e := by
  obtain ⟨added, grew, each⟩ := track_outputs_appends block coinbase txid found
    (framed coinbase (find_coinbase_mem found)) ((block.verboseData.map (·.hash)).getD "")
    header.daaScore (slashReds block.verboseData
      (countBlock { watcher with lastDaaScore := header.daaScore }))
  refine ⟨added, grew, fun e member => ?_⟩
  have appended := each e member
  have same := (counted_same_claim block header watcher).account
  have tracked := appended.tracked
  have unseen := appended.unseen
  rw [Tracked, same] at tracked
  rw [slash_reds_outpoints, count_block_outpoints] at unseen
  exact ⟨tracked, unseen, appended.untried⟩

section Scans
variable {holds : EscrowEntry → Prop}
variable (reddens : ∀ e, holds e → e.claimed = false → holds { e with slashed := true })
variable (block : RpcBlock) (framed : Framed (.handleBlock block)) (watcher : EscrowWatcher)
variable (news : ∀ e, NewEntry block watcher e → holds e) (all : AllEntries holds watcher)
include reddens framed news all

theorem scanned_keeps (header : RpcBlockHeader) (coinbase : RpcTransaction) (txid : String)
    (found : findCoinbase block = some (coinbase, txid)) :
    AllEntries holds (scanned block header coinbase txid watcher) := by
  obtain ⟨added, grew, each⟩ := scanned_appends block framed header coinbase txid found watcher
  intro e member
  rw [grew] at member
  rcases List.mem_append.mp member with old | new
  · exact counted_entries block reddens watcher all header e old
  · exact news e (each e new)

theorem handle_block_keeps (crates : Crates) (clock : Clock) :
    AllEntries holds (handleBlock crates clock block watcher).watcher :=
  handle_block_scanned crates clock block reddens watcher all
    (scanned_keeps reddens block framed watcher news all)

end Scans

/-! Accepted claims and the entries. -/

/-- The entries whose claims were accepted are not open. -/
def Retired (accepted : List RpcOutpoint) (e : EscrowEntry) : Prop :=
  entryOutpoint e ∈ accepted → e.claimed = true ∨ e.slashed = true

structure Settled (history : History) : Prop where
  indexed : Indexed history.watcher
  retired : AllEntries (Retired history.accepted) history.watcher

variable {crates : Crates}

theorem new_entry_retired (block : RpcBlock) (history : History) (clock : Clock)
    (after : History) (fresh : NoRetracking history (.handleBlock block, clock) after)
    (e : EscrowEntry) (new : NewEntry block history.watcher e) : Retired history.accepted e := by
  intro claimed
  exact absurd (fresh e new.tracked claimed) new.unseen

/-! Answers. -/

theorem is_outpoint_iff (outpoint : RpcOutpoint) (e : EscrowEntry) :
    isOutpoint outpoint.transactionId outpoint.index e = true ↔ entryOutpoint e = outpoint := by
  cases outpoint
  simp [isOutpoint, entryOutpoint]

/-- With distinct images the first target is the only one. -/
theorem update_first_all {Item Image : Type} (isTarget : Item → Bool) (update : Item → Item)
    (image : Item → Image) (wanted : Image)
    (targets : ∀ item, isTarget item = true ↔ image item = wanted) (items : List Item)
    (unique : (items.map image).Nodup) {after : Item}
    (member : after ∈ updateFirst isTarget update items) (hit : image after = wanted) :
    ∃ before ∈ items, isTarget before = true ∧ after = update before := by
  induction items with
  | nil => contradiction
  | cons item rest ih =>
      obtain ⟨alone, later⟩ := List.nodup_cons.mp unique
      unfold updateFirst at member
      split at member
      · rename_i target
        rcases List.mem_cons.mp member with rfl | old
        · exact ⟨item, List.mem_cons_self .., target, rfl⟩
        · apply absurd _ alone
          rw [(targets item).mp target, ← hit]
          exact List.mem_map_of_mem old
      · rename_i miss
        rcases List.mem_cons.mp member with rfl | old
        · exact absurd ((targets after).mpr hit) miss
        · obtain ⟨before, inside, changed⟩ := ih later old
          exact ⟨before, List.mem_cons_of_mem _ inside, changed⟩

theorem answer_flags (lastDaaScore : UInt64) (error : Option String) (e : EscrowEntry) :
    (e.claimed = true → (answerEntry lastDaaScore error e).claimed = true) ∧
      (e.slashed = true → (answerEntry lastDaaScore error e).slashed = true) := by
  have answered := answer_answered lastDaaScore error e
  generalize answerEntry lastDaaScore error e = after at answered
  cases answered with
  | accepted => exact ⟨fun _ => rfl, id⟩
  | exhausted _ => exact ⟨id, fun _ => rfl⟩
  | retries _ => exact ⟨id, id⟩
  | waits => exact ⟨id, id⟩
  | refused => exact ⟨id, fun _ => rfl⟩

theorem submit_settled (clock : Clock) (error : Option String) (history : History)
    (settled : Settled history) :
    AllEntries (Retired (acceptedBy history.watcher (.onSubmitResponse error) ++ history.accepted))
      (onSubmitResponse clock error history.watcher).1 := by
  have kept : AllEntries (Retired history.accepted)
      (onSubmitResponse clock error history.watcher).1 := by
    apply submit_entries clock error history.watcher _ settled.retired
    intro e retired claimed
    rw [(answer_outpoint _ error e).1] at claimed
    have flags := answer_flags history.watcher.lastDaaScore error e
    rcases retired claimed with done | done
    · exact Or.inl (flags.1 done)
    · exact Or.inr (flags.2 done)
  cases error with
  | some message => exact kept
  | none =>
      cases pending : history.watcher.pendingClaimTxid with
      | none => simpa [acceptedBy, pendingOutpoint, pending] using kept
      | some txid =>
          intro e member claimed
          simp only [acceptedBy, pendingOutpoint, pending, Option.map_some, Option.toList_some,
            List.cons_append, List.nil_append] at claimed
          rcases List.mem_cons.mp claimed with answered | earlier
          · rw [(submit_answers clock none pending).2.2] at member
            obtain ⟨before, _, _, rfl⟩ := update_first_all _ _ entryOutpoint _
              (is_outpoint_iff ⟨txid, history.watcher.pendingClaimOutputIndex.getD 1⟩) _
              settled.indexed.distinct member answered
            exact Or.inl rfl
          · exact kept e member earlier

theorem inference_settled (clock : Clock) (txid : String) (confirmDaa amount : UInt64)
    (history after : History)
    (fresh : NoRetracking history (.trackInferenceEscrow txid confirmDaa amount, clock) after)
    (settled : Settled history) :
    AllEntries (Retired history.accepted)
      (trackInferenceEscrow clock txid confirmDaa amount history.watcher).1 := by
  apply track_inference_entries clock txid confirmDaa amount history.watcher _ settled.retired
  intro positive unseen claimed
  exact absurd (fresh positive claimed) unseen

theorem history_settled (before : History) (call : Operation × Clock) (after : History)
    (settled : Settled before) (stepped : historyStep crates before call = some after)
    (allowed : Framed call.1 ∧ NoRetracking before call after) : Settled after := by
  obtain ⟨operation, clock⟩ := call
  obtain ⟨framed, fresh⟩ := allowed
  obtain rfl := Option.some.inj stepped
  constructor
  · exact operate_indexed crates before.watcher (operation, clock) framed settled.indexed
  · cases operation with
    | handleBlock block =>
        exact handle_block_keeps (fun _ _ _ _ => Or.inr rfl) block framed before.watcher
          (new_entry_retired block before clock _ fresh) settled.retired crates clock
    | onSubmitResponse error => exact submit_settled clock error before settled
    | trackInferenceEscrow txid confirmDaa amount =>
        exact inference_settled clock txid confirmDaa amount before _ fresh settled

theorem settled_no_second_claim (before : History) (call : Operation × Clock) (after : History)
    (settled : Settled before) (allowed : Framed call.1 ∧ NoRetracking before call after) :
    NoSecondClaim crates before call after := by
  obtain ⟨operation, clock⟩ := call
  obtain ⟨framed, fresh⟩ := allowed
  intro tx claim outpoint claimed spends
  cases operation with
  | handleBlock block =>
      obtain ⟨header, coinbase, txid, entry, found, member, _, unclaimed, unslashed, only, _⟩ :=
        handle_block_selects crates clock block before.watcher claim
      obtain rfl := spends_only only spends
      have retired := scanned_keeps (fun _ _ _ _ => Or.inr rfl) block framed before.watcher
        (new_entry_retired block before clock after fresh) settled.retired header coinbase txid
        found entry member claimed
      simp [unclaimed, unslashed] at retired
  | onSubmitResponse error => contradiction
  | trackInferenceEscrow txid confirmDaa amount => contradiction

/-- A run claims no outpoint twice as long as what was claimed is not offered
again after its entry was dropped. -/
theorem no_second_claim (crates : Crates) (account : ClaimAccount) (state : EscrowState)
    (now : Nat) (calls : List (Operation × Clock))
    (distinct : (state.entries.map entryOutpoint).Nodup)
    (allowed : EveryStep (historyStep crates)
      (fun before call after => Framed call.1 ∧ NoRetracking before call after)
      ⟨EscrowWatcher.loaded account state now, []⟩ calls) :
    EveryStep (historyStep crates) (NoSecondClaim crates)
      ⟨EscrowWatcher.loaded account state now, []⟩ calls := by
  apply every_step_of_invariant Settled history_settled _ calls _ _ allowed
  · intro before call after settled _ may
    exact settled_no_second_claim before call after settled may
  · constructor
    · exact loaded_indexed account state now distinct
    · intro e _ claimed
      contradiction

/-! One reward, claimed, dropped by a compaction, and delivered again. -/

def deliver (block : RpcBlock) : Operation × Clock := (.handleBlock block, ⟨0, 0⟩)

def rewarding : RpcBlock := rewardBlock 0 "aa" [] onesTxid [40000000]
def maturing : RpcBlock := rewardBlock 36010 "bb" [] twosTxid []

def claimedOnce : List (Operation × Clock) :=
  [deliver rewarding, deliver maturing, (.onSubmitResponse none, ⟨0, 0⟩)]

def claimedTwice : List (Operation × Clock) :=
  claimedOnce ++ (List.replicate 1997 (deliver maturing) ++
    [deliver maturing, deliver rewarding, deliver maturing])

/-- The watcher once the reward is claimed, `blocks` blocks after a compaction. -/
def paidWatcher (blocks : Nat) : EscrowWatcher where
  account := sampleAccount
  state := ⟨[{
    coinbaseTxid := onesTxid
    blockHash := "aa"
    confirmDaa := 0
    amountSompi := 40000000
    outputIndex := 0
    claimed := true
    slashed := false
    orphanSlashed := false
    orphanRetries := 0
    orphanRetryAfterDaa := none
    isInference := false }]⟩
  pendingClaimTxid := none
  pendingClaimOutputIndex := none
  lastDaaScore := 36010
  outpointSet := [outpointKey onesTxid 0]
  blockIndex := addToBlock (fun _ => []) "aa" 0
  dirty := true
  lastSave := 0
  blocksSinceCompact := UInt32.ofNat blocks

theorem no_second_claim_redelivered_early :
    EveryStep (historyStep sampleCrates) (NoSecondClaim sampleCrates)
      ⟨EscrowWatcher.loaded sampleAccount ⟨[]⟩ 0, []⟩ (claimedOnce ++ [deliver rewarding]) := by
  apply no_second_claim sampleCrates sampleAccount ⟨[]⟩ 0 (claimedOnce ++ [deliver rewarding])
    List.nodup_nil
  have framed : ∀ call ∈ claimedOnce ++ [deliver rewarding], Framed call.1 := by
    simp [claimedOnce, deliver, Framed, rewarding, maturing, rewardBlock]
  intro first stepped
  obtain rfl := Option.some.inj stepped
  refine ⟨⟨framed _ (by simp [claimedOnce]),
    fun _ _ none_yet => absurd none_yet List.not_mem_nil⟩, ?_⟩
  intro second stepped
  obtain rfl := Option.some.inj stepped
  refine ⟨⟨framed _ (by simp [claimedOnce]),
    fun _ _ none_yet => absurd none_yet List.not_mem_nil⟩, ?_⟩
  intro third stepped
  obtain rfl := Option.some.inj stepped
  refine ⟨⟨trivial, trivial⟩, ?_⟩
  intro fourth stepped
  refine ⟨⟨framed _ (by simp), ?_⟩, trivial⟩
  intro e _ claimed
  obtain ⟨same_txid, same_index⟩ := RpcOutpoint.mk.inj (List.mem_singleton.mp claimed)
  rw [entryKey, same_txid, same_index]
  exact List.mem_cons_self ..

theorem paid_watcher_waits (blocks : Nat) (early : blocks + 1 < 2000) :
    (operate sampleCrates (paidWatcher blocks) (deliver maturing)).watcher =
      paidWatcher (blocks + 1) := by
  have counted : (paidWatcher blocks).blocksSinceCompact + 1 = UInt32.ofNat (blocks + 1) :=
    (UInt32.ofNat_add blocks 1).symm
  have not_due : ¬ compactEveryBlocks ≤ UInt32.ofNat (blocks + 1) := by
    have size : UInt32.size = 2 ^ 32 := rfl
    rw [UInt32.le_iff_toNat_le, UInt32.toNat_ofNat_of_lt' (by omega)]
    have due : compactEveryBlocks.toNat = 2000 := rfl
    omega
  have block_count : countBlock { paidWatcher blocks with lastDaaScore := 36010 } =
      paidWatcher (blocks + 1) := by
    simp only [countBlock, counted, if_neg not_due]
    rfl
  simp only [operate, handleBlock, deliver, maturing, rewardBlock]
  rw [block_count]
  rfl

theorem paid_watcher_run (count blocks : Nat) (early : blocks + count < 2000)
    (accepted : List RpcOutpoint) :
    runFrom (historyStep sampleCrates) ⟨paidWatcher blocks, accepted⟩
        (List.replicate count (deliver maturing)) =
      some ⟨paidWatcher (blocks + count), accepted⟩ := by
  induction count generalizing blocks with
  | zero => rfl
  | succ count ih =>
      have step := paid_watcher_waits blocks (by omega)
      have next := ih (blocks + 1) (by omega)
      rw [List.replicate_succ, runFrom, historyStep, step]
      rw [show blocks + (count + 1) = blocks + 1 + count by omega]
      exact next

theorem redelivered_reward_claimed_twice :
    ¬ EveryStep (historyStep sampleCrates) (NoSecondClaim sampleCrates)
      ⟨EscrowWatcher.loaded sampleAccount ⟨[]⟩ 0, []⟩ claimedTwice := by
  intro each
  have paid : runFrom (historyStep sampleCrates)
      ⟨EscrowWatcher.loaded sampleAccount ⟨[]⟩ 0, []⟩ claimedOnce =
      some ⟨paidWatcher 2, [⟨onesTxid, 0⟩]⟩ := rfl
  have waited := every_step_suffix (paid_watcher_run 1997 2 (by omega) _)
    (every_step_suffix paid each)
  have again := ((waited _ rfl).2 _ rfl).2 _ rfl
  exact again.1 _ rfl ⟨onesTxid, 0⟩ (List.mem_cons_self ..) ⟨_, List.mem_cons_self .., rfl⟩

end KeryxMiner.ClaimHistory
