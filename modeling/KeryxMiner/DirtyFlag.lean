import KeryxMiner.EscrowStorage

/-!
The dirty flag of an escrow watcher against its state file, while one process
runs.
-/

namespace KeryxMiner.DirtyFlag

open RpcMessages Escrow EscrowEffects TransitionRuns EscrowStorage

/-- The file decodes to the state. -/
def holds (serde : SerdeJson) (file : Option (List UInt8)) (state : EscrowState) : Bool :=
  match file with
  | none => false
  | some bytes =>
      match serde.fromStr bytes with
      | .ok found => decide (found = state)
      | .error _ => false

/-- `kept` is the last state that was loaded or brought to the file. -/
structure Ledger where
  watcher : EscrowWatcher
  file : Option (List UInt8)
  kept : EscrowState
  attempted : Bool

structure Call where
  operation : Operation
  clock : Clock
  fate : WriteFate
  returned : Nat

section Ledgers
variable (serde : SerdeJson) (crates : Crates)

def Ledger.opened (account : ClaimAccount) (readable : Bool) (file : Option (List UInt8))
    (now : Nat) : Ledger where
  watcher := EscrowWatcher.loaded account (loadState serde readable file) now
  file := file
  kept := loadState serde readable file
  attempted := false

/-- A crash ends the run. -/
def ledgerStep (ledger : Ledger) (call : Call) : Option Ledger :=
  let outcome := operate crates ledger.watcher (call.operation, call.clock)
  match outcome.written with
  | none => some { ledger with watcher := outcome.watcher }
  | some state =>
      if call.fate.Crashes then none
      else
        let file := saveState serde call.fate state ledger.file
        some {
          watcher := outcome.watcher
          file := file
          kept := if holds serde file state then state else ledger.kept
          attempted := true }

def Truthful (ledger : Ledger) : Prop :=
  ledger.watcher.dirty = false → ledger.attempted = true →
    holds serde ledger.file ledger.watcher.state = true

/-- A call that returns an interval or more after the last attempt leaves nothing
unsaved but what its own save failed to write. -/
def NothingStranded (before : Ledger) (call : Call) (after : Ledger) : Prop :=
  stateSaveInterval ≤ call.returned - before.watcher.lastSave →
    after.watcher.state = after.kept ∨
      ∃ state, (operate crates before.watcher (call.operation, call.clock)).written = some state ∧
        holds serde after.file state = false

/-! The condition. -/

def ReachesFlush (watcher : EscrowWatcher) : Operation → Prop
  | .handleBlock block => block.header.isSome ∧ (findCoinbase block).isSome
  | .onSubmitResponse _ => watcher.pendingClaimTxid.isSome
  | .trackInferenceEscrow txid _ amount =>
      ¬ (amount = 0 ∨ outpointKey txid 1 ∈ watcher.outpointSet)

/-- Compaction is due and finds an entry to drop. -/
def Compacts (watcher : EscrowWatcher) : Prop :=
  compactEveryBlocks ≤ watcher.blocksSinceCompact + 1 ∧
    ∃ e ∈ watcher.state.entries, e.claimed = true ∨ e.slashed = true

/-- The entries that a red block slashes. -/
def Exposed (watcher : EscrowWatcher) (i : Nat) : Prop :=
  ∃ e, watcher.state.entries[i]? = some e ∧
    e.claimed = false ∧ e.slashed = false ∧ e.isInference = false ∧ e.blockHash ≠ ""

def Reddens (verboseData : Option RpcBlockVerboseData) (watcher : EscrowWatcher) : Prop :=
  ∃ verbose, verboseData = some verbose ∧
    ∃ redHash ∈ verbose.mergeSetRedsHashes, ∃ i ∈ watcher.blockIndex redHash, Exposed watcher i

def Pays (block : RpcBlock) (watcher : EscrowWatcher) : Prop :=
  ∃ coinbase txid, findCoinbase block = some (coinbase, txid) ∧
    ∃ entry ∈ coinbase.outputs.zipIdx, ∃ spk, Rewards txid watcher entry.1 entry.2 spk

/-- The calls that raise the flag; an answer does so even where its entry is gone. -/
def Changes (watcher : EscrowWatcher) : Operation → Prop
  | .handleBlock block => block.header.isSome ∧
      (Compacts watcher ∨ Reddens block.verboseData watcher ∨ Pays block watcher)
  | .onSubmitResponse _ => watcher.pendingClaimTxid.isSome
  | .trackInferenceEscrow txid _ amount =>
      ¬ (amount = 0 ∨ outpointKey txid 1 ∈ watcher.outpointSet)

def Unsaved (watcher : EscrowWatcher) (operation : Operation) : Prop :=
  watcher.dirty = true ∨ Changes watcher operation

structure Flushes (watcher : EscrowWatcher) (operation : Operation) (clock : Clock) : Prop where
  reached : ReachesFlush watcher operation
  unsaved : Unsaved watcher operation
  elapsed : stateSaveInterval ≤ clock.checked - watcher.lastSave

/-- An attempted save succeeds. -/
def SaveSucceeds (before : Ledger) (call : Call) : Prop :=
  Flushes before.watcher call.operation call.clock →
    call.fate = .completed ∧ ∃ json, serde.toStringPretty
      (operate crates before.watcher (call.operation, call.clock)).watcher.state = .ok json

/-- When the call returns an interval or more after the last attempt and finds or
makes something unsaved, it comes to the flush, and its clock agrees. -/
def FlushesInTime (before : Ledger) (call : Call) : Prop :=
  stateSaveInterval ≤ call.returned - before.watcher.lastSave →
    Unsaved before.watcher call.operation → Flushes before.watcher call.operation call.clock

end Ledgers

/-! Changes raise the flag. -/

structure Marks (before after : EscrowWatcher) : Prop where
  lastSave : after.lastSave = before.lastSave
  clean : after.dirty = false → before.dirty = false ∧ after.state = before.state

theorem Marks.refl (watcher : EscrowWatcher) : Marks watcher watcher :=
  ⟨rfl, fun clean => ⟨clean, rfl⟩⟩

theorem Marks.trans {first second third : EscrowWatcher} (left : Marks first second)
    (right : Marks second third) : Marks first third := by
  constructor
  · exact right.lastSave.trans left.lastSave
  · intro clean
    obtain ⟨clean_second, same_right⟩ := right.clean clean
    obtain ⟨clean_first, same_left⟩ := left.clean clean_second
    exact ⟨clean_first, same_right.trans same_left⟩

theorem marks_dirty {before after : EscrowWatcher} (lastSave : after.lastSave = before.lastSave)
    (dirty : after.dirty = true) : Marks before after :=
  ⟨lastSave, fun clean => by rw [dirty] at clean; contradiction⟩

theorem marks_fold {Item : Type} {change : EscrowWatcher → Item → EscrowWatcher}
    (marks : ∀ watcher item, Marks watcher (change watcher item)) (items : List Item)
    (watcher : EscrowWatcher) : Marks watcher (items.foldl change watcher) := by
  apply List.foldlRecOn (motive := Marks watcher) _ _ (Marks.refl watcher)
  intro other reached item _
  exact reached.trans (marks other item)

theorem rebuild_last_save (watcher : EscrowWatcher) :
    (rebuildIndexes watcher).lastSave = watcher.lastSave :=
  List.foldlRecOn (motive := fun other : EscrowWatcher => other.lastSave = watcher.lastSave) _ _ rfl
    fun _ same _ _ => same

theorem compact_marks (watcher : EscrowWatcher) : Marks watcher (compact watcher) := by
  unfold compact
  dsimp only
  split
  · exact marks_dirty (rebuild_last_save _) rfl
  · exact Marks.refl watcher

theorem count_block_marks (watcher : EscrowWatcher) (daaScore : UInt64) :
    Marks watcher (countBlock { watcher with lastDaaScore := daaScore }) := by
  unfold countBlock
  dsimp only
  split
  · have compacted := compact_marks { watcher with
      lastDaaScore := daaScore, blocksSinceCompact := 0 }
    exact ⟨compacted.lastSave, compacted.clean⟩
  · exact ⟨rfl, fun clean => ⟨clean, rfl⟩⟩

theorem slash_at_marks (watcher : EscrowWatcher) (i : Nat) : Marks watcher (slashAt watcher i) := by
  rcases slash_at_cases watcher i with same | ⟨_, _, _, slashed⟩
  · rw [same]
    exact Marks.refl watcher
  · rw [slashed]
    exact marks_dirty rfl rfl

theorem slash_reds_marks (verboseData : Option RpcBlockVerboseData) (watcher : EscrowWatcher) :
    Marks watcher (slashReds verboseData watcher) := by
  cases verboseData with
  | none => exact Marks.refl watcher
  | some verbose => exact marks_fold (fun _ _ => marks_fold slash_at_marks _ _) _ watcher

theorem track_output_marks (coinbaseTxid blockHash : String) (daaScore : UInt64)
    (watcher : EscrowWatcher) (entry : RpcTransactionOutput × Nat) :
    Marks watcher (trackOutput coinbaseTxid blockHash daaScore watcher entry) := by
  rcases track_output_cases coinbaseTxid blockHash daaScore watcher entry.1 entry.2 with
    same | ⟨_, tracked⟩
  · rw [same]
    exact Marks.refl watcher
  · rw [tracked]
    exact marks_dirty rfl rfl

theorem counted_marks (block : RpcBlock) (header : RpcBlockHeader) (watcher : EscrowWatcher) :
    Marks watcher (slashReds block.verboseData
      (countBlock { watcher with lastDaaScore := header.daaScore })) :=
  (count_block_marks watcher header.daaScore).trans (slash_reds_marks _ _)

theorem scanned_marks (block : RpcBlock) (header : RpcBlockHeader) (coinbase : RpcTransaction)
    (txid : String) (watcher : EscrowWatcher) :
    Marks watcher (scanned block header coinbase txid watcher) :=
  (counted_marks block header watcher).trans
    (marks_fold (track_output_marks txid _ header.daaScore) coinbase.outputs.zipIdx _)

/-! The calls that raise it. -/

/-- A change that raises the flag under a condition on the watcher, and is none without it. -/
structure Raises (condition : EscrowWatcher → Prop) (change : EscrowWatcher → EscrowWatcher) :
    Prop where
  raised : ∀ watcher, condition watcher → (change watcher).dirty = true
  passed : ∀ watcher, ¬ condition watcher → change watcher = watcher

theorem Raises.stays {condition : EscrowWatcher → Prop} {change : EscrowWatcher → EscrowWatcher}
    (raises : Raises condition change) {watcher : EscrowWatcher} (dirty : watcher.dirty = true) :
    (change watcher).dirty = true := by
  by_cases met : condition watcher
  · exact raises.raised watcher met
  · rw [raises.passed watcher met]
    exact dirty

/-- The items before the first that raises the flag change nothing, so it is met as at the start. -/
theorem Raises.fold {Item : Type} {condition : Item → EscrowWatcher → Prop}
    {change : EscrowWatcher → Item → EscrowWatcher}
    (each : ∀ item, Raises (condition item) (change · item)) (items : List Item) :
    Raises (fun watcher => ∃ item ∈ items, condition item watcher) (items.foldl change) := by
  have stays : ∀ (items : List Item) (watcher : EscrowWatcher), watcher.dirty = true →
      (items.foldl change watcher).dirty = true := fun items watcher dirty =>
    List.foldlRecOn (motive := fun other : EscrowWatcher => other.dirty = true) items change dirty
      fun _ up item _ => (each item).stays up
  induction items with
  | nil =>
      refine ⟨?_, fun _ _ => rfl⟩
      rintro _ ⟨_, member, _⟩
      exact absurd member List.not_mem_nil
  | cons first rest ih =>
      constructor
      · rintro watcher ⟨item, member, met⟩
        by_cases early : condition first watcher
        · exact stays rest _ ((each first).raised watcher early)
        · rcases List.mem_cons.mp member with rfl | later
          · exact absurd met early
          · rw [List.foldl_cons, (each first).passed watcher early]
            exact ih.raised watcher ⟨item, later, met⟩
      · intro watcher unmet
        have early : ¬ condition first watcher :=
          fun met => unmet ⟨first, List.mem_cons_self, met⟩
        rw [List.foldl_cons, (each first).passed watcher early]
        apply ih.passed
        rintro ⟨item, later, met⟩
        exact unmet ⟨item, List.mem_cons_of_mem _ later, met⟩

theorem Raises.both {condition other : EscrowWatcher → Prop}
    {change later : EscrowWatcher → EscrowWatcher} (first : Raises condition change)
    (second : Raises other later) :
    Raises (fun watcher => condition watcher ∨ other watcher)
      (fun watcher => later (change watcher)) := by
  constructor
  · intro watcher either
    by_cases met : condition watcher
    · exact second.stays (first.raised watcher met)
    · simp only [first.passed watcher met]
      exact second.raised watcher (either.resolve_left met)
  · intro watcher neither
    simp only [first.passed watcher fun met => neither (Or.inl met)]
    exact second.passed watcher fun met => neither (Or.inr met)

theorem slash_at_raises (i : Nat) : Raises (Exposed · i) (slashAt · i) := by
  constructor
  · rintro watcher ⟨e, here, unclaimed, unslashed, coinbase, hashed⟩
    simp [slashAt, here, unclaimed, unslashed, coinbase, hashed, markDirty]
  · intro watcher hidden
    unfold slashAt
    split
    · rfl
    · rename_i e here
      split
      · rename_i live
        simp only [Bool.and_eq_true, Bool.not_eq_true', decide_eq_true_eq] at live
        exact absurd ⟨e, here, live.1.1.1, live.1.1.2, live.1.2, live.2⟩ hidden
      · rfl

theorem slash_red_raises (redHash : String) :
    Raises (fun watcher => ∃ i ∈ watcher.blockIndex redHash, Exposed watcher i)
      (slashRed · redHash) := by
  constructor
  · intro watcher exposed
    exact (Raises.fold slash_at_raises (watcher.blockIndex redHash)).raised watcher exposed
  · intro watcher hidden
    exact (Raises.fold slash_at_raises (watcher.blockIndex redHash)).passed watcher hidden

theorem slash_reds_raises (verboseData : Option RpcBlockVerboseData) :
    Raises (Reddens verboseData) (slashReds verboseData) := by
  cases verboseData with
  | none =>
      refine ⟨?_, fun _ _ => rfl⟩
      rintro _ ⟨_, absent, _⟩
      contradiction
  | some verbose =>
      have folded := Raises.fold slash_red_raises verbose.mergeSetRedsHashes
      constructor
      · rintro watcher ⟨other, present, exposed⟩
        obtain rfl := Option.some.inj present
        exact folded.raised watcher exposed
      · intro watcher hidden
        exact folded.passed watcher fun exposed => hidden ⟨verbose, rfl, exposed⟩

theorem track_output_raises (coinbaseTxid blockHash : String) (daaScore : UInt64)
    (entry : RpcTransactionOutput × Nat) :
    Raises (fun watcher => ∃ spk, Rewards coinbaseTxid watcher entry.1 entry.2 spk)
      (trackOutput coinbaseTxid blockHash daaScore · entry) := by
  constructor
  · rintro watcher ⟨spk, script, escrow, version, unseen⟩
    simp [trackOutput, script, escrow, version, unseen, markDirty]
  · intro watcher unpaid
    rcases track_output_cases coinbaseTxid blockHash daaScore watcher entry.1 entry.2 with
      same | ⟨paid, _⟩
    · exact same
    · exact absurd paid unpaid

theorem compact_raises :
    Raises (fun watcher => ∃ e ∈ watcher.state.entries, e.claimed = true ∨ e.slashed = true)
      compact := by
  have drops (entries : List EscrowEntry) :
      (entries.filter fun e => !e.claimed && !e.slashed).length ≠ entries.length ↔
        ∃ e ∈ entries, e.claimed = true ∨ e.slashed = true := by
    rw [Ne, List.length_filter_eq_length_iff]
    simp only [Bool.and_eq_true, Bool.not_eq_true', not_forall, not_and_or, exists_prop,
      Bool.not_eq_false]
  constructor
  · intro watcher spent
    rw [compact, if_pos ((drops watcher.state.entries).mpr spent)]
    rfl
  · intro watcher unspent
    rw [compact, if_neg fun dropped => unspent ((drops watcher.state.entries).mp dropped)]

/-- Only the score and the block counter are changed by a block that drops nothing. -/
theorem count_block_flag (watcher : EscrowWatcher) (daaScore : UInt64) :
    (Compacts watcher →
      (countBlock { watcher with lastDaaScore := daaScore }).dirty = true) ∧
    (¬ Compacts watcher → ∃ blocks, countBlock { watcher with lastDaaScore := daaScore } =
      { watcher with lastDaaScore := daaScore, blocksSinceCompact := blocks }) := by
  constructor
  · rintro ⟨due, spent⟩
    rw [countBlock, if_pos due]
    exact compact_raises.raised _ spent
  · intro idle
    unfold countBlock
    dsimp only
    split
    · rename_i due
      exact ⟨0, compact_raises.passed _ fun spent => idle ⟨due, spent⟩⟩
    · exact ⟨_, rfl⟩

theorem counted_flag (watcher : EscrowWatcher) (daaScore : UInt64)
    {condition : EscrowWatcher → Prop} {change : EscrowWatcher → EscrowWatcher}
    (raises : Raises condition change)
    (blind : ∀ blocks, condition
      { watcher with lastDaaScore := daaScore, blocksSinceCompact := blocks } ↔
        condition watcher) :
    (change (countBlock { watcher with lastDaaScore := daaScore })).dirty = true ↔
      watcher.dirty = true ∨ Compacts watcher ∨ condition watcher := by
  obtain ⟨compacted, idle⟩ := count_block_flag watcher daaScore
  by_cases drops : Compacts watcher
  · exact ⟨fun _ => Or.inr (Or.inl drops), fun _ => raises.stays (compacted drops)⟩
  · obtain ⟨blocks, same⟩ := idle drops
    rw [same]
    constructor
    · intro dirty
      by_cases met : condition watcher
      · exact Or.inr (Or.inr met)
      · rw [raises.passed _ fun found => met ((blind blocks).mp found)] at dirty
        exact Or.inl dirty
    · rintro (dirty | dropped | met)
      · exact raises.stays dirty
      · exact absurd dropped drops
      · exact raises.raised _ ((blind blocks).mpr met)

theorem rewards_counted {coinbaseTxid : String} {watcher : EscrowWatcher} {daaScore : UInt64}
    {blocks : UInt32} {output : RpcTransactionOutput} {outIdx : Nat} {spk : RpcScriptPublicKey} :
    Rewards coinbaseTxid
        { watcher with lastDaaScore := daaScore, blocksSinceCompact := blocks } output outIdx spk ↔
      Rewards coinbaseTxid watcher output outIdx spk :=
  ⟨fun pays => ⟨pays.script, pays.escrow, pays.version, pays.unseen⟩,
    fun pays => ⟨pays.script, pays.escrow, pays.version, pays.unseen⟩⟩

/-- Without a coinbase the call ends after the red hashes. -/
theorem reds_unsaved_iff (block : RpcBlock) (watcher : EscrowWatcher) {header : RpcBlockHeader}
    (present : block.header = some header) (absent : findCoinbase block = none) :
    (slashReds block.verboseData
        (countBlock { watcher with lastDaaScore := header.daaScore })).dirty = true ↔
      Unsaved watcher (.handleBlock block) := by
  rw [counted_flag watcher header.daaScore (slash_reds_raises block.verboseData)
    fun _ => Iff.rfl]
  simp [Unsaved, Changes, Pays, present, absent]

theorem scanned_unsaved_iff (block : RpcBlock) (watcher : EscrowWatcher) {header : RpcBlockHeader}
    {coinbase : RpcTransaction} {txid : String} (present : block.header = some header)
    (found : findCoinbase block = some (coinbase, txid)) :
    (scanned block header coinbase txid watcher).dirty = true ↔
      Unsaved watcher (.handleBlock block) := by
  have raises := (slash_reds_raises block.verboseData).both (Raises.fold
    (track_output_raises txid ((block.verboseData.map (·.hash)).getD "") header.daaScore)
    coinbase.outputs.zipIdx)
  have counted := counted_flag watcher header.daaScore raises fun _ => by
    simp only [rewards_counted]
    exact Iff.rfl
  rw [scanned, trackOutputs, counted]
  simp [Unsaved, Changes, Pays, present, found]

/-! The end of a call. -/

/-- A call that wrote nothing, and one that flushed. -/
inductive Ends (watcher : EscrowWatcher) (operation : Operation) (clock : Clock)
    (outcome : Outcome) : Prop where
  | waits (none_written : outcome.written = none) (marks : Marks watcher outcome.watcher)
      (flag : outcome.watcher.dirty = true ↔ Unsaved watcher operation)
      (early : ¬ Flushes watcher operation clock)
  | flushes (written : outcome.written = some outcome.watcher.state)
      (due : Flushes watcher operation clock)

theorem flush_ends (clock : Clock) (watcher last : EscrowWatcher) (operation : Operation)
    (claim : Option RpcTransaction) (marks : Marks watcher last)
    (flag : last.dirty = true ↔ Unsaved watcher operation)
    (reached : ReachesFlush watcher operation) :
    Ends watcher operation clock
      ⟨(maybeFlush clock last).1, claim, (maybeFlush clock last).2⟩ := by
  unfold maybeFlush
  split
  · rename_i due
    exact .flushes rfl ⟨reached, flag.mp due.1, marks.lastSave ▸ due.2⟩
  · rename_i waits
    refine .waits rfl marks flag fun due => waits ⟨flag.mpr due.unsaved, ?_⟩
    rw [marks.lastSave]
    exact due.elapsed

theorem find_claim_marks (crates : Crates) (daaScore : UInt64) (watcher : EscrowWatcher) :
    Marks watcher (findClaim crates daaScore watcher).1 ∧
      (findClaim crates daaScore watcher).1.dirty = watcher.dirty := by
  rcases find_claim_cases crates daaScore watcher with same | ⟨_, _, after, claimed, claims⟩
  · rw [same]
    exact ⟨Marks.refl watcher, rfl⟩
  · rw [claimed, claims.flies]
    exact ⟨⟨rfl, fun clean => ⟨clean, rfl⟩⟩, rfl⟩

theorem handle_block_ends (crates : Crates) (clock : Clock) (block : RpcBlock)
    (watcher : EscrowWatcher) :
    Ends watcher (.handleBlock block) clock (handleBlock crates clock block watcher) := by
  unfold handleBlock
  cases present : block.header with
  | none =>
      refine .waits rfl (Marks.refl watcher) ?_ fun due => ?_
      · simp [Unsaved, Changes, present]
      · have reached := due.reached
        simp [ReachesFlush, present] at reached
  | some header =>
      cases found : findCoinbase block with
      | none =>
          refine .waits rfl (counted_marks block header watcher)
            (reds_unsaved_iff block watcher present found) fun due => ?_
          have reached := due.reached
          simp [ReachesFlush, found] at reached
      | some coinbase =>
          have scan := scanned_marks block header coinbase.1 coinbase.2 watcher
          have flag := scanned_unsaved_iff block watcher present found
          obtain ⟨claim_marks, same_flag⟩ := find_claim_marks crates header.daaScore
            (scanned block header coinbase.1 coinbase.2 watcher)
          refine flush_ends clock watcher _ _ _ (scan.trans claim_marks) ?_ ?_
          · exact (iff_of_eq (congrArg (· = true) same_flag)).trans flag
          · simp [ReachesFlush, present, found]

theorem submit_ends (clock : Clock) (error : Option String) (watcher : EscrowWatcher) :
    Ends watcher (.onSubmitResponse error) clock
      ⟨(onSubmitResponse clock error watcher).1, none,
        (onSubmitResponse clock error watcher).2⟩ := by
  cases pending : watcher.pendingClaimTxid with
  | none =>
      rw [submit_idle clock error pending]
      refine .waits rfl (Marks.refl watcher) ?_ fun due => ?_
      · simp [Unsaved, Changes, pending]
      · have reached := due.reached
        simp [ReachesFlush, pending] at reached
  | some txid =>
      simp only [onSubmitResponse, pending]
      apply flush_ends clock watcher _ _ none
      · exact marks_dirty rfl rfl
      · simp [Unsaved, Changes, pending, markDirty]
      · simp [ReachesFlush, pending]

theorem track_inference_ends (clock : Clock) (txid : String) (confirmDaa amount : UInt64)
    (watcher : EscrowWatcher) :
    Ends watcher (.trackInferenceEscrow txid confirmDaa amount) clock
      ⟨(trackInferenceEscrow clock txid confirmDaa amount watcher).1, none,
        (trackInferenceEscrow clock txid confirmDaa amount watcher).2⟩ := by
  simp only [trackInferenceEscrow]
  split
  · rename_i skipped
    refine .waits rfl (Marks.refl watcher) ?_ fun due => absurd skipped due.reached
    simp [Unsaved, Changes, skipped]
  · rename_i tracked
    apply flush_ends clock watcher _ _ none
    · exact marks_dirty rfl rfl
    · simp [Unsaved, Changes, tracked, markDirty]
    · exact tracked

theorem operate_ends (crates : Crates) (watcher : EscrowWatcher) (operation : Operation)
    (clock : Clock) :
    Ends watcher operation clock (operate crates watcher (operation, clock)) := by
  cases operation with
  | handleBlock block => exact handle_block_ends crates clock block watcher
  | onSubmitResponse error => exact submit_ends clock error watcher
  | trackInferenceEscrow txid confirmDaa amount =>
      exact track_inference_ends clock txid confirmDaa amount watcher

/-! Runs. -/

structure Balanced (serde : SerdeJson) (ledger : Ledger) : Prop where
  unchanged : ledger.watcher.dirty = false → ledger.watcher.state = ledger.kept
  stored : ledger.attempted = true → holds serde ledger.file ledger.kept = true

theorem Balanced.truthful {serde : SerdeJson} {ledger : Ledger} (balanced : Balanced serde ledger) :
    Truthful serde ledger := by
  intro clean attempted
  rw [balanced.unchanged clean]
  exact balanced.stored attempted

section Saves
variable {serde : SerdeJson} {crates : Crates}
variable (roundTrip : ∀ state json, serde.toStringPretty state = .ok json →
  serde.fromStr json = .ok state)
include roundTrip

theorem saved_holds {state : EscrowState} {json : List UInt8}
    (encoded : serde.toStringPretty state = .ok json) (file : Option (List UInt8)) :
    holds serde (saveState serde .completed state file) state = true := by
  simp [saveState, encoded, writeFile, holds, roundTrip state json encoded]

theorem ledger_balanced (before : Ledger) (call : Call) (after : Ledger)
    (balanced : Balanced serde before) (stepped : ledgerStep serde crates before call = some after)
    (allowed : SaveSucceeds serde crates before call ∧ FlushesInTime before call) :
    Balanced serde after ∧ NothingStranded serde crates before call after := by
  have ends := operate_ends crates before.watcher call.operation call.clock
  simp only [ledgerStep] at stepped
  cases ends with
  | waits none_written marks flag early =>
      rw [none_written] at stepped
      obtain rfl := Option.some.inj stepped
      have unchanged : (operate crates before.watcher (call.operation, call.clock)).watcher.dirty =
          false → (operate crates before.watcher (call.operation, call.clock)).watcher.state =
          before.kept := by
        intro clean
        obtain ⟨clean_before, same⟩ := marks.clean clean
        exact same.trans (balanced.unchanged clean_before)
      constructor
      · exact ⟨unchanged, balanced.stored⟩
      · intro late
        apply Or.inl (unchanged _)
        by_contra dirty
        have unsaved := flag.mp (Bool.eq_true_of_not_eq_false dirty)
        exact early (allowed.2 late unsaved)
  | flushes written due =>
      obtain ⟨completed, json, encoded⟩ := allowed.1 due
      have now_held := saved_holds roundTrip encoded before.file
      rw [written] at stepped
      simp only [completed, now_held, if_true, WriteFate.Crashes, if_false] at stepped
      obtain rfl := Option.some.inj stepped
      constructor
      · exact ⟨fun _ => rfl, fun _ => now_held⟩
      · exact fun _ => Or.inl rfl

end Saves

/-- The flag tells the truth and nothing is stranded, in runs whose saves succeed
and whose calls come to the flush when something has waited for an interval. -/
theorem dirty_truthful (serde : SerdeJson) (crates : Crates) (account : ClaimAccount)
    (roundTrip : ∀ state json, serde.toStringPretty state = .ok json →
      serde.fromStr json = .ok state)
    (readable : Bool) (file : Option (List UInt8)) (now : Nat) (calls : List Call)
    (allowed : EveryStep (ledgerStep serde crates)
      (fun before call _ => SaveSucceeds serde crates before call ∧ FlushesInTime before call)
      (Ledger.opened serde account readable file now) calls) :
    EveryStep (ledgerStep serde crates)
      (fun before call after => Truthful serde after ∧
        NothingStranded serde crates before call after)
      (Ledger.opened serde account readable file now) calls := by
  apply every_step_of_invariant (Balanced serde) _ _ calls _ _ allowed
  · intro before call after balanced stepped may
    exact (ledger_balanced roundTrip before call after balanced stepped may).1
  · intro before call after balanced stepped may
    obtain ⟨kept, stranded⟩ := ledger_balanced roundTrip before call after balanced stepped may
    exact ⟨kept.truthful, stranded⟩
  · constructor
    · exact fun _ => loaded_state account _ now
    · intro attempted
      contradiction

/-! Two tracked requests, and a disk that takes only the first. -/

def trackingCall (txid : String) (seconds : Nat) (fate : WriteFate) : Call where
  operation := .trackInferenceEscrow txid 0 40000000
  clock := ⟨seconds * 1000000000, seconds * 1000000000⟩
  fate := fate
  returned := seconds * 1000000000

def idleAnswer (seconds : Nat) : Call where
  operation := .onSubmitResponse none
  clock := ⟨seconds * 1000000000, seconds * 1000000000⟩
  fate := .refused
  returned := seconds * 1000000000

theorem ledger_step_writes (serde : SerdeJson) {crates : Crates} (ledger : Ledger) (call : Call)
    {next : EscrowWatcher} {claim : Option RpcTransaction} {state : EscrowState}
    (called : operate crates ledger.watcher (call.operation, call.clock) =
      ⟨next, claim, some state⟩) (lives : ¬ call.fate.Crashes) :
    ledgerStep serde crates ledger call =
      some {
        watcher := next
        file := saveState serde call.fate state ledger.file
        kept := if holds serde (saveState serde call.fate state ledger.file) state then state
          else ledger.kept
        attempted := true } := by
  simp only [ledgerStep, called, if_neg lives]

def savedLedger : Ledger where
  watcher := requestWatcher [onesTxid] (2 * 1000000000)
  file := some firstJson
  kept := firstState
  attempted := true

theorem first_request_saved :
    ledgerStep sampleSerde sampleCrates (Ledger.opened sampleSerde sampleAccount true none 0)
      (trackingCall onesTxid 2 .completed) = some savedLedger := by
  rw [ledger_step_writes sampleSerde (Ledger.opened sampleSerde sampleAccount true none 0)
    (trackingCall onesTxid 2 .completed) tracks_first id]
  have kept := saved_holds sample_round_trip first_encoded none
  simp only [trackingCall, Ledger.opened, kept, if_true]
  simp only [saveState, first_encoded, writeFile, savedLedger]

theorem dirty_truthful_one_request :
    EveryStep (ledgerStep sampleSerde sampleCrates)
      (fun before call after => Truthful sampleSerde after ∧
        NothingStranded sampleSerde sampleCrates before call after)
      (Ledger.opened sampleSerde sampleAccount true none 0)
      [trackingCall onesTxid 2 .completed, idleAnswer 5] := by
  apply dirty_truthful sampleSerde sampleCrates sampleAccount sample_round_trip true none 0
  intro first stepped
  obtain rfl := Option.some.inj (first_request_saved.symm.trans stepped)
  have reaches : ReachesFlush (Ledger.opened sampleSerde sampleAccount true none 0).watcher
      (trackingCall onesTxid 2 .completed).operation := by
    rintro (zero | tracked)
    · contradiction
    · exact List.not_mem_nil tracked
  refine ⟨⟨?_, fun _ unsaved => ⟨reaches, unsaved, by decide⟩⟩, ?_⟩
  · exact fun _ => ⟨rfl, firstJson, first_encoded⟩
  · intro second _
    have idle : ¬ Unsaved savedLedger.watcher (idleAnswer 5).operation := by
      simp [Unsaved, Changes, savedLedger, requestWatcher, idleAnswer]
    exact ⟨⟨fun due => absurd due.unsaved idle, fun _ unsaved => absurd unsaved idle⟩, trivial⟩

theorem holds_other {serde : SerdeJson} {bytes : List UInt8} {found state : EscrowState}
    (parsed : serde.fromStr bytes = .ok found) (differs : found ≠ state) :
    holds serde (some bytes) state = false := by
  simp [holds, parsed, differs]

/-- The flag is down and the file holds only the first request. -/
theorem refused_save_clears_flag :
    ¬ EveryStep (ledgerStep sampleSerde sampleCrates)
      (fun before call after => Truthful sampleSerde after ∧
        NothingStranded sampleSerde sampleCrates before call after)
      (Ledger.opened sampleSerde sampleAccount true none 0)
      [trackingCall onesTxid 2 .completed, trackingCall twosTxid 4 .refused] := by
  intro each
  have refused := ledger_step_writes sampleSerde savedLedger (trackingCall twosTxid 4 .refused)
    tracks_second id
  have told := ((each _ first_request_saved).2 _ refused).1.1 rfl rfl
  have stale : saveState sampleSerde .refused secondState (some firstJson) = some firstJson := by
    simp only [saveState, second_encoded, writeFile]
  have old : holds sampleSerde (some firstJson) secondState = false :=
    holds_other (sample_round_trip firstState firstJson first_encoded)
      (by simp [firstState, secondState])
  have claimed : holds sampleSerde (saveState sampleSerde .refused secondState (some firstJson))
      secondState = true := told
  rw [stale, old] at claimed
  exact Bool.false_ne_true claimed

end KeryxMiner.DirtyFlag
