import KeryxMiner.ClaimQueue
import KeryxMiner.KeyedPositions

/-!
The two lookup structures of an escrow watcher, the set of tracked outpoints and
the positions by block hash, against the entries they were built from.
-/

namespace KeryxMiner.EscrowIndexes

open ByteCodec RpcMessages Escrow EscrowEffects TransitionRuns ClaimQueue KeyedPositions

def entryOutpoint (e : EscrowEntry) : RpcOutpoint := ⟨e.coinbaseTxid, e.outputIndex⟩

def entryKey (e : EscrowEntry) : String := outpointKey e.coinbaseTxid e.outputIndex.toNat

/-- No position is stored for the empty hash. -/
def hashPositions (entries : List EscrowEntry) (hash : String) : List Nat :=
  if hash = "" then [] else positions (fun e => e.blockHash) hash entries

structure Indexes (entries : List EscrowEntry) (outpointSet : List String)
    (blockIndex : String → List Nat) : Prop where
  outpoints : ∀ key, key ∈ outpointSet ↔ key ∈ entries.map entryKey
  blocks : ∀ hash, blockIndex hash = hashPositions entries hash

structure Indexed (watcher : EscrowWatcher) : Prop where
  indexes : Indexes watcher.state.entries watcher.outpointSet watcher.blockIndex
  distinct : (watcher.state.entries.map entryOutpoint).Nodup

/-! One more entry. -/

theorem add_to_block_positions (entries : List EscrowEntry) (blockIndex : String → List Nat)
    (blocks : ∀ hash, blockIndex hash = hashPositions entries hash) (e : EscrowEntry)
    (hash : String) :
    addToBlock blockIndex e.blockHash entries.length hash =
      hashPositions (entries ++ [e]) hash := by
  by_cases empty : hash = ""
  · subst empty
    by_cases none_kept : e.blockHash = ""
    · simp [addToBlock, none_kept, blocks, hashPositions]
    · simp [addToBlock, none_kept, blocks, hashPositions, Ne.symm none_kept]
  · by_cases keyed : e.blockHash = hash
    · subst keyed
      simp [addToBlock, empty, blocks, hashPositions, positions_snoc]
    · by_cases none_kept : e.blockHash = ""
      · simp [addToBlock, none_kept, blocks, hashPositions, positions_snoc, empty, Ne.symm empty]
      · simp [addToBlock, none_kept, blocks, hashPositions, positions_snoc, empty, keyed,
          Ne.symm keyed]

theorem Indexes.snoc {entries : List EscrowEntry} {outpointSet : List String}
    {blockIndex : String → List Nat} (indexes : Indexes entries outpointSet blockIndex)
    (e : EscrowEntry) :
    Indexes (entries ++ [e]) (outpointSet.insert (entryKey e))
      (addToBlock blockIndex e.blockHash entries.length) := by
  constructor
  · intro key
    simp [List.mem_insert_iff, indexes.outpoints, or_comm]
  · intro hash
    exact add_to_block_positions entries blockIndex indexes.blocks e hash

theorem Indexes.fresh {entries : List EscrowEntry} {outpointSet : List String}
    {blockIndex : String → List Nat} (indexes : Indexes entries outpointSet blockIndex)
    {e : EscrowEntry} (unseen : entryKey e ∉ outpointSet)
    (distinct : (entries.map entryOutpoint).Nodup) :
    ((entries ++ [e]).map entryOutpoint).Nodup := by
  have absent : entryOutpoint e ∉ entries.map entryOutpoint := by
    intro member
    obtain ⟨other, tracked, same⟩ := List.mem_map.mp member
    obtain ⟨same_txid, same_index⟩ := RpcOutpoint.mk.inj same
    have same_key : entryKey other = entryKey e := by
      simp only [entryKey, same_txid, same_index]
    apply unseen
    rw [indexes.outpoints, ← same_key]
    exact List.mem_map_of_mem tracked
  rw [List.map_append, List.map_singleton, ← List.concat_eq_append]
  exact distinct.concat absent

/-! Rebuilding, from the first entry on. -/

theorem index_entries (entries : List EscrowEntry) (start : EscrowWatcher)
    (no_outpoints : start.outpointSet = []) (no_blocks : ∀ hash, start.blockIndex hash = []) :
    Indexes entries (entries.zipIdx.foldl indexEntry start).outpointSet
      (entries.zipIdx.foldl indexEntry start).blockIndex := by
  induction entries using List.reverseRecOn with
  | nil =>
      constructor
      · simp [no_outpoints]
      · intro hash
        simp [no_blocks, hashPositions, positions]
  | append_singleton entries e ih =>
      rw [List.zipIdx_append, List.foldl_append]
      simpa [indexEntry, entryKey] using ih.snoc e

theorem rebuild_indexes (watcher : EscrowWatcher) :
    Indexes watcher.state.entries (rebuildIndexes watcher).outpointSet
      (rebuildIndexes watcher).blockIndex :=
  index_entries watcher.state.entries { watcher with outpointSet := [], blockIndex := fun _ => [] }
    rfl fun _ => rfl

theorem rebuild_indexed (watcher : EscrowWatcher)
    (distinct : (watcher.state.entries.map entryOutpoint).Nodup) :
    Indexed (rebuildIndexes watcher) := by
  constructor
  · rw [rebuild_entries]
    exact rebuild_indexes watcher
  · rwa [rebuild_entries]

theorem loaded_indexed (account : ClaimAccount) (state : EscrowState) (now : Nat)
    (distinct : (state.entries.map entryOutpoint).Nodup) :
    Indexed (EscrowWatcher.loaded account state now) :=
  rebuild_indexed _ distinct

/-! Changes of flags. -/

/-- The lookup structures do not read the flags. -/
theorem Indexed.of_same {before after : EscrowWatcher} (indexed : Indexed before)
    (outpoints : after.state.entries.map entryOutpoint = before.state.entries.map entryOutpoint)
    (hashes : after.state.entries.map (fun e => e.blockHash) =
      before.state.entries.map fun e => e.blockHash)
    (same_set : after.outpointSet = before.outpointSet)
    (same_index : after.blockIndex = before.blockIndex) : Indexed after := by
  have by_outpoint : ∀ entries : List EscrowEntry, entries.map entryKey =
      (entries.map entryOutpoint).map fun o => outpointKey o.transactionId o.index.toNat := by
    intro entries
    rw [List.map_map]
    rfl
  constructor
  · constructor
    · intro key
      rw [same_set, indexed.indexes.outpoints, by_outpoint, by_outpoint, outpoints]
    · intro hash
      rw [same_index, indexed.indexes.blocks, hashPositions, hashPositions,
        positions_eq_of_keys _ hash hashes]
  · rw [outpoints]
    exact indexed.distinct

/-- What red-set slashing does to one entry. -/
def redden (e : EscrowEntry) : EscrowEntry :=
  if !e.claimed && !e.slashed && !e.isInference && e.blockHash ≠ "" then { e with slashed := true }
  else e

theorem redden_outpoint (e : EscrowEntry) : entryOutpoint (redden e) = entryOutpoint e := by
  unfold redden
  split <;> rfl

theorem redden_hash (e : EscrowEntry) : (redden e).blockHash = e.blockHash := by
  unfold redden
  split <;> rfl

theorem slash_at_entries_eq (watcher : EscrowWatcher) (i : Nat) :
    (slashAt watcher i).state.entries = watcher.state.entries.modify i redden := by
  unfold slashAt
  cases found : watcher.state.entries[i]? with
  | none => exact (List.modify_eq_self (List.getElem?_eq_none_iff.mp found)).symm
  | some entry =>
      obtain ⟨inside, rfl⟩ := List.getElem?_eq_some_iff.mp found
      have replaced : watcher.state.entries.modify i redden =
          watcher.state.entries.set i (redden watcher.state.entries[i]) := by
        apply List.ext_getElem?
        intro j
        rw [List.getElem?_modify, List.getElem?_set]
        by_cases here : i = j
        · subst here
          simp [inside]
        · simp [here]
      dsimp only
      rw [replaced, redden]
      split
      · rfl
      · exact (List.set_getElem_self inside).symm

theorem slash_at_lookups (watcher : EscrowWatcher) (i : Nat) :
    (slashAt watcher i).outpointSet = watcher.outpointSet ∧
      (slashAt watcher i).blockIndex = watcher.blockIndex := by
  rcases slash_at_cases watcher i with same | ⟨_, _, _, slashed⟩
  · rw [same]
    exact ⟨rfl, rfl⟩
  · rw [slashed]
    exact ⟨rfl, rfl⟩

theorem map_modify_same {Image : Type} (image : EscrowEntry → Image)
    (same : ∀ e, image (redden e) = image e) (entries : List EscrowEntry) (i : Nat) :
    (entries.modify i redden).map image = entries.map image := by
  apply List.ext_getElem?
  intro j
  rw [List.getElem?_map, List.getElem?_map, List.getElem?_modify]
  by_cases here : i = j
  · cases entries[j]? <;> simp [here, same]
  · simp [here]

theorem slash_at_indexed (watcher : EscrowWatcher) (i : Nat) (indexed : Indexed watcher) :
    Indexed (slashAt watcher i) := by
  obtain ⟨same_set, same_index⟩ := slash_at_lookups watcher i
  apply indexed.of_same _ _ same_set same_index
  · rw [slash_at_entries_eq]
    exact map_modify_same entryOutpoint redden_outpoint _ i
  · rw [slash_at_entries_eq]
    exact map_modify_same _ redden_hash _ i

theorem slash_red_indexed (watcher : EscrowWatcher) (redHash : String) (indexed : Indexed watcher) :
    Indexed (slashRed watcher redHash) :=
  List.foldlRecOn (motive := Indexed) _ _ indexed fun other kept i _ =>
    slash_at_indexed other i kept

theorem slash_reds_indexed (verboseData : Option RpcBlockVerboseData) (watcher : EscrowWatcher)
    (indexed : Indexed watcher) : Indexed (slashReds verboseData watcher) := by
  cases verboseData with
  | none => exact indexed
  | some verbose =>
      apply List.foldlRecOn (motive := Indexed) _ _ indexed
      intro other kept red _
      exact slash_red_indexed other red kept

/-! Slashing through the index and slashing by a scan. -/

def scanRed (entries : List EscrowEntry) (redHash : String) : List EscrowEntry :=
  entries.map fun e => if e.blockHash = redHash then redden e else e

def scanReds (verboseData : Option RpcBlockVerboseData) (entries : List EscrowEntry) :
    List EscrowEntry :=
  match verboseData with
  | none => entries
  | some verbose => verbose.mergeSetRedsHashes.foldl scanRed entries

theorem slash_spots_entries (spots : List Nat) (watcher : EscrowWatcher) :
    (spots.foldl slashAt watcher).state.entries =
      spots.foldl (fun entries i => entries.modify i redden) watcher.state.entries := by
  induction spots generalizing watcher with
  | nil => rfl
  | cons spot rest ih => rw [List.foldl_cons, ih, slash_at_entries_eq, List.foldl_cons]

theorem slash_red_scans (watcher : EscrowWatcher) (redHash : String) (indexed : Indexed watcher) :
    (slashRed watcher redHash).state.entries = scanRed watcher.state.entries redHash := by
  rw [slashRed, slash_spots_entries, indexed.indexes.blocks]
  unfold hashPositions scanRed
  by_cases empty : redHash = ""
  · -- the scan skips the entries without a block by the test on the hash
    subst empty
    have skipped : ∀ e : EscrowEntry, (if e.blockHash = "" then redden e else e) = e := by
      intro e
      by_cases no_block : e.blockHash = ""
      · simp [redden, no_block]
      · simp [no_block]
    simp [skipped]
  · rw [if_neg empty, modify_positions]

theorem slash_reds_scans (verboseData : Option RpcBlockVerboseData) (watcher : EscrowWatcher)
    (indexed : Indexed watcher) :
    (slashReds verboseData watcher).state.entries = scanReds verboseData watcher.state.entries := by
  cases verboseData with
  | none => rfl
  | some verbose =>
      simp only [slashReds, scanReds]
      generalize verbose.mergeSetRedsHashes = reds
      induction reds generalizing watcher with
      | nil => rfl
      | cons red rest ih =>
          rw [List.foldl_cons, ih _ (slash_red_indexed watcher red indexed),
            slash_red_scans watcher red indexed, List.foldl_cons]

/-! The calls. -/

theorem compact_indexed (watcher : EscrowWatcher) (indexed : Indexed watcher) :
    Indexed (compact watcher) := by
  unfold compact
  dsimp only
  split
  · have kept := rebuild_indexed { watcher with
      state := ⟨watcher.state.entries.filter fun e => !e.claimed && !e.slashed⟩ }
      (indexed.distinct.sublist (List.filter_sublist.map entryOutpoint))
    exact ⟨kept.indexes, kept.distinct⟩
  · exact indexed

theorem count_block_indexed (watcher : EscrowWatcher) (indexed : Indexed watcher) :
    Indexed (countBlock watcher) := by
  unfold countBlock
  dsimp only
  split
  · exact compact_indexed _ ⟨indexed.indexes, indexed.distinct⟩
  · exact ⟨indexed.indexes, indexed.distinct⟩

theorem counted_indexed (header : RpcBlockHeader) (watcher : EscrowWatcher)
    (indexed : Indexed watcher) :
    Indexed (countBlock { watcher with lastDaaScore := header.daaScore }) :=
  count_block_indexed _ ⟨indexed.indexes, indexed.distinct⟩

theorem track_output_indexed (coinbaseTxid blockHash : String) (daaScore : UInt64)
    (watcher : EscrowWatcher) (output : RpcTransactionOutput) (outIdx : Nat)
    (small : outIdx < 2 ^ 32) (indexed : Indexed watcher) :
    Indexed (trackOutput coinbaseTxid blockHash daaScore watcher (output, outIdx)) := by
  rcases track_output_cases coinbaseTxid blockHash daaScore watcher output outIdx with
    same | ⟨⟨spk, rewards⟩, tracked⟩
  · rw [same]
    exact indexed
  · rw [tracked]
    have kept : (UInt32.ofNat outIdx).toNat = outIdx := UInt32.toNat_ofNat_of_lt' small
    have key_eq : outpointKey coinbaseTxid outIdx =
        outpointKey coinbaseTxid (UInt32.ofNat outIdx).toNat := by rw [kept]
    have unseen := rewards.unseen
    rw [withReward, key_eq]
    rw [key_eq] at unseen
    constructor
    · exact indexed.indexes.snoc _
    · exact indexed.indexes.fresh unseen indexed.distinct

/-- The block came in a frame, whose length is a 32-bit number of bytes. -/
def Framed : Operation → Prop
  | .handleBlock block => ∀ tx ∈ block.transactions, tx.outputs.length < 2 ^ 32
  | .onSubmitResponse _ => True
  | .trackInferenceEscrow _ _ _ => True

theorem find_coinbase_mem {block : RpcBlock} {coinbase : RpcTransaction} {txid : String}
    (found : findCoinbase block = some (coinbase, txid)) : coinbase ∈ block.transactions := by
  simp only [findCoinbase, bind, Option.bind_eq_some_iff] at found
  obtain ⟨tx, first, verbose, _, named⟩ := found
  split at named
  · contradiction
  · obtain ⟨rfl, _⟩ := Prod.mk.inj (Option.some.inj named)
    exact List.mem_of_find?_eq_some first

/-- A new entry of a scan, for an outpoint the scan did not know. -/
structure Appended (block : RpcBlock) (start : EscrowWatcher) (e : EscrowEntry) : Prop where
  tracked : Tracked block start e
  unseen : entryKey e ∉ start.outpointSet
  untried : e.orphanRetries = 0

theorem track_outputs_appends (block : RpcBlock) (coinbase : RpcTransaction) (txid : String)
    (found : findCoinbase block = some (coinbase, txid))
    (small : coinbase.outputs.length < 2 ^ 32) (blockHash : String) (daaScore : UInt64)
    (start : EscrowWatcher) :
    ∃ added, (trackOutputs txid blockHash daaScore coinbase.outputs start).state.entries =
        start.state.entries ++ added ∧ ∀ e ∈ added, Appended block start e := by
  obtain ⟨added, grew, each⟩ :=
    track_outputs_added txid blockHash daaScore coinbase.outputs start
  refine ⟨added, grew, fun e new => ?_⟩
  obtain ⟨outIdx, output, spk, reward⟩ := each e new
  have within := (List.getElem?_eq_some_iff.mp reward.here).1
  have kept : (UInt32.ofNat outIdx).toNat = outIdx :=
    UInt32.toNat_ofNat_of_lt' (Nat.lt_trans within small)
  have tracked := reward.tracked block found
  have unseen := reward.rewards.unseen
  obtain rfl := reward.entry
  constructor
  · exact tracked
  · simp only [entryKey, rewardEntry, kept]
    exact unseen
  · rfl

theorem track_outputs_indexed (coinbaseTxid blockHash : String) (daaScore : UInt64)
    (outputs : List RpcTransactionOutput) (small : outputs.length < 2 ^ 32)
    (watcher : EscrowWatcher) (indexed : Indexed watcher) :
    Indexed (trackOutputs coinbaseTxid blockHash daaScore outputs watcher) := by
  apply List.foldlRecOn (motive := Indexed) _ _ indexed
  intro other kept item member
  have inside := List.snd_lt_of_mem_zipIdx member
  exact track_output_indexed coinbaseTxid blockHash daaScore other item.1 item.2 (by omega) kept

theorem find_claim_indexed (crates : Crates) (daaScore : UInt64) (watcher : EscrowWatcher)
    (indexed : Indexed watcher) : Indexed (findClaim crates daaScore watcher).1 := by
  rcases find_claim_cases crates daaScore watcher with same | ⟨_, _, after, found, claims⟩
  · rwa [same]
  · rw [found, claims.flies]
    exact ⟨indexed.indexes, indexed.distinct⟩

theorem flush_indexed (clock : Clock) (watcher : EscrowWatcher) (indexed : Indexed watcher) :
    Indexed (maybeFlush clock watcher).1 := by
  unfold maybeFlush
  split
  · exact ⟨indexed.indexes, indexed.distinct⟩
  · exact indexed

theorem scanned_indexed (block : RpcBlock) (framed : Framed (.handleBlock block))
    (header : RpcBlockHeader) (coinbase : RpcTransaction) (txid : String)
    (found : findCoinbase block = some (coinbase, txid)) (watcher : EscrowWatcher)
    (indexed : Indexed watcher) : Indexed (scanned block header coinbase txid watcher) := by
  apply track_outputs_indexed _ _ _ _ (framed coinbase (find_coinbase_mem found))
  exact slash_reds_indexed _ _ (counted_indexed header watcher indexed)

theorem handle_block_indexed (crates : Crates) (clock : Clock) (block : RpcBlock)
    (framed : Framed (.handleBlock block)) (watcher : EscrowWatcher) (indexed : Indexed watcher) :
    Indexed (handleBlock crates clock block watcher).watcher := by
  rcases handle_block_cases crates clock block watcher with
    ⟨after, handled, same | ⟨header, rfl⟩⟩ | ⟨header, coinbase, txid, found, handled⟩
  · rw [handled, same]
    exact indexed
  · rw [handled]
    exact slash_reds_indexed _ _ (counted_indexed header watcher indexed)
  · rw [handled]
    apply flush_indexed
    apply find_claim_indexed
    exact scanned_indexed block framed header coinbase txid found watcher indexed

theorem map_update_first {Item Image : Type} (image : Item → Image) (isTarget : Item → Bool)
    (update : Item → Item) (same : ∀ item, image (update item) = image item)
    (items : List Item) : (updateFirst isTarget update items).map image = items.map image := by
  induction items with
  | nil => rfl
  | cons item rest ih =>
      unfold updateFirst
      split
      · simp [same]
      · simp [ih]

theorem answer_outpoint (lastDaaScore : UInt64) (error : Option String) (e : EscrowEntry) :
    entryOutpoint (answerEntry lastDaaScore error e) = entryOutpoint e ∧
      (answerEntry lastDaaScore error e).blockHash = e.blockHash := by
  have answered := answer_answered lastDaaScore error e
  generalize answerEntry lastDaaScore error e = after at answered
  cases answered with
  | accepted => exact ⟨rfl, rfl⟩
  | exhausted _ => exact ⟨rfl, rfl⟩
  | retries _ => exact ⟨rfl, rfl⟩
  | waits => exact ⟨rfl, rfl⟩
  | refused => exact ⟨rfl, rfl⟩

theorem submit_indexed (clock : Clock) (error : Option String) (watcher : EscrowWatcher)
    (indexed : Indexed watcher) : Indexed (onSubmitResponse clock error watcher).1 := by
  unfold onSubmitResponse
  split
  · exact indexed
  · apply flush_indexed
    refine indexed.of_same ?_ ?_ rfl rfl
    · exact map_update_first _ _ _ (fun e => (answer_outpoint _ error e).1) _
    · exact map_update_first _ _ _ (fun e => (answer_outpoint _ error e).2) _

theorem track_inference_indexed (clock : Clock) (txid : String) (confirmDaa amount : UInt64)
    (watcher : EscrowWatcher) (indexed : Indexed watcher) :
    Indexed (trackInferenceEscrow clock txid confirmDaa amount watcher).1 := by
  rcases track_inference_cases clock txid confirmDaa amount watcher with
    same | ⟨_, unseen, tracked⟩
  · rwa [same]
  · rw [tracked]
    apply flush_indexed
    constructor
    · exact indexed.indexes.snoc _
    · exact indexed.indexes.fresh unseen indexed.distinct

theorem operate_indexed (crates : Crates) (watcher : EscrowWatcher) (call : Operation × Clock)
    (framed : Framed call.1) (indexed : Indexed watcher) :
    Indexed (operate crates watcher call).watcher := by
  obtain ⟨operation, clock⟩ := call
  cases operation with
  | handleBlock block => exact handle_block_indexed crates clock block framed watcher indexed
  | onSubmitResponse error => exact submit_indexed clock error watcher indexed
  | trackInferenceEscrow txid confirmDaa amount =>
      exact track_inference_indexed clock txid confirmDaa amount watcher indexed

/-- Whatever the calls were, the lookup structures say what the entries say, and
slashing through them is slashing by a scan. -/
theorem indexes_agree (crates : Crates) (account : ClaimAccount) (state : EscrowState) (now : Nat)
    (calls : List (Operation × Clock)) (watcher : EscrowWatcher)
    (distinct : (state.entries.map entryOutpoint).Nodup)
    (framed : ∀ call ∈ calls, Framed call.1)
    (ran : runFrom (watcherStep crates) (EscrowWatcher.loaded account state now) calls =
      some watcher) :
    Indexed watcher ∧ ∀ (verboseData : Option RpcBlockVerboseData) (daaScore : UInt64),
      (slashReds verboseData (countBlock { watcher with lastDaaScore := daaScore })).state.entries =
        scanReds verboseData
          (countBlock { watcher with lastDaaScore := daaScore }).state.entries := by
  have reached : Indexed watcher := by
    apply invariant_end Indexed _ calls _ watcher (loaded_indexed account state now distinct)
      (every_step_of_labels framed _) ran
    intro before call after indexed stepped framed_call
    obtain rfl := Option.some.inj stepped
    exact operate_indexed crates before call framed_call indexed
  constructor
  · exact reached
  · intro verboseData daaScore
    exact slash_reds_scans verboseData _ (counted_indexed { daaScore } watcher reached)

/-! A block that pays the sample account's escrow, and one that turns it red. -/

def rewardBlock (daaScore : UInt64) (hash : String) (reds : List String) (txid : String)
    (amounts : List UInt64) : RpcBlock where
  header := some { daaScore }
  transactions := [{
    version := 0
    inputs := []
    outputs := amounts.map fun amount =>
      { amount, scriptPublicKey := some ⟨0, sampleAccount.escrowScriptHex⟩ }
    lockTime := 0
    subnetworkId := nativeSubnetwork
    gas := 0
    payload := ""
    mass := 0
    verboseData := some ⟨txid⟩ }]
  verboseData := some ⟨hash, reds⟩

theorem indexes_agree_red_reward :
    ∃ watcher, runFrom (watcherStep sampleCrates) (EscrowWatcher.loaded sampleAccount ⟨[]⟩ 0)
        [(.handleBlock (rewardBlock 1 "aa" [] onesTxid [40000000, 50000000]), ⟨0, 0⟩),
          tracking twosTxid 40000000,
          (.handleBlock (rewardBlock 2 "bb" ["aa"] twosTxid []), ⟨0, 0⟩)] = some watcher ∧
      Indexed watcher :=
  ⟨_, rfl, (indexes_agree sampleCrates sampleAccount ⟨[]⟩ 0
    [(.handleBlock (rewardBlock 1 "aa" [] onesTxid [40000000, 50000000]), ⟨0, 0⟩),
      tracking twosTxid 40000000,
      (.handleBlock (rewardBlock 2 "bb" ["aa"] twosTxid []), ⟨0, 0⟩)] _ List.nodup_nil
    (by simp [Framed, rewardBlock, tracking]) rfl).1⟩

end KeryxMiner.EscrowIndexes
