import KeryxMiner.ByteCodec
import KeryxMiner.RpcMessages
import Mathlib.Data.List.Infix
import Mathlib.Logic.Function.Basic

/-!
The escrow watcher of `src/escrow.rs`: tracking of escrow outputs, selection and
building of claim transactions, and the answers to them. Log lines are left out.
The `hex`, `blake2b_simd` and `secp256k1` crates are a parameter.
-/

namespace KeryxMiner.Escrow

open ByteCodec RpcMessages

def challengeWindowBlocks : UInt64 := 36000
def claimFeeSompi : UInt64 := 30000000
def nativeSubnetwork : String := "0000000000000000000000000000000000000000"
def sigHashAll : UInt8 := 0x01
def compactEveryBlocks : UInt32 := 2000
def orphanRetryCooldownBlocks : UInt64 := 100
def seqLockRetryCooldownBlocks : UInt64 := 20
def maxOrphanRetries : UInt8 := 10

/-- Two seconds, in nanoseconds. -/
def stateSaveInterval : Nat := 2000000000

structure EscrowEntry where
  coinbaseTxid : String
  /-- Empty for inference entries. -/
  blockHash : String
  confirmDaa : UInt64
  amountSompi : UInt64
  outputIndex : UInt32
  claimed : Bool
  slashed : Bool
  orphanSlashed : Bool
  orphanRetries : UInt8
  orphanRetryAfterDaa : Option UInt64
  isInference : Bool
  deriving DecidableEq

structure EscrowState where
  entries : List EscrowEntry
  deriving DecidableEq

/-- What `new` derives from the key and the address, once. -/
structure ClaimAccount where
  secretKey : Bytes 32
  escrowScript : List UInt8
  escrowScriptHex : String
  payoutSpkVersion : UInt16
  payoutSpkScript : List UInt8
  payoutSpkScriptHex : String

structure EscrowWatcher where
  account : ClaimAccount
  state : EscrowState
  pendingClaimTxid : Option String
  pendingClaimOutputIndex : Option UInt32
  lastDaaScore : UInt64
  outpointSet : List String
  blockIndex : String → List Nat
  dirty : Bool
  lastSave : Nat
  blocksSinceCompact : UInt32

/-- The clock at the `elapsed` test and at the `Instant::now` after a save. -/
structure Clock where
  checked : Nat
  saved : Nat

/-- A call's effects: the new watcher, the transaction it returns, and the state
it hands to the file write. -/
structure Outcome where
  watcher : EscrowWatcher
  claim : Option RpcTransaction
  written : Option EscrowState

/-- Third-party code; an error is its text. -/
structure Crates where
  hexDecode : String → Except String (List UInt8)
  hexEncode : List UInt8 → String
  /-- Keyed Blake2b-256 of the second argument. -/
  blake2b : List UInt8 → List UInt8 → Bytes 32
  fromDigestSlice : Bytes 32 → Except String (Bytes 32)
  signSchnorr : Bytes 32 → Bytes 32 → Bytes 64

/-! Indexes and persistence. -/

def outpointKey (txid : String) (index : Nat) : String := txid ++ ":" ++ toString index

def addToBlock (blockIndex : String → List Nat) (blockHash : String) (i : Nat) :
    String → List Nat :=
  if blockHash = "" then blockIndex
  else Function.update blockIndex blockHash (blockIndex blockHash ++ [i])

def indexEntry (watcher : EscrowWatcher) (entry : EscrowEntry × Nat) : EscrowWatcher :=
  { watcher with
    outpointSet :=
      watcher.outpointSet.insert (outpointKey entry.1.coinbaseTxid entry.1.outputIndex.toNat)
    blockIndex := addToBlock watcher.blockIndex entry.1.blockHash entry.2 }

def rebuildIndexes (watcher : EscrowWatcher) : EscrowWatcher :=
  watcher.state.entries.zipIdx.foldl indexEntry
    { watcher with outpointSet := [], blockIndex := fun _ => [] }

def markDirty (watcher : EscrowWatcher) : EscrowWatcher := { watcher with dirty := true }

def compact (watcher : EscrowWatcher) : EscrowWatcher :=
  let kept := watcher.state.entries.filter fun e => !e.claimed && !e.slashed
  if kept.length ≠ watcher.state.entries.length then
    markDirty (rebuildIndexes { watcher with state := ⟨kept⟩ })
  else watcher

def maybeFlush (clock : Clock) (watcher : EscrowWatcher) : EscrowWatcher × Option EscrowState :=
  if watcher.dirty ∧ stateSaveInterval ≤ clock.checked - watcher.lastSave then
    ({ watcher with dirty := false, lastSave := clock.saved }, some watcher.state)
  else (watcher, none)

/-- The end of `new`, over the state that was loaded. -/
def EscrowWatcher.loaded (account : ClaimAccount) (state : EscrowState) (now : Nat) :
    EscrowWatcher :=
  rebuildIndexes {
    account, state
    pendingClaimTxid := none
    pendingClaimOutputIndex := none
    lastDaaScore := 0
    outpointSet := []
    blockIndex := fun _ => []
    dirty := false
    lastSave := now
    blocksSinceCompact := 0 }

/-! Claim transactions. -/

def signingKey : List UInt8 := "TransactionSigningHash".toList.map fun c => UInt8.ofNat c.toNat

def u64Bytes (value : UInt64) : List UInt8 := (toLeBytes value).items

section Claims
variable (crates : Crates)

def computeSighash (coinbaseTxid : Bytes 32) (outputIndex : UInt32) (escrowAmount : UInt64)
    (escrowScript : List UInt8) (payoutSpkVersion : UInt16) (payoutSpkScript : List UInt8)
    (payoutAmount : UInt64) : Bytes 32 :=
  let newHash := crates.blake2b signingKey
  let index := encode 4 outputIndex.toNat
  let prevOutHash := newHash (coinbaseTxid.items ++ index)
  let seqsHash := newHash (u64Bytes challengeWindowBlocks)
  let sigopsHash := newHash [1]
  let outsHash := newHash (u64Bytes payoutAmount ++ encode 2 payoutSpkVersion.toNat ++
    u64Bytes (UInt64.ofNat payoutSpkScript.length) ++ payoutSpkScript)
  let payloadHash := List.replicate 32 (0 : UInt8)
  newHash (encode 2 0 ++ prevOutHash.items ++ seqsHash.items ++ sigopsHash.items ++
    coinbaseTxid.items ++ index ++ encode 2 0 ++
    u64Bytes (UInt64.ofNat escrowScript.length) ++ escrowScript ++ u64Bytes escrowAmount ++
    u64Bytes challengeWindowBlocks ++ [1] ++ outsHash.items ++ u64Bytes 0 ++
    List.replicate 20 0 ++ u64Bytes 0 ++ payloadHash ++ [sigHashAll])

def amountOut (amountSompi : UInt64) : Except String UInt64 :=
  if claimFeeSompi ≤ amountSompi ∧ 0 < amountSompi - claimFeeSompi then
    .ok (amountSompi - claimFeeSompi)
  else .error "escrow amount too small to cover claim fee"

def coinbaseBytes (coinbaseTxid : String) : Except String (Bytes 32) :=
  match crates.hexDecode coinbaseTxid with
  | .error e => .error ("bad coinbase txid: " ++ e)
  | .ok bytes =>
      if sized : bytes.length = 32 then .ok ⟨bytes, sized⟩
      else .error "coinbase txid must be 32 bytes"

def signingMessage (sighash : Bytes 32) : Except String (Bytes 32) :=
  match crates.fromDigestSlice sighash with
  | .error e => .error ("sighash message error: " ++ e)
  | .ok message => .ok message

def buildClaimTx (watcher : EscrowWatcher) (entry : EscrowEntry) :
    Except String RpcTransaction := do
  let account := watcher.account
  let paid ← amountOut entry.amountSompi
  let txid ← coinbaseBytes crates entry.coinbaseTxid
  let sighash := computeSighash crates txid entry.outputIndex entry.amountSompi
    account.escrowScript account.payoutSpkVersion account.payoutSpkScript paid
  let message ← signingMessage crates sighash
  let sig := crates.signSchnorr account.secretKey message
  let sigScript := 0x41 :: sig.items ++ [sigHashAll]
  .ok {
    version := 0
    inputs := [{
      previousOutpoint := some { transactionId := entry.coinbaseTxid, index := entry.outputIndex }
      signatureScript := crates.hexEncode sigScript
      sequence := challengeWindowBlocks
      sigOpCount := 1 }]
    outputs := [{
      amount := paid
      scriptPublicKey := some {
        version := account.payoutSpkVersion.toUInt32
        scriptPublicKey := account.payoutSpkScriptHex } }]
    lockTime := 0
    subnetworkId := nativeSubnetwork
    gas := 0
    payload := ""
    mass := 0
    verboseData := none }

def isEligible (daaScore : UInt64) (e : EscrowEntry) : Bool :=
  !e.claimed && !e.slashed
    && decide (e.confirmDaa + challengeWindowBlocks + 10 ≤ daaScore)
    && (match e.orphanRetryAfterDaa with
      | none => true
      | some retryDaa => decide (retryDaa ≤ daaScore))

def selectEntry (daaScore : UInt64) (entries : List EscrowEntry) : Option EscrowEntry :=
  (entries.find? fun e => e.isInference && isEligible daaScore e).or
    (entries.find? fun e => !e.isInference && isEligible daaScore e)

def findClaim (daaScore : UInt64) (watcher : EscrowWatcher) :
    EscrowWatcher × Option RpcTransaction :=
  if watcher.pendingClaimTxid.isSome then (watcher, none)
  else
    match selectEntry daaScore watcher.state.entries with
    | none => (watcher, none)
    | some entry =>
        match buildClaimTx crates watcher entry with
        | .ok tx => ({ watcher with
            pendingClaimOutputIndex := some entry.outputIndex
            pendingClaimTxid := some entry.coinbaseTxid }, some tx)
        -- only logged: the entry is unchanged and is selected again at the next block
        | .error _ => (watcher, none)

/-! Blocks. -/

def countBlock (watcher : EscrowWatcher) : EscrowWatcher :=
  let counted := { watcher with blocksSinceCompact := watcher.blocksSinceCompact + 1 }
  if compactEveryBlocks ≤ counted.blocksSinceCompact then
    compact { counted with blocksSinceCompact := 0 }
  else counted

def slashAt (watcher : EscrowWatcher) (i : Nat) : EscrowWatcher :=
  match watcher.state.entries[i]? with
  | none => watcher
  | some entry =>
      if !entry.claimed && !entry.slashed && !entry.isInference && entry.blockHash ≠ "" then
        markDirty
          { watcher with state := ⟨watcher.state.entries.set i { entry with slashed := true }⟩ }
      else watcher

def slashRed (watcher : EscrowWatcher) (redHash : String) : EscrowWatcher :=
  (watcher.blockIndex redHash).foldl slashAt watcher

def slashReds (verboseData : Option RpcBlockVerboseData) (watcher : EscrowWatcher) :
    EscrowWatcher :=
  match verboseData with
  | none => watcher
  | some verbose => verbose.mergeSetRedsHashes.foldl slashRed watcher

/-- ASCII lower case; no other character becomes a hex digit in lower case. -/
def toLowercase (text : String) : String := String.ofList (text.toList.map Char.toLower)

def trackOutput (coinbaseTxid blockHash : String) (daaScore : UInt64) (watcher : EscrowWatcher) :
    RpcTransactionOutput × Nat → EscrowWatcher
  | (output, outIdx) =>
      match output.scriptPublicKey with
      | none => watcher
      | some spk =>
          let key := outpointKey coinbaseTxid outIdx
          if toLowercase spk.scriptPublicKey = watcher.account.escrowScriptHex ∧
              spk.version = 0 ∧ key ∉ watcher.outpointSet then
            markDirty { watcher with
              state := ⟨watcher.state.entries ++ [{
                coinbaseTxid, blockHash
                confirmDaa := daaScore
                amountSompi := output.amount
                outputIndex := UInt32.ofNat outIdx
                claimed := false
                slashed := false
                orphanSlashed := false
                orphanRetries := 0
                orphanRetryAfterDaa := none
                isInference := false }]⟩
              outpointSet := watcher.outpointSet.insert key
              blockIndex := addToBlock watcher.blockIndex blockHash watcher.state.entries.length }
          else watcher

def trackOutputs (coinbaseTxid blockHash : String) (daaScore : UInt64)
    (outputs : List RpcTransactionOutput) (watcher : EscrowWatcher) : EscrowWatcher :=
  outputs.zipIdx.foldl (trackOutput coinbaseTxid blockHash daaScore) watcher

/-- The first transaction without inputs, and its id when it carries one. -/
def findCoinbase (block : RpcBlock) : Option (RpcTransaction × String) := do
  let coinbase ← block.transactions.find? fun tx => tx.inputs.isEmpty
  let verbose ← coinbase.verboseData
  if verbose.transactionId = "" then none else some (coinbase, verbose.transactionId)

def handleBlock (clock : Clock) (block : RpcBlock) (watcher : EscrowWatcher) : Outcome :=
  match block.header with
  | none => { watcher, claim := none, written := none }
  | some header =>
      let daaScore := header.daaScore
      let watcher := countBlock { watcher with lastDaaScore := daaScore }
      let blockHash := (block.verboseData.map (·.hash)).getD ""
      let watcher := slashReds block.verboseData watcher
      -- without a coinbase the call ends here, before `find_claim` and the flush
      match findCoinbase block with
      | none => { watcher, claim := none, written := none }
      | some (coinbase, txid) =>
          let watcher := trackOutputs txid blockHash daaScore coinbase.outputs watcher
          let (watcher, claim) := findClaim crates daaScore watcher
          let (watcher, written) := maybeFlush clock watcher
          { watcher, claim, written }

end Claims

/-! Answers. -/

def updateFirst {Item : Type} (isTarget : Item → Bool) (update : Item → Item) :
    List Item → List Item
  | [] => []
  | item :: rest =>
      if isTarget item then update item :: rest else item :: updateFirst isTarget update rest

def isOutpoint (txid : String) (outIdx : UInt32) (e : EscrowEntry) : Bool :=
  e.coinbaseTxid == txid && e.outputIndex == outIdx

def containsText (text part : String) : Bool := decide (part.toList <:+: text.toList)

def answerEntry (lastDaaScore : UInt64) (error : Option String) (e : EscrowEntry) : EscrowEntry :=
  match error with
  | none => { e with claimed := true }
  | some errMsg =>
      if containsText errMsg "orphan" then
        let retries := e.orphanRetries + 1
        -- the last allowed retry slashes, the earlier ones wait
        if maxOrphanRetries ≤ retries then
          { e with orphanRetries := retries, orphanSlashed := false, slashed := true }
        else
          { e with
            orphanRetries := retries
            orphanSlashed := true
            orphanRetryAfterDaa := some (lastDaaScore + orphanRetryCooldownBlocks) }
      else if containsText errMsg "sequence lock" then
        { e with orphanRetryAfterDaa := some (lastDaaScore + seqLockRetryCooldownBlocks) }
      else { e with slashed := true }

def onSubmitResponse (clock : Clock) (error : Option String) (watcher : EscrowWatcher) :
    EscrowWatcher × Option EscrowState :=
  match watcher.pendingClaimTxid with
  | none => (watcher, none)
  | some txid =>
      let outIdx := watcher.pendingClaimOutputIndex.getD 1
      maybeFlush clock (markDirty { watcher with
        pendingClaimTxid := none
        pendingClaimOutputIndex := none
        state := ⟨updateFirst (isOutpoint txid outIdx)
          (answerEntry watcher.lastDaaScore error) watcher.state.entries⟩ })

def trackInferenceEscrow (clock : Clock) (aiRequestTxid : String)
    (confirmDaa escrowAmount : UInt64) (watcher : EscrowWatcher) :
    EscrowWatcher × Option EscrowState :=
  let key := outpointKey aiRequestTxid 1
  if escrowAmount = 0 ∨ key ∈ watcher.outpointSet then (watcher, none)
  else
    maybeFlush clock (markDirty { watcher with
      state := ⟨watcher.state.entries ++ [{
        coinbaseTxid := aiRequestTxid
        blockHash := ""
        confirmDaa
        amountSompi := escrowAmount
        outputIndex := 1
        claimed := false
        slashed := false
        orphanSlashed := false
        orphanRetries := 0
        orphanRetryAfterDaa := none
        isInference := true }]⟩
      outpointSet := watcher.outpointSet.insert key })

/-! Runs of a watcher. -/

inductive Operation where
  | handleBlock (block : RpcBlock)
  | onSubmitResponse (error : Option String)
  | trackInferenceEscrow (aiRequestTxid : String) (confirmDaa escrowAmount : UInt64)

def operate (crates : Crates) (watcher : EscrowWatcher) (call : Operation × Clock) : Outcome :=
  match call.1 with
  | .handleBlock block => handleBlock crates call.2 block watcher
  | .onSubmitResponse error =>
      let (watcher, written) := onSubmitResponse call.2 error watcher
      { watcher, claim := none, written }
  | .trackInferenceEscrow txid confirmDaa amount =>
      let (watcher, written) := trackInferenceEscrow call.2 txid confirmDaa amount watcher
      { watcher, claim := none, written }

end KeryxMiner.Escrow
