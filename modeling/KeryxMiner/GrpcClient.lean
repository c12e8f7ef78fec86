import KeryxMiner.AiPayloads
import KeryxMiner.Escrow
import KeryxMiner.MinerJobs
import Mathlib.Data.Finset.Insert
import Mathlib.Data.List.AList

/-!
`KeryxdHandler` of `src/client/grpc.rs`: its messages, its timer tick and the
inferences it starts. What the surroundings answer during a message is an
argument. Log lines and the `extra_data` of a template request are left out.
-/

namespace KeryxMiner.GrpcClient

open AiPayloads ByteCodec Escrow MinerJobs RpcMessages

structure QueuedRequest where
  stableId : String
  raw : List UInt8
  modelId : Bytes 32
  prompt : String
  maxTokens : UInt64

structure KeryxdHandler where
  minerAddress : String
  mineWhenNotSynced : Bool
  devfundAddress : Option String
  devfundPercent : UInt16
  blockTemplateCtr : UInt16
  aiRequestQueue : List QueuedRequest
  aiSeenPrefixes : Finset String
  aiRequestTxids : AList fun _ : String => String × UInt64
  /-- The payload of the request that is answered. -/
  inferenceRx : Option (List UInt8)
  challengeInferenceRx : Option String
  lastKnownDaa : UInt64
  escrowWatcher : Option EscrowWatcher

structure NodeOptions where
  minerAddress : String
  mineWhenNotSynced : Bool
  devfund : Option (String × UInt16)
  blockTemplateCtr : UInt16
  escrowWatcher : Option EscrowWatcher

/-- `connect`, and `add_devfund` when there is one. -/
def KeryxdHandler.connect (options : NodeOptions) : KeryxdHandler where
  minerAddress := options.minerAddress
  mineWhenNotSynced := options.mineWhenNotSynced
  devfundAddress := options.devfund.map Prod.fst
  devfundPercent := (options.devfund.map Prod.snd).getD 0
  blockTemplateCtr := options.blockTemplateCtr
  aiRequestQueue := []
  aiSeenPrefixes := ∅
  aiRequestTxids := ∅
  inferenceRx := none
  challengeInferenceRx := none
  lastKnownDaa := 0
  escrowWatcher := options.escrowWatcher

/-- The fields that a `KRX:AI:1:` object may have. -/
structure KrxFields where
  model : Option String
  prompt : Option String
  maxTokens : Option UInt64

/-- Third-party code, and the model registry; `debugError` is the derived
formatting of an error. -/
structure NodeCrates where
  escrow : Crates
  blake2b : List UInt8 → Bytes 64
  fromUtf8Lossy : List UInt8 → String
  fromSlice : List UInt8 → Option KrxFields
  registry : List (String × Bytes 32)
  debugError : String → String

/-- An answer of `try_recv`. -/
inductive Received where
  | result (text : Option String)
  | empty
  | closed

/-- What a message meets: the model store, the two inference channels, the
upload, the channel to the node and the clock. -/
structure Surroundings where
  slm : Slm
  inference : Received
  challenge : Received
  upload : Except String (Bytes 34)
  connected : Bool
  clock : Clock

structure TemplateResponse where
  block : Option RpcBlock
  isSynced : Bool
  inferenceChallenge : String
  error : Option String

inductive Payload where
  | blockAddedNotification (block : Option RpcBlock)
  | newBlockTemplateNotification
  | getBlockTemplateResponse (template : TemplateResponse)
  | getBlockResponse (error : Option String) (block : Option RpcBlock)
  | submitBlockResponse (error : Option String)
  | submitTransactionResponse (error : Option String)
  | getInfoResponse
  | notifyNewBlockTemplateResponse (error : Option String)
  | notifyBlockAddedResponse (error : Option String)
  | unknown

inductive Request where
  | getBlockTemplate (payAddress inferenceResult : String)
  | getBlock (hash : String) (includeTransactions : Bool)
  | submitTransaction (transaction : RpcTransaction)
  | notifyNewBlockTemplate
  | notifyBlockAdded

/-- A call of `process_block`, and whether an inference was in flight. -/
structure Call where
  block : Option BlockSeed
  occupied : Bool

structure NodeSession where
  handler : KeryxdHandler
  miner : MinerManager
  sent : List Request
  calls : List Call

def Occupied (handler : KeryxdHandler) : Prop :=
  handler.inferenceRx.isSome = true ∨ handler.challengeInferenceRx.isSome = true

instance (handler : KeryxdHandler) : Decidable (Occupied handler) :=
  inferInstanceAs (Decidable (_ ∨ _))

abbrev Action := NodeSession → NodeSession × Except String Unit

/-- The `?` after a call. -/
def Action.andThen (first second : Action) : Action := fun session =>
  match first session with
  | (session, .error e) => (session, .error e)
  | (session, .ok ()) => second session

def NodeSession.onHandler (work : KeryxdHandler → KeryxdHandler) (session : NodeSession) :
    NodeSession :=
  { session with handler := work session.handler }

def publish (block : Option BlockSeed) : Action := fun session =>
  let (miner, result) := processBlock block session.miner
  ({ session with
    miner := miner
    calls := session.calls ++ [⟨block, decide (Occupied session.handler)⟩] }, result)

/-! Requests. -/

section Requests
variable (surroundings : Surroundings)

def clientSend (request : Request) : Action := fun session =>
  if surroundings.connected then ({ session with sent := session.sent ++ [request] }, .ok ())
  else (session, .error "channel closed")

def payAddress (handler : KeryxdHandler) : String :=
  match handler.devfundAddress with
  | some devfundAddress =>
      if handler.blockTemplateCtr ≤ handler.devfundPercent then devfundAddress
      else handler.minerAddress
  | none => handler.minerAddress

def countTemplate (handler : KeryxdHandler) : KeryxdHandler :=
  { handler with blockTemplateCtr := (handler.blockTemplateCtr + 1) % 10000 }

/-- `splitn(2, ':')`, an absent part being empty. -/
def splitColon (text : String) : String × String :=
  (String.ofList (text.toList.takeWhile fun c => c != ':'),
    String.ofList ((text.toList.dropWhile fun c => c != ':').drop 1))

/-- The answer to a challenge, taken when its task is over. -/
def harvest (answer : Received) (handler : KeryxdHandler) : KeryxdHandler × String :=
  match handler.challengeInferenceRx with
  | none => (handler, "")
  | some challenge =>
      match answer with
      | .result (some text) =>
          let (modelIdHex, nonceHex) := splitColon challenge
          ({ handler with challengeInferenceRx := none },
            modelIdHex ++ ":" ++ nonceHex ++ ":" ++ text)
      | .result none => ({ handler with challengeInferenceRx := none }, "")
      | .empty => (handler, "")
      | .closed => ({ handler with challengeInferenceRx := none }, "")

def clientGetBlockTemplate : Action := fun session =>
  let address := payAddress session.handler
  let (handler, inferenceResult) := harvest surroundings.challenge (countTemplate session.handler)
  clientSend surroundings (.getBlockTemplate address inferenceResult)
    { session with handler := handler }

end Requests

/-! AI requests. -/

section AiRequests
variable (crates : NodeCrates)

def decodeHex (text : String) : Option (List UInt8) := (crates.escrow.hexDecode text).toOption

def inputBytes (input : RpcTransactionInput) : Option (List UInt8) := do
  let previous ← input.previousOutpoint
  let txid ← decodeHex crates previous.transactionId
  if txid.length = 32 then
    some (txid ++ encode 4 previous.index.toNat ++ encode 8 0 ++ encode 8 input.sequence.toNat)
  else none

def outputBytes (output : RpcTransactionOutput) : Option (List UInt8) := do
  let spk ← output.scriptPublicKey
  let script ← decodeHex crates spk.scriptPublicKey
  some (encode 8 output.amount.toNat ++ encode 2 spk.version.toNat ++ encode 8 script.length ++
    script)

/-- What `compute_rpc_txid` feeds to the hash. -/
def txidStream (tx : RpcTransaction) : Option (List UInt8) := do
  let inputs ← tx.inputs.mapM (inputBytes crates)
  let outputs ← tx.outputs.mapM (outputBytes crates)
  let subnetwork ← decodeHex crates tx.subnetworkId
  let payload ← decodeHex crates tx.payload
  if subnetwork.length = 20 then
    some (encode 2 tx.version.toNat ++ encode 8 tx.inputs.length ++ inputs.flatten ++
      encode 8 tx.outputs.length ++ outputs.flatten ++ encode 8 tx.lockTime.toNat ++ subnetwork ++
      encode 8 tx.gas.toNat ++ encode 8 payload.length ++ payload)
  else none

def ascii (text : String) : List UInt8 := text.toList.map fun c => UInt8.ofNat c.toNat

def computeRpcTxid (tx : RpcTransaction) : Option String :=
  (txidStream crates tx).map fun bytes =>
    crates.escrow.hexEncode (crates.escrow.blake2b (ascii "TransactionID") bytes).items

def krxPrefix : List UInt8 := ascii "KRX:AI:1:"

def parseKrxAiPayload (raw : List UInt8) : Option (String × String × UInt64) :=
  if raw.length ≤ krxPrefix.length ∨ ¬ krxPrefix <+: raw then none
  else do
    let fields ← crates.fromSlice (raw.drop krxPrefix.length)
    let prompt ← fields.prompt
    some (fields.model.getD "gemma-3-4b", prompt, fields.maxTokens.getD 128)

def find (name : String) : Option (Bytes 32) := crates.registry.lookup name

structure Extracted where
  raw : List UInt8
  modelId : Bytes 32
  prompt : String
  maxTokens : UInt64
  inferenceReward : UInt64

def extract (tx : RpcTransaction) : Option Extracted :=
  if tx.subnetworkId = subnetworkIdAiRequestHex then do
    let raw ← decodeHex crates tx.payload
    let request ← AiRequestPayload.deserialize raw
    some {
      raw
      modelId := request.modelId
      prompt := crates.fromUtf8Lossy request.prompt
      maxTokens := request.maxTokens.toUInt64
      inferenceReward := request.inferenceReward }
  else if tx.inputs ≠ [] then do
    let raw ← decodeHex crates tx.payload
    let (modelName, prompt, maxTokens) ← parseKrxAiPayload crates raw
    let modelId ← find crates modelName
    some { raw, modelId, prompt, maxTokens, inferenceReward := 0 }
  else none

def stableIdOf (raw : List UInt8) : String :=
  crates.escrow.hexEncode ((crates.blake2b raw).items.take 8)

def enqueue (stableId : String) (found : Extracted) (handler : KeryxdHandler) : KeryxdHandler :=
  if stableId ∈ handler.aiSeenPrefixes then handler
  else { handler with
    aiSeenPrefixes := insert stableId handler.aiSeenPrefixes
    aiRequestQueue := handler.aiRequestQueue ++
      [⟨stableId, found.raw, found.modelId, found.prompt, found.maxTokens⟩] }

/-- The transaction id that the node gives, or else the computed one. -/
def requestTxid (tx : RpcTransaction) : Option String :=
  match tx.verboseData with
  | some verbose =>
      if verbose.transactionId ≠ "" then some verbose.transactionId else computeRpcTxid crates tx
  | none => computeRpcTxid crates tx

def rememberTxid (stableId : String) (tx : RpcTransaction) (reward : UInt64)
    (handler : KeryxdHandler) : KeryxdHandler :=
  if 0 < reward then
    match requestTxid crates tx with
    | none => handler
    | some txid =>
        { handler with aiRequestTxids := handler.aiRequestTxids.insert stableId (txid, reward) }
  else handler

def scanTx (readyIds : List (Bytes 32)) (handler : KeryxdHandler) (tx : RpcTransaction) :
    KeryxdHandler :=
  match extract crates tx with
  | none => handler
  | some found =>
      if found.modelId ∈ readyIds then
        let stableId := stableIdOf crates found.raw
        rememberTxid crates stableId tx found.inferenceReward (enqueue stableId found handler)
      else handler

def scanTxsForAiRequests (slm : Slm) (txs : List RpcTransaction) (handler : KeryxdHandler) :
    KeryxdHandler :=
  if slm.loadedModelIds = [] then handler
  else txs.foldl (scanTx crates slm.loadedModelIds) handler

/-! Inference. -/

def tryStartInference (slm : Slm) (handler : KeryxdHandler) : KeryxdHandler :=
  if handler.inferenceRx.isSome then handler
  else
    match handler.aiRequestQueue with
    | [] => handler
    | request :: rest =>
        let popped := { handler with aiRequestQueue := rest }
        if slm.isModelReady request.modelId then { popped with inferenceRx := some request.raw }
        else popped

def isWhitespace (c : Char) : Bool :=
  c.toNat ∈ [0x09, 0x0a, 0x0b, 0x0c, 0x0d, 0x20, 0x85, 0xa0, 0x1680, 0x2028, 0x2029, 0x202f,
    0x205f, 0x3000] || (0x2000 ≤ c.toNat && c.toNat ≤ 0x200a)

/-- `split_whitespace().count()`. -/
def wordCount (text : String) : Nat :=
  ((text.toList.splitBy fun a b => isWhitespace a == isWhitespace b).filter fun run =>
    run.any fun c => !isWhitespace c).length

def responseTx (handler : KeryxdHandler) (raw : List UInt8) (cid : Bytes 34) (text : String) :
    RpcTransaction :=
  let hash := crates.blake2b raw
  let response : AiResponsePayload := {
    requestHash := ⟨hash.items.take 32, by rw [List.length_take, hash.sized]; rfl⟩
    challengeWindowEnd := handler.lastKnownDaa + 1000
    responseIpfsCid := cid
    responseLength := UInt32.ofNat (wordCount text) }
  { version := 0
    inputs := []
    outputs := []
    lockTime := 0
    subnetworkId := subnetworkIdAiResponseHex
    gas := 0
    payload := crates.escrow.hexEncode response.serialize
    mass := 0
    verboseData := none }

/-- The escrow of an answered request. -/
def trackAnswered (clock : Clock) (stableId : String) (handler : KeryxdHandler) : KeryxdHandler :=
  match handler.aiRequestTxids.lookup stableId with
  | none => handler
  | some (txid, reward) => { handler with
      aiRequestTxids := handler.aiRequestTxids.erase stableId
      escrowWatcher := handler.escrowWatcher.map fun watcher =>
        (operate crates.escrow watcher
          (.trackInferenceEscrow txid handler.lastKnownDaa reward, clock)).watcher }

def submitResponse (surroundings : Surroundings) (raw : List UInt8) (cid : Bytes 34)
    (text : String) (session : NodeSession) : NodeSession :=
  -- a failed send is only logged
  let (sent, _) := clientSend surroundings
    (.submitTransaction (responseTx crates session.handler raw cid text)) session
  sent.onHandler (trackAnswered crates surroundings.clock (stableIdOf crates raw))

/-- The second component tells whether an inference was just finished. -/
def pollInference (surroundings : Surroundings) (session : NodeSession) : NodeSession × Bool :=
  match session.handler.inferenceRx with
  | none => (session, false)
  | some raw =>
      let taken := session.onHandler fun handler => { handler with inferenceRx := none }
      match surroundings.inference with
      | .empty => (session, false)
      | .closed => (session, false)
      | .result none => (taken, true)
      | .result (some text) =>
          match surroundings.upload with
          | .error _ => (taken, true)
          | .ok cid => (submitResponse crates surroundings raw cid text taken, true)

/-! Messages. -/

variable (surroundings : Surroundings)

/-- The scan of a block with its transactions, and what its escrow can claim. -/
def handleFullBlock (block : RpcBlock) : Action := fun session =>
  let started := session.onHandler fun handler =>
    tryStartInference surroundings.slm
      (scanTxsForAiRequests crates surroundings.slm block.transactions handler)
  match started.handler.escrowWatcher with
  | none => (started, .ok ())
  | some watcher =>
      let outcome := operate crates.escrow watcher (.handleBlock block, surroundings.clock)
      let watched := started.onHandler fun handler =>
        { handler with escrowWatcher := some outcome.watcher }
      match outcome.claim with
      | none => (watched, .ok ())
      | some tx => clientSend surroundings (.submitTransaction tx) watched

def fetchBlock (block : RpcBlock) : Action := fun session =>
  let hash := (block.verboseData.map (·.hash)).getD ""
  if hash ≠ "" then clientSend surroundings (.getBlock hash true) session else (session, .ok ())

def handleBlockAdded (block : RpcBlock) : Action :=
  if block.transactions ≠ [] then handleFullBlock crates surroundings block
  else fetchBlock surroundings block

def trackDaa (block : Option RpcBlock) (handler : KeryxdHandler) : KeryxdHandler :=
  match block.bind (·.header) with
  | none => handler
  | some header =>
      if handler.lastKnownDaa < header.daaScore then
        { handler with lastKnownDaa := header.daaScore }
      else handler

def isReadyModel (modelIdHex : String) : Bool :=
  match decodeHex crates modelIdHex with
  | none => false
  | some bytes =>
      if sized : bytes.length = 32 then surroundings.slm.isModelReady ⟨bytes, sized⟩ else false

def startChallenge (challenge : String) (handler : KeryxdHandler) : KeryxdHandler :=
  if challenge ≠ "" ∧ handler.challengeInferenceRx = none ∧
      handler.lastKnownDaa < pomActivationDaa ∧
      isReadyModel crates surroundings (splitColon challenge).1 then
    { handler with challengeInferenceRx := some challenge }
  else handler

/-- The end of a template response: the template itself. -/
def mineTemplate (template : TemplateResponse) : Action := fun session =>
  match template.block, template.isSynced, template.error with
  | some block, true, none => publish (some (.fullBlock block)) session
  | some block, false, none =>
      if session.handler.mineWhenNotSynced then publish (some (.fullBlock block)) session
      else publish none session
  | none, false, none => publish none session
  | _, _, some e =>
      (session, .error ("GetTemplate returned with an error: " ++ crates.debugError e))
  | none, true, none => (session, .ok ())

def scanTemplate (template : TemplateResponse) (handler : KeryxdHandler) : KeryxdHandler :=
  match template.block with
  | none => handler
  | some block => scanTxsForAiRequests crates surroundings.slm block.transactions handler

def handleTemplate (template : TemplateResponse) : Action := fun session =>
  let challenged := session.onHandler fun handler =>
    startChallenge crates surroundings template.inferenceChallenge (trackDaa template.block handler)
  let (polled, finished) := pollInference crates surroundings challenged
  if finished then clientGetBlockTemplate surroundings polled
  else if surroundings.slm.loadedModelIds = [] then publish none polled
  else
    let started := polled.onHandler fun handler =>
      tryStartInference surroundings.slm (scanTemplate crates surroundings template handler)
    if Occupied started.handler then publish none started
    else mineTemplate crates template started

def handleSubmitResponse (error : Option String) : Action := fun session =>
  match session.handler.escrowWatcher with
  | none => (session, .ok ())
  | some watcher =>
      if watcher.pendingClaimTxid.isSome then
        let outcome := operate crates.escrow watcher (.onSubmitResponse error, surroundings.clock)
        (session.onHandler fun handler => { handler with escrowWatcher := some outcome.watcher },
          .ok ())
      else (session, .ok ())

def handleInfo : Action :=
  Action.andThen (clientSend surroundings .notifyNewBlockTemplate)
    (Action.andThen (clientSend surroundings .notifyBlockAdded)
      (clientGetBlockTemplate surroundings))

def handleMessage (payload : Payload) : Action :=
  match payload with
  | .blockAddedNotification (some block) => handleBlockAdded crates surroundings block
  | .blockAddedNotification none => fun session => (session, .ok ())
  | .newBlockTemplateNotification => clientGetBlockTemplate surroundings
  | .getBlockTemplateResponse template => handleTemplate crates surroundings template
  | .getBlockResponse none (some block) => handleFullBlock crates surroundings block
  | .getBlockResponse none none => fun session => (session, .ok ())
  | .getBlockResponse (some _) _ => fun session => (session, .ok ())
  | .submitTransactionResponse error => handleSubmitResponse crates surroundings error
  | .getInfoResponse => handleInfo surroundings
  -- only logged
  | .submitBlockResponse _ => fun session => (session, .ok ())
  | .notifyNewBlockTemplateResponse _ => fun session => (session, .ok ())
  | .notifyBlockAddedResponse _ => fun session => (session, .ok ())
  | .unknown => fun session => (session, .ok ())

/-- A tick of the timer of `listen`. -/
def handleTick : Action := fun session =>
  let (polled, finished) := pollInference crates surroundings session
  if finished then clientGetBlockTemplate surroundings polled
  else if polled.handler.challengeInferenceRx.isSome then
    clientGetBlockTemplate surroundings polled
  else (polled, .ok ())

end AiRequests

end KeryxMiner.GrpcClient
