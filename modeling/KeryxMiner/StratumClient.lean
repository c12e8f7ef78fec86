import KeryxMiner.AiPayloads
import KeryxMiner.MinerJobs
import KeryxMiner.StratumMessages
import Mathlib.Data.Finset.Erase
import Mathlib.Data.Finset.Insert
import Mathlib.Data.List.AList

/-!
`StratumHandler::handle_message` of `src/client/stratum.rs` with the inference
tasks that it spawns. A message is handled in one step: a task that ends while
one is handled leaves the state that it leaves when it ends before or after it.
Log lines are left out.
-/

namespace KeryxMiner.StratumClient

open AiPayloads ByteCodec MinerJobs StratumMessages

def powSaltV4ActivationDaa : UInt64 := 21932751

/-- `0xffff * 2^208`. -/
def difficulty1Target : UInt64 × Int16 := (0xffff, 208)

structure AiTask where
  stableId : String
  modelIdHex : String
  prompt : String
  maxTokens : UInt64
  inferenceReward : UInt64
  requestHash : String
  deriving DecidableEq

structure CurrentTask where
  jobId : String
  task : AiTask
  deriving DecidableEq

structure InferenceCache where
  results : AList fun _ : String => String
  inProgress : Finset String

structure ShareStats where
  accepted : UInt64
  stale : UInt64
  lowDiff : UInt64
  duplicate : UInt64
  sharesPending : AList fun _ : UInt32 => String

structure StratumHandler where
  blockTemplateCtr : UInt16
  targetPool : Limbs
  nonceMask : UInt64
  nonceFixed : UInt64
  extranonce : Option String
  sharesStats : ShareStats
  currentTask : Option CurrentTask
  inferenceCache : InferenceCache
  challengeInFlight : Bool

def StratumHandler.connect (blockTemplateCtr : UInt16) (stats : ShareStats) : StratumHandler where
  blockTemplateCtr := blockTemplateCtr
  targetPool := #v[0, 0, 0, 0]
  nonceMask := 0xffffffffffffffff
  nonceFixed := 0
  extranonce := none
  sharesStats := stats
  currentTask := none
  inferenceCache := ⟨∅, ∅⟩
  challengeInFlight := false

/-- A spawned task; `uploaded` tells that the answer of an AI task is in the
cache. -/
inductive InferenceTask where
  | challenge (modelId : Bytes 32) (modelIdHex nonceHex prompt : String)
  | aiTask (modelId : Bytes 32) (task : AiTask) (uploaded : Bool)
  deriving DecidableEq

/-- A connection; `sent` holds the lines its handler and tasks sent. -/
structure Session where
  handler : StratumHandler
  miner : MinerManager
  tasks : List InferenceTask
  sent : List StratumLine

/-- Third-party code; `debug` is the derived formatting of a line. -/
structure PoolCrates where
  hexDecode : String → Option (List UInt8)
  parseTask : String → Option AiTask
  debug : StratumLine → String

inductive Handled where
  | ok
  | failed (error : String)
  | panicked
  deriving DecidableEq

def Handled.ofResult : Except String Unit → Handled
  | .ok () => .ok
  | .error e => .failed e

def StratumHandler.withExtranonce (extranonce : String) (nonceSize : UInt32) (fixed : UInt64)
    (handler : StratumHandler) : StratumHandler :=
  -- a shift takes its amount modulo 64, and the product is modulo 2^32
  let bits := (nonceSize * 8).toUInt64
  { handler with
    extranonce := some extranonce
    nonceFixed := fixed <<< bits
    nonceMask := (1 <<< bits) - 1 }

/-! Numbers. -/

def hexDigit (c : Char) : Option Nat :=
  if '0' ≤ c ∧ c ≤ '9' then some (c.toNat - '0'.toNat)
  else if 'a' ≤ c ∧ c ≤ 'f' then some (c.toNat - 'a'.toNat + 10)
  else if 'A' ≤ c ∧ c ≤ 'F' then some (c.toNat - 'A'.toNat + 10)
  else none

def pushDigit (value : Nat) (c : Char) : Except String Nat :=
  match hexDigit c with
  | none => .error "invalid digit found in string"
  | some digit =>
      if 16 * value + digit < 2 ^ 64 then .ok (16 * value + digit)
      else .error "number too large to fit in target type"

/-- `u64::from_str_radix` with the radix 16. -/
def fromStrRadix16 (text : String) : Except String UInt64 :=
  match text.toList with
  | [] => .error "cannot parse integer from empty string"
  | ['+'] => .error "invalid digit found in string"
  | '+' :: digits => (digits.foldlM pushDigit 0).map UInt64.ofNat
  | digits => (digits.foldlM pushDigit 0).map UInt64.ofNat

def setExtranonce (extranonce : String) (nonceSize : UInt32) (handler : StratumHandler) :
    StratumHandler × Handled :=
  match fromStrRadix16 extranonce with
  -- the text is kept before it is parsed
  | .error e => ({ handler with extranonce := some extranonce }, .failed e)
  | .ok fixed => (handler.withExtranonce extranonce nonceSize fixed, .ok)

def leadingZeros (word : UInt64) : Nat := (word.toBitVec.clz).toNat

def setDifficulty (difficulty : Difficulty) (handler : StratumHandler) :
    StratumHandler × Handled :=
  let newMantissa := difficulty.mantissa * difficulty1Target.1
  let newExponent := (difficulty1Target.2 + difficulty.exponent).toInt64.toUInt64
  let start := (newExponent / 64).toNat
  let remainder := newExponent % 64
  if bound : start < 4 then
    let bottom : Limbs := Vector.set #v[0, 0, 0, 0] start (newMantissa <<< remainder)
    if top : start < 3 then
      let target := bottom.set (start + 1) (newMantissa >>> (64 - remainder))
      ({ handler with targetPool := target }, .ok)
    else if leadingZeros newMantissa < remainder.toNat then
      (handler, .failed "Target is too big")
    else ({ handler with targetPool := bottom }, .ok)
  -- an index out of range
  else (handler, .panicked)

/-! Shares. -/

def removeShare (id : UInt32) (handler : StratumHandler) : StratumHandler :=
  { handler with sharesStats := { handler.sharesStats with
      sharesPending := handler.sharesStats.sharesPending.erase id } }

def acceptShare (id : UInt32) (handler : StratumHandler) : StratumHandler :=
  match handler.sharesStats.sharesPending.lookup id with
  | none => handler
  | some _ =>
      let handler := removeShare id handler
      { handler with sharesStats := { handler.sharesStats with
          accepted := handler.sharesStats.accepted + 1 } }

def rejectShare (error : StratumError) (stats : ShareStats) : ShareStats × Handled :=
  match error.code with
  | .unknown => ({ stats with lowDiff := stats.lowDiff + 1 }, .ok)
  | .jobNotFound => ({ stats with stale := stats.stale + 1 }, .ok)
  | .duplicateShare => ({ stats with duplicate := stats.duplicate + 1 }, .ok)
  | .lowDifficultyShare => ({ stats with lowDiff := stats.lowDiff + 1 }, .ok)
  | .unauthorized => (stats, .failed error.text)
  | .notSubscribed => (stats, .failed error.text)

def handleError (id : UInt32) (error : StratumError) (handler : StratumHandler) :
    StratumHandler × Handled :=
  match handler.sharesStats.sharesPending.lookup id with
  -- the unwrap of the job id
  | none => (handler, .panicked)
  | some _ =>
      let handler := removeShare id handler
      let (stats, handled) := rejectShare error handler.sharesStats
      ({ handler with sharesStats := stats }, handled)

/-! Publishing. -/

def Session.onHandler (work : StratumHandler → StratumHandler × Handled) (session : Session) :
    Session × Handled :=
  let (handler, handled) := work session.handler
  ({ session with handler }, handled)

/-- A call of `process_block`. -/
def Session.publish (block : Option BlockSeed) (session : Session) : Session × Handled :=
  let (miner, result) := processBlock block session.miner
  ({ session with miner }, Handled.ofResult result)

def share (handler : StratumHandler) (id : String) (headerHash : Limbs)
    (timestamp daaScore : UInt64) : BlockSeed :=
  .partialBlock {
    id, headerHash, timestamp, daaScore
    nonce := 0
    target := handler.targetPool
    nonceMask := handler.nonceMask
    nonceFixed := handler.nonceFixed
    hash := none }

/-! Inference. -/

section Inference
variable (crates : PoolCrates) (slm : Slm)

def decodeModelId (modelIdHex : String) : Option (Bytes 32) :=
  match crates.hexDecode modelIdHex with
  | none => none
  | some bytes => if sized : bytes.length = 32 then some ⟨bytes, sized⟩ else none

def challengeResponseLine (modelIdHex nonceHex result : String) : StratumLine where
  id := none
  payload := .stratumCommand (.miningChallengeResponse modelIdHex nonceHex result)
  jsonrpc := none
  error := none

/-- The pause and the task that runs under it; the flag is already taken. -/
def Session.spawn (task : InferenceTask) (session : Session) : Session :=
  let session := (session.publish none).1
  { session with tasks := session.tasks ++ [task] }

def Session.withFlag (inFlight : Bool) (session : Session) : Session :=
  { session with handler := { session.handler with challengeInFlight := inFlight } }

def handleChallenge (modelIdHex nonceHex : String) (session : Session) : Session :=
  if session.handler.challengeInFlight then session
  else
    let taken := session.withFlag true
    match decodeModelId crates modelIdHex with
    | none => taken.withFlag false
    | some modelId =>
        if slm.isModelReady modelId then
          taken.spawn (.challenge modelId modelIdHex nonceHex
            ("Keryx inference challenge " ++ nonceHex ++ ": briefly describe what you are."))
        else
          let released := taken.withFlag false
          { released with sent := released.sent ++ [challengeResponseLine modelIdHex nonceHex ""] }

def Session.withTask (task : Option CurrentTask) (session : Session) : Session :=
  { session with handler := { session.handler with currentTask := task } }

def alreadyHandled (stableId : String) (cache : InferenceCache) : Bool :=
  (cache.results.lookup stableId).isSome || decide (stableId ∈ cache.inProgress)

def markInProgress (stableId : String) (session : Session) : Session :=
  { session with handler := { session.handler with
      inferenceCache := { session.handler.inferenceCache with
        inProgress := insert stableId session.handler.inferenceCache.inProgress } } }

/-- The second component tells whether an inference was started. -/
def handleAiTask (jobId taskJson : String) (session : Session) : Session × Bool :=
  match crates.parseTask taskJson with
  | none => (session.withTask none, false)
  | some task =>
      let session := session.withTask (some ⟨jobId, task⟩)
      if task.stableId = "" then (session, false)
      else if alreadyHandled task.stableId session.handler.inferenceCache then (session, false)
      else
        match decodeModelId crates task.modelIdHex with
        | none => (session, false)
        | some modelId =>
            if !slm.isModelReady modelId then (session, false)
            else if session.handler.challengeInFlight then (session, false)
            else
              (markInProgress task.stableId
                ((session.withFlag true).spawn (.aiTask modelId task false)), true)

/-! Messages. -/

def Session.countTemplate (session : Session) : Session :=
  { session with handler := { session.handler with
      blockTemplateCtr := (session.handler.blockTemplateCtr + 1) % 10000 } }

/-- The start of every `mining.notify`: without a model mining is paused. -/
def gated (work : Session → Session × Handled) (session : Session) : Session × Handled :=
  if slm.loadedModelIds = [] then session.countTemplate.publish none
  else work session.countTemplate

def notifyWithTask (id : String) (headerHash : Limbs) (timestamp daaScore : UInt64)
    (taskJson : String) : Session → Session × Handled :=
  gated slm fun session =>
    let (session, started) := handleAiTask crates slm id taskJson session
    if started then (session, .ok)
    else session.publish (some (share session.handler id headerHash timestamp daaScore))

def notifyShortV2 (id : String) (headerHash : Limbs) (timestamp daaScore : UInt64) :
    Session → Session × Handled :=
  gated slm fun session =>
    (session.withTask none).publish
      (some (share session.handler id headerHash timestamp daaScore))

def notifyShort (id : String) (headerHash : Limbs) (timestamp : UInt64) :
    Session → Session × Handled :=
  notifyShortV2 slm id headerHash timestamp powSaltV4ActivationDaa

def handleCommand (line : StratumLine) (command : StratumCommand) (session : Session) :
    Session × Handled :=
  match command with
  | .setExtranonce (.plain extranonce nonceSize) =>
      session.onHandler (setExtranonce extranonce nonceSize)
  | .miningSetDifficulty difficulty => session.onHandler (setDifficulty difficulty)
  | .miningNotify (.withTask id headerHash timestamp daaScore taskJson) =>
      notifyWithTask crates slm id headerHash timestamp daaScore taskJson session
  | .miningNotify (.shortV2 id headerHash timestamp daaScore) =>
      notifyShortV2 slm id headerHash timestamp daaScore session
  | .miningNotify (.short id headerHash timestamp) =>
      notifyShort slm id headerHash timestamp session
  | .miningChallenge modelIdHex nonceHex =>
      (handleChallenge crates slm modelIdHex nonceHex session, .ok)
  | _ => (session, .failed ("Unexpected stratum message: " ++ crates.debug line))

def handleResult (line : StratumLine) (id : UInt32) (result : StratumResult) (session : Session) :
    Session × Handled :=
  match result with
  | .plain (some true) => ({ session with handler := acceptShare id session.handler }, .ok)
  | .eth true _ => ({ session with handler := acceptShare id session.handler }, .ok)
  | .subscribe _ extranonce nonceSize => session.onHandler (setExtranonce extranonce nonceSize)
  | _ => (session, .failed ("Inconsistent stratum message: " ++ crates.debug line))

def handleMessage (line : StratumLine) (session : Session) : Session × Handled :=
  match line.error, line.payload, line.id with
  | none, .stratumResult result, some id => handleResult crates line id result session
  | none, .stratumCommand command, _ => handleCommand crates slm line command session
  | none, .stratumResult _, none =>
      (session, .failed ("Inconsistent stratum message: " ++ crates.debug line))
  | some error, .stratumResult _, some id => session.onHandler (handleError id error)
  | some _, _, _ => (session, .failed ("Unhandled stratum response: " ++ crates.debug line))

end Inference

/-! Tasks. -/

inductive TaskStep where
  /-- The end of `run_inference_and_upload`. -/
  | uploaded (place : Nat) (cid : Option String)
  /-- The flag is cleared; `text` is the answer to a challenge. -/
  | ended (place : Nat) (text : Option String)

def keepAnswer (stableId : String) (cid : Option String) (cache : InferenceCache) :
    InferenceCache where
  results := match cid with
    | none => cache.results
    | some cid => cache.results.insert stableId cid
  inProgress := cache.inProgress.erase stableId

def taskStep (session : Session) : TaskStep → Option Session
  | .uploaded place cid =>
      match session.tasks[place]? with
      | some (.aiTask modelId task false) => some { session with
          handler := { session.handler with
            inferenceCache := keepAnswer task.stableId cid session.handler.inferenceCache }
          tasks := session.tasks.set place (.aiTask modelId task true) }
      | _ => none
  | .ended place text =>
      match session.tasks[place]? with
      | some (.challenge _ modelIdHex nonceHex _) => some { session.withFlag false with
          tasks := session.tasks.eraseIdx place
          sent := session.sent ++ [challengeResponseLine modelIdHex nonceHex (text.getD "")] }
      | some (.aiTask _ _ true) => some { session.withFlag false with
          tasks := session.tasks.eraseIdx place }
      | _ => none

/-! What the messages that start no inference leave. -/

structure SameInference (before after : StratumHandler) : Prop where
  flag : after.challengeInFlight = before.challengeInFlight
  cache : after.inferenceCache = before.inferenceCache

theorem set_extranonce_same (extranonce : String) (nonceSize : UInt32)
    (handler : StratumHandler) :
    SameInference handler (setExtranonce extranonce nonceSize handler).1 := by
  unfold setExtranonce
  split <;> exact ⟨rfl, rfl⟩

theorem set_difficulty_same (difficulty : Difficulty) (handler : StratumHandler) :
    SameInference handler (setDifficulty difficulty handler).1 := by
  unfold setDifficulty
  dsimp only
  split
  · split
    · exact ⟨rfl, rfl⟩
    · split <;> exact ⟨rfl, rfl⟩
  · exact ⟨rfl, rfl⟩

theorem accept_share_same (id : UInt32) (handler : StratumHandler) :
    SameInference handler (acceptShare id handler) := by
  unfold acceptShare
  split <;> exact ⟨rfl, rfl⟩

theorem handle_error_same (id : UInt32) (error : StratumError) (handler : StratumHandler) :
    SameInference handler (handleError id error handler).1 := by
  unfold handleError
  split <;> exact ⟨rfl, rfl⟩

end KeryxMiner.StratumClient
