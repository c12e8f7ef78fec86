import KeryxMiner.StratumClient
import KeryxMiner.TransitionRuns

/-!
The shares of the Stratum client over all its connections: the block task that
records and sends them, the replies that settle them, and reconnections. The
statistics outlive a connection, and each connection counts its ids from zero.
-/

namespace KeryxMiner.StratumShares

open AiPayloads MinerJobs StratumMessages StratumClient TransitionRuns

/-- Third-party code, and the tag of a nonce. -/
structure ShareCrates where
  pool : PoolCrates
  hexEncode : List UInt8 → String
  tagFixed : UInt64 → String

/-- The options of `client_main`; the fund is added when its percentage is not zero. -/
structure ClientOptions where
  minerAddress : String
  devfund : Option (String × UInt16)

inductive Phase where
  | listening
  /-- `listen` or `register` returned, and `main` reconnects. -/
  | closed
  /-- A panic of the main task ends the program. -/
  | crashed
  deriving DecidableEq

/-- The running client; `connection` counts the connections before this one. -/
structure Client where
  connection : Nat
  session : Session
  lastStratumId : UInt32
  miningDev : Option Bool
  blockTask : Bool
  phase : Phase

def Client.stats (client : Client) : ShareStats := client.session.handler.sharesStats

def Client.pending (client : Client) : AList fun _ : UInt32 => String :=
  client.stats.sharesPending

section Steps
variable (crates : ShareCrates) (options : ClientOptions)

/-! Connecting. -/

def keryxStratumDaaCapability : String := "keryx-stratum-v2"

def commandLine (id : Option UInt32) (command : StratumCommand) : StratumLine where
  id := id
  payload := .stratumCommand command
  jsonrpc := none
  error := none

/-- The address that is authorized, and whether it is that of the fund. -/
def payAddress (blockTemplateCtr : UInt16) : String × Bool :=
  match options.devfund with
  | some (address, percent) =>
      if blockTemplateCtr ≤ percent then (address, true) else (options.minerAddress, false)
  | none => (options.minerAddress, false)

def registerLines (slm : Slm) (blockTemplateCtr : UInt16) : List StratumLine :=
  [commandLine (some 0) (.subscribe (.options "keryx-miner/0.3.3" keryxStratumDaaCapability)),
    commandLine (some 1) (.authorize (payAddress options blockTemplateCtr).1 "x")] ++
  if slm.loadedModelIds = [] then []
  else [commandLine none (.miningDeclareCapabilities
    (slm.loadedModelIds.map fun id => crates.hexEncode id.items))]

/-- `connect` and `register`; the send channel takes `accepted` lines before it
closes. -/
def Client.opened (slm : Slm) (accepted workers connection : Nat) (blockTemplateCtr : UInt16)
    (stats : ShareStats) : Client :=
  let lines := registerLines crates options slm blockTemplateCtr
  let registered := decide (lines.length ≤ accepted)
  { connection
    session := {
      handler := StratumHandler.connect blockTemplateCtr stats
      miner := MinerManager.new workers
      tasks := []
      sent := lines.take accepted }
    lastStratumId := if accepted = 0 then 1 else 2
    miningDev := if accepted = 0 then none else some (payAddress options blockTemplateCtr).2
    blockTask := registered
    phase := if registered then .listening else .closed }

def Client.reconnect (slm : Slm) (accepted workers : Nat) (client : Client) : Client :=
  Client.opened crates options slm accepted workers (client.connection + 1)
    client.session.handler.blockTemplateCtr client.stats

/-! Submitting. -/

/-- `{:016x}`. -/
def nonceHex (nonce : UInt64) : String :=
  let digits := Nat.toDigits 16 nonce.toNat
  String.ofList (List.replicate (16 - digits.length) '0' ++ digits)

/-- The answer to the task of the job, once it is in the cache. -/
def cachedCid (handler : StratumHandler) (jobId : String) : Option String := do
  let current ← handler.currentTask
  if current.jobId = jobId ∧ current.task.stableId ≠ "" then
    handler.inferenceCache.results.lookup current.task.stableId
  else none

def submitLine (handler : StratumHandler) (msgId : UInt32) (share : PartialBlock) : StratumLine :=
  commandLine (some msgId) (.miningSubmit (match cachedCid handler share.id with
    | some cid => .withCid options.minerAddress share.id (nonceHex share.nonce)
        (crates.tagFixed share.nonce) cid
    | none => .withTag options.minerAddress share.id (nonceHex share.nonce)
        (crates.tagFixed share.nonce)))

def Client.record (msgId : UInt32) (jobId : String) (client : Client) : Client :=
  { client with session := { client.session with handler := { client.session.handler with
      sharesStats := { client.stats with
        sharesPending := client.pending.insert msgId jobId } } } }

/-- A round of the block task. The table may be locked by another thread, and the
task ends when the send channel is closed or the client is dropped. -/
def Client.submit (seed : BlockSeed) (contended delivered : Bool) (client : Client) : Client :=
  match seed with
  | .fullBlock _ => { client with blockTask := false }
  | .partialBlock share =>
      let msgId := client.lastStratumId
      let client := { client with lastStratumId := msgId + 1 }
      if contended then { client with blockTask := false }
      else
        let client := client.record msgId share.id
        if delivered then
          let line := submitLine crates options client.session.handler msgId share
          { client with session := { client.session with sent := client.session.sent ++ [line] } }
        else { client with blockTask := false }

/-! Messages. -/

/-- The id that a reply looks up in the table of pending shares. -/
def looksUp (line : StratumLine) : Option UInt32 :=
  match line.error, line.payload, line.id with
  | none, .stratumResult (.plain (some true)), some id => some id
  | none, .stratumResult (.eth true _), some id => some id
  | some _, .stratumResult _, some id => some id
  | _, _, _ => none

def afterMessage (handled : Handled) (phase : Phase) : Phase :=
  match handled with
  | .ok => phase
  | .failed _ => .closed
  | .panicked => .crashed

/-- `try_lock` finds the table locked when another thread holds it. -/
def Client.receive (slm : Slm) (line : StratumLine) (contended : Bool) (client : Client) : Client :=
  if contended && (looksUp line).isSome then { client with phase := .crashed }
  else
    let (session, handled) := handleMessage crates.pool slm line client.session
    { client with session, phase := afterMessage handled client.phase }

inductive Event where
  | connect (slm : Slm) (accepted workers : Nat)
  | submit (seed : BlockSeed) (contended delivered : Bool)
  | message (slm : Slm) (line : StratumLine) (contended : Bool)
  | task (step : TaskStep)
  /-- The stream ends, or the pay address has to change. -/
  | returned

def clientStep (client : Client) : Event → Option Client
  | .connect slm accepted workers =>
      if client.phase = .closed then some (client.reconnect crates options slm accepted workers)
      else none
  | .submit seed contended delivered =>
      if client.blockTask ∧ client.phase ≠ .crashed then
        some (client.submit crates options seed contended delivered)
      else none
  | .message slm line contended =>
      if client.phase = .listening then some (client.receive crates slm line contended) else none
  | .task step =>
      if client.phase = .crashed then none
      else (taskStep client.session step).map fun session => { client with session }
  | .returned =>
      if client.phase = .listening then some { client with phase := .closed } else none

end Steps

/-! What a message does to the table. -/

def IsResponse (line : StratumLine) : Prop := ∃ result, line.payload = .stratumResult result

section Replies
variable (crates : PoolCrates) (slm : Slm)

theorem handle_message_accepts {line : StratumLine} {id : UInt32} (noError : line.error = none)
    (looks : looksUp line = some id) (session : Session) :
    handleMessage crates slm line session =
      ({ session with handler := acceptShare id session.handler }, .ok) := by
  unfold looksUp at looks
  split at looks
  · rename_i error payload lineId
    obtain rfl := Option.some.inj looks
    simp only [handleMessage, handleResult, error, payload, lineId]
  · rename_i error payload lineId
    obtain rfl := Option.some.inj looks
    simp only [handleMessage, handleResult, error, payload, lineId]
  · rename_i error _ _
    rw [noError] at error
    contradiction
  · contradiction

theorem handle_message_rejects {line : StratumLine} {id : UInt32} {error : StratumError}
    (failed : line.error = some error) (looks : looksUp line = some id) (session : Session) :
    handleMessage crates slm line session = session.onHandler (handleError id error) := by
  unfold looksUp at looks
  split at looks
  · rename_i noError _ _
    rw [failed] at noError
    contradiction
  · rename_i noError _ _
    rw [failed] at noError
    contradiction
  · rename_i payload lineId
    obtain rfl := Option.some.inj looks
    simp only [handleMessage, failed, payload, lineId]
  · contradiction

theorem set_extranonce_stats (extranonce : String) (nonceSize : UInt32)
    (handler : StratumHandler) :
    (setExtranonce extranonce nonceSize handler).1.sharesStats = handler.sharesStats := by
  unfold setExtranonce
  split <;> rfl

theorem set_extranonce_answers (extranonce : String) (nonceSize : UInt32)
    (handler : StratumHandler) : (setExtranonce extranonce nonceSize handler).2 ≠ .panicked := by
  unfold setExtranonce
  split <;> simp

theorem set_difficulty_stats (difficulty : Difficulty) (handler : StratumHandler) :
    (setDifficulty difficulty handler).1.sharesStats = handler.sharesStats := by
  unfold setDifficulty
  dsimp only
  split
  · split
    · rfl
    · split <;> rfl
  · rfl

theorem handle_challenge_stats (modelIdHex nonceHex : String) (session : Session) :
    (handleChallenge crates slm modelIdHex nonceHex session).handler.sharesStats =
      session.handler.sharesStats := by
  unfold handleChallenge
  split
  · rfl
  · dsimp only
    split
    · rfl
    · split <;> rfl

theorem handle_ai_task_stats (jobId taskJson : String) (session : Session) :
    (handleAiTask crates slm jobId taskJson session).1.handler.sharesStats =
      session.handler.sharesStats := by
  unfold handleAiTask
  split
  · rfl
  · dsimp only
    split
    · rfl
    · split
      · rfl
      · split
        · rfl
        · split
          · rfl
          · split <;> rfl

theorem gated_stats (work : Session → Session × Handled) (session : Session)
    (works : ∀ counted, (work counted).1.handler.sharesStats = counted.handler.sharesStats) :
    (gated slm work session).1.handler.sharesStats = session.handler.sharesStats := by
  unfold gated
  split
  · rfl
  · exact works session.countTemplate

theorem handle_command_stats (line : StratumLine) (command : StratumCommand) (session : Session) :
    (handleCommand crates slm line command session).1.handler.sharesStats =
      session.handler.sharesStats := by
  unfold handleCommand
  split
  · exact set_extranonce_stats _ _ _
  · exact set_difficulty_stats _ _
  · rename_i id headerHash timestamp daaScore taskJson
    apply gated_stats
    intro counted
    rw [← handle_ai_task_stats crates slm id taskJson counted]
    dsimp only
    split <;> rfl
  · exact gated_stats slm _ session fun _ => rfl
  · exact gated_stats slm _ session fun _ => rfl
  · exact handle_challenge_stats crates slm _ _ session
  · rfl

/-- A line that looks nothing up leaves the shares alone. -/
theorem handle_message_stats {line : StratumLine} (silent : looksUp line = none)
    (session : Session) :
    (handleMessage crates slm line session).1.handler.sharesStats =
      session.handler.sharesStats := by
  unfold handleMessage
  split
  · rename_i error payload id
    unfold handleResult
    split
    · simp [looksUp, error, payload, id] at silent
    · simp [looksUp, error, payload, id] at silent
    · exact set_extranonce_stats _ _ _
    · rfl
  · exact handle_command_stats crates slm line _ session
  · rfl
  · rename_i error payload id
    simp [looksUp, error, payload, id] at silent
  · rfl

theorem silent_response_answers {line : StratumLine} (silent : looksUp line = none)
    (response : IsResponse line) (session : Session) :
    (handleMessage crates slm line session).2 ≠ .panicked := by
  obtain ⟨result, isResult⟩ := response
  unfold handleMessage
  split
  · rename_i error payload id
    unfold handleResult
    split
    · simp
    · simp
    · exact set_extranonce_answers _ _ _
    · simp
  · rename_i payload
    rw [isResult] at payload
    contradiction
  · simp
  · rename_i error payload id
    simp [looksUp, error, payload, id] at silent
  · simp

theorem handle_error_answers (id : UInt32) (error : StratumError) (handler : StratumHandler) :
    (handleError id error handler).2 ≠ .panicked ↔ id ∈ handler.sharesStats.sharesPending := by
  unfold handleError
  rw [← AList.lookup_isSome]
  cases handler.sharesStats.sharesPending.lookup id with
  | none => simp
  | some jobId =>
      unfold rejectShare
      cases error.code <;> simp

end Replies

theorem looks_up_response {line : StratumLine} {id : UInt32} (looks : looksUp line = some id) :
    IsResponse line := by
  unfold looksUp at looks
  split at looks
  · exact ⟨_, ‹_›⟩
  · exact ⟨_, ‹_›⟩
  · exact ⟨_, ‹_›⟩
  · contradiction

/-! A reply that crashes the client. -/

/-- A response is answered with `Ok` or `Err`. -/
def ResponseAnswered (event : Event) (after : Client) : Prop :=
  match event with
  | .message _ line _ => IsResponse line → after.phase ≠ .crashed
  | _ => True

/-- A reply that looks up a share finds the table unlocked, and an error reply
names a pending share. -/
def TableAnswers (before : Client) : Event → Prop
  | .message _ line contended => ∀ id, looksUp line = some id →
      contended = false ∧ (line.error ≠ none → id ∈ before.pending)
  | _ => True

theorem after_message_crashed (handled : Handled) :
    afterMessage handled .listening ≠ .crashed ↔ handled ≠ .panicked := by
  cases handled <;> simp [afterMessage]

theorem receive_answered_iff (crates : ShareCrates) (slm : Slm) (line : StratumLine)
    (contended : Bool) (before : Client) (listening : before.phase = .listening) :
    TableAnswers before (.message slm line contended) ↔
      ResponseAnswered (.message slm line contended)
        (before.receive crates slm line contended) := by
  cases looks : looksUp line with
  | none =>
      have answered := silent_response_answers crates.pool slm looks
      simpa [TableAnswers, ResponseAnswered, Client.receive, looks, listening,
        after_message_crashed] using fun response => answered response before.session
  | some id =>
      have response := looks_up_response looks
      cases contended with
      | true => simp [TableAnswers, ResponseAnswered, Client.receive, looks, response]
      | false =>
          cases failed : line.error with
          | none =>
              have accepts := handle_message_accepts crates.pool slm failed looks before.session
              simp [TableAnswers, ResponseAnswered, Client.receive, accepts, failed, afterMessage,
                listening]
          | some error =>
              have rejects := handle_message_rejects crates.pool slm failed looks before.session
              have answers := handle_error_answers id error before.session.handler
              simp [TableAnswers, ResponseAnswered, Client.receive, rejects, failed, looks,
                Session.onHandler, listening, after_message_crashed, response, answers,
                Client.pending, Client.stats]

/-- Every reply of a run is answered exactly when every error reply names a pending
share and no reply that names one finds the table locked. -/
theorem replies_answered_iff (crates : ShareCrates) (options : ClientOptions) (start : Client)
    (events : List Event) :
    EveryStep (clientStep crates options) (fun before event _ => TableAnswers before event)
        start events ↔
      EveryStep (clientStep crates options) (fun _ event after => ResponseAnswered event after)
        start events := by
  apply every_step_iff (fun _ => True)
  · exact fun _ _ _ _ _ _ => trivial
  · intro before event after _ stepped
    cases event with
    | message slm line contended =>
        unfold clientStep at stepped
        dsimp only at stepped
        split at stepped
        · rename_i listening
          obtain rfl := Option.some.inj stepped
          exact receive_answered_iff crates slm line contended before listening
        · contradiction
    | connect => exact Iff.rfl
    | submit => exact Iff.rfl
    | task => exact Iff.rfl
    | returned => exact Iff.rfl
  · trivial

def poolCrates : ShareCrates where
  pool := {
    hexDecode := fun _ => none
    parseTask := fun _ => none
    debug := fun _ => "" }
  hexEncode _ := ""
  tagFixed _ := ""

def poolOptions : ClientOptions := ⟨"keryx:qz", none⟩

def noModels : Slm where
  loadedModelIds := []
  isModelReady _ := false

def freshStats : ShareStats := ⟨0, 0, 0, 0, ∅⟩

def firstClient : Client := Client.opened poolCrates poolOptions noModels 2 1 0 0 freshStats

def errorReply (id : UInt32) (code : ErrorCode) : StratumLine where
  id := some id
  payload := .stratumResult (.plain none)
  jsonrpc := none
  error := some ⟨code, ""⟩

/-- The pool refuses the `mining.authorize`, whose id is 1. -/
theorem refused_authorize_crashes :
    ¬ EveryStep (clientStep poolCrates poolOptions)
      (fun _ event after => ResponseAnswered event after) firstClient
      [.message noModels (errorReply 1 .unauthorized) false] := by
  intro answered
  obtain ⟨safe, -⟩ := answered _ rfl
  exact safe ⟨_, rfl⟩ rfl

end KeryxMiner.StratumShares
