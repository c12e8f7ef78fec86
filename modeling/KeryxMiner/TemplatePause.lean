import KeryxMiner.GrpcClient
import KeryxMiner.TransitionRuns
import Mathlib.Tactic.Common

/-!
The pause of mining under the inferences of a gRPC connection.
-/

namespace KeryxMiner.TemplatePause

open AiPayloads Escrow GrpcClient MinerJobs RpcMessages TransitionRuns

/-! What the parts of a handler do to the inferences in flight. -/

structure SameFlight (before after : KeryxdHandler) : Prop where
  inference : after.inferenceRx = before.inferenceRx
  challenge : after.challengeInferenceRx = before.challengeInferenceRx

theorem SameFlight.trans {first second third : KeryxdHandler} (left : SameFlight first second)
    (right : SameFlight second third) : SameFlight first third where
  inference := right.inference.trans left.inference
  challenge := right.challenge.trans left.challenge

theorem SameFlight.occupied {before after : KeryxdHandler} (same : SameFlight before after) :
    Occupied after ↔ Occupied before := by
  unfold Occupied
  rw [same.inference, same.challenge]

section Flights
variable (crates : NodeCrates)

/-- A scan writes the queue, the seen requests and their ids. -/
def Scanned (before after : KeryxdHandler) : Prop :=
  ∃ queue seen txids, after = { before with
    aiRequestQueue := queue, aiSeenPrefixes := seen, aiRequestTxids := txids }

theorem Scanned.refl (handler : KeryxdHandler) : Scanned handler handler := ⟨_, _, _, rfl⟩

theorem Scanned.trans {first second third : KeryxdHandler} (left : Scanned first second)
    (right : Scanned second third) : Scanned first third := by
  obtain ⟨_, _, _, rfl⟩ := left
  obtain ⟨_, _, _, rfl⟩ := right
  exact ⟨_, _, _, rfl⟩

theorem Scanned.flight {before after : KeryxdHandler} (scanned : Scanned before after) :
    SameFlight before after := by
  obtain ⟨_, _, _, rfl⟩ := scanned
  exact ⟨rfl, rfl⟩

theorem enqueue_scanned (stableId : String) (found : Extracted) (handler : KeryxdHandler) :
    Scanned handler (enqueue stableId found handler) := by
  unfold enqueue
  split
  · exact .refl handler
  · exact ⟨_, _, _, rfl⟩

theorem remember_scanned (stableId : String) (tx : RpcTransaction) (reward : UInt64)
    (handler : KeryxdHandler) :
    Scanned handler (rememberTxid crates stableId tx reward handler) := by
  unfold rememberTxid
  split
  · split
    · exact .refl handler
    · exact ⟨_, _, _, rfl⟩
  · exact .refl handler

theorem scan_tx_scanned (readyIds : List (ByteCodec.Bytes 32)) (handler : KeryxdHandler)
    (tx : RpcTransaction) : Scanned handler (scanTx crates readyIds handler tx) := by
  unfold scanTx
  split
  · exact .refl handler
  · split
    · exact (enqueue_scanned _ _ handler).trans (remember_scanned crates _ _ _ _)
    · exact .refl handler

theorem scan_scanned (slm : Slm) (txs : List RpcTransaction) (handler : KeryxdHandler) :
    Scanned handler (scanTxsForAiRequests crates slm txs handler) := by
  unfold scanTxsForAiRequests
  split
  · exact .refl handler
  · apply List.foldlRecOn (motive := Scanned handler) _ _ (.refl handler)
    intro other reached tx _
    exact reached.trans (scan_tx_scanned crates _ other tx)

theorem scan_template_scanned (surroundings : Surroundings) (template : TemplateResponse)
    (handler : KeryxdHandler) : Scanned handler (scanTemplate crates surroundings template handler) := by
  unfold scanTemplate
  split
  · exact .refl handler
  · exact scan_scanned crates _ _ handler

/-! The fields that the other parts write. -/

theorem try_start_frame (slm : Slm) (handler : KeryxdHandler) :
    ∃ queue inference, tryStartInference slm handler =
      { handler with aiRequestQueue := queue, inferenceRx := inference } := by
  unfold tryStartInference
  split
  · exact ⟨_, _, rfl⟩
  · split
    · exact ⟨_, _, rfl⟩
    · dsimp only
      split
      · exact ⟨_, _, rfl⟩
      · exact ⟨_, _, rfl⟩

theorem harvest_frame (answer : Received) (handler : KeryxdHandler) :
    ∃ challenge, (harvest answer handler).1 = { handler with challengeInferenceRx := challenge } := by
  unfold harvest
  split
  · exact ⟨_, rfl⟩
  · split
    · exact ⟨_, rfl⟩
    · exact ⟨_, rfl⟩
    · exact ⟨_, rfl⟩
    · exact ⟨_, rfl⟩

theorem start_challenge_frame (surroundings : Surroundings) (challenge : String)
    (handler : KeryxdHandler) :
    ∃ started, startChallenge crates surroundings challenge handler =
      { handler with challengeInferenceRx := started } := by
  unfold startChallenge
  split
  · exact ⟨_, rfl⟩
  · exact ⟨_, rfl⟩

theorem track_daa_frame (block : Option RpcBlock) (handler : KeryxdHandler) :
    ∃ daa, trackDaa block handler = { handler with lastKnownDaa := daa } := by
  unfold trackDaa
  split
  · exact ⟨_, rfl⟩
  · split
    · exact ⟨_, rfl⟩
    · exact ⟨_, rfl⟩

theorem track_answered_frame (clock : Clock) (stableId : String) (handler : KeryxdHandler) :
    ∃ txids watcher, trackAnswered crates clock stableId handler =
      { handler with aiRequestTxids := txids, escrowWatcher := watcher } := by
  unfold trackAnswered
  split
  · exact ⟨_, _, rfl⟩
  · exact ⟨_, _, rfl⟩

/-- The next request in the queue is started. -/
def Starts (slm : Slm) (handler : KeryxdHandler) : Prop :=
  handler.inferenceRx = none ∧
    ∃ request rest, handler.aiRequestQueue = request :: rest ∧
      slm.isModelReady request.modelId = true

theorem try_start_occupied {slm : Slm} {handler : KeryxdHandler} (starts : Starts slm handler) :
    Occupied (tryStartInference slm handler) := by
  obtain ⟨free, request, rest, queue, ready⟩ := starts
  unfold tryStartInference
  rw [free, queue]
  dsimp only
  rw [if_neg (by decide), if_pos ready]
  exact Or.inl rfl

theorem try_start_flight {slm : Slm} {handler : KeryxdHandler} (idle : ¬ Starts slm handler) :
    SameFlight handler (tryStartInference slm handler) := by
  unfold tryStartInference
  split
  · exact ⟨rfl, rfl⟩
  · rename_i free
    split
    · exact ⟨rfl, rfl⟩
    · rename_i request rest queue
      dsimp only
      split
      · rename_i ready
        exact absurd ⟨Option.not_isSome_iff_eq_none.mp free, request, rest, queue, ready⟩ idle
      · exact ⟨rfl, rfl⟩

theorem harvest_less (answer : Received) (handler : KeryxdHandler)
    (occupied : Occupied (harvest answer handler).1) : Occupied handler := by
  unfold harvest at occupied
  split at occupied
  · exact occupied
  · rename_i waiting
    exact Or.inr (by rw [waiting]; rfl)

end Flights

/-! What a call does to the manager. -/

/-- No inference is started, and nothing is published. -/
structure Released (before after : NodeSession) : Prop where
  less : Occupied after.handler → Occupied before.handler
  miner : after.miner = before.miner
  calls : after.calls = before.calls

theorem Released.refl (session : NodeSession) : Released session session := ⟨id, rfl, rfl⟩

theorem Released.trans {first second third : NodeSession} (left : Released first second)
    (right : Released second third) : Released first third where
  less := left.less ∘ right.less
  miner := right.miner.trans left.miner
  calls := right.calls.trans left.calls

/-- What holds across both parts, and composes, holds across the whole. -/
theorem and_then_related (related : NodeSession → NodeSession → Prop)
    (compose : ∀ {one two three}, related one two → related two three → related one three)
    (first second : Action) {session : NodeSession} (left : related session (first session).1)
    (right : ∀ other, related other (second other).1) :
    related session (first.andThen second session).1 := by
  unfold Action.andThen
  split
  · rename_i after _ failed
    rw [failed] at left
    exact left
  · rename_i after passed
    rw [passed] at left
    exact compose left (right after)

theorem info_related (surroundings : Surroundings) (related : NodeSession → NodeSession → Prop)
    (compose : ∀ {one two three}, related one two → related two three → related one three)
    (templates : ∀ session,
      related session (clientSend surroundings .notifyNewBlockTemplate session).1)
    (blocks : ∀ session, related session (clientSend surroundings .notifyBlockAdded session).1)
    (asks : ∀ session, related session (clientGetBlockTemplate surroundings session).1)
    (session : NodeSession) : related session (handleInfo surroundings session).1 := by
  refine and_then_related related compose (clientSend surroundings .notifyNewBlockTemplate) _
    (templates session) fun registered => ?_
  exact and_then_related related compose (clientSend surroundings .notifyBlockAdded)
    (clientGetBlockTemplate surroundings) (blocks registered) asks

section Calls
variable (crates : NodeCrates) (surroundings : Surroundings)

theorem client_send_session (request : Request) (session : NodeSession) :
    (clientSend surroundings request session).1.handler = session.handler ∧
      Released session (clientSend surroundings request session).1 := by
  unfold clientSend
  split
  · exact ⟨rfl, id, rfl, rfl⟩
  · exact ⟨rfl, id, rfl, rfl⟩

theorem get_template_released (session : NodeSession) :
    Released session (clientGetBlockTemplate surroundings session).1 := by
  have harvested : Released session { session with
      handler := (harvest surroundings.challenge (countTemplate session.handler)).1 } :=
    ⟨harvest_less surroundings.challenge (countTemplate session.handler), rfl, rfl⟩
  exact harvested.trans (client_send_session surroundings _ _).2

theorem submit_response_kept (raw : List UInt8) (cid : ByteCodec.Bytes 34) (text : String)
    (session : NodeSession) :
    (submitResponse crates surroundings raw cid text session).miner = session.miner ∧
      (submitResponse crates surroundings raw cid text session).calls = session.calls := by
  obtain ⟨_, sent⟩ := client_send_session surroundings
    (.submitTransaction (responseTx crates session.handler raw cid text)) session
  exact ⟨sent.miner, sent.calls⟩

/-- A poll that finishes an inference finds one in flight. -/
theorem poll_released (session : NodeSession) :
    Released session (pollInference crates surroundings session).1 ∧
      ((pollInference crates surroundings session).2 = true →
        session.handler.inferenceRx.isSome = true) := by
  unfold pollInference
  split
  · exact ⟨.refl session, fun finished => by contradiction⟩
  · rename_i raw waiting
    have busy : session.handler.inferenceRx.isSome = true := by
      rw [waiting]
      rfl
    dsimp only
    split
    · exact ⟨.refl session, fun finished => by contradiction⟩
    · exact ⟨.refl session, fun finished => by contradiction⟩
    · exact ⟨⟨fun _ => Or.inl busy, rfl, rfl⟩, fun _ => busy⟩
    · split
      · exact ⟨⟨fun _ => Or.inl busy, rfl, rfl⟩, fun _ => busy⟩
      · obtain ⟨miner, calls⟩ := submit_response_kept crates surroundings raw _ _
          (session.onHandler fun handler => { handler with inferenceRx := none })
        exact ⟨⟨fun _ => Or.inl busy, miner, calls⟩, fun _ => busy⟩

/-- What a message or a tick does; `starts` tells that an inference is started
while nothing is published. -/
inductive Effect (starts : Prop) (before after : NodeSession) : Prop where
  | released (released : Released before after)
  | started (due : starts) (miner : after.miner = before.miner)
      (calls : after.calls = before.calls)
  | paused (occupied : Bool) (miner : after.miner = (processBlock none before.miner).1)
      (calls : after.calls = before.calls ++ [⟨none, occupied⟩])
  | fed (free : ¬ Occupied after.handler) (block : BlockSeed)
      (miner : after.miner = (processBlock (some block) before.miner).1)
      (calls : after.calls = before.calls ++ [⟨some block, false⟩])

theorem publish_pause_effect {starts : Prop} {before between : NodeSession}
    (miner : between.miner = before.miner)
    (calls : between.calls = before.calls) : Effect starts before (publish none between).1 := by
  apply Effect.paused (decide (Occupied between.handler))
  · rw [← miner]
    rfl
  · rw [← calls]
    rfl

theorem publish_template_effect {starts : Prop} {before between : NodeSession}
    (block : BlockSeed) (miner : between.miner = before.miner)
    (calls : between.calls = before.calls) (free : ¬ Occupied between.handler) :
    Effect starts before (publish (some block) between).1 := by
  refine Effect.fed ?_ block ?_ ?_
  · exact free
  · rw [← miner]
    rfl
  · rw [← calls, ← decide_eq_false free]
    rfl

theorem mine_template_effect {starts : Prop} {before between : NodeSession}
    (template : TemplateResponse) (miner : between.miner = before.miner) (calls : between.calls = before.calls)
    (free : ¬ Occupied between.handler) :
    Effect starts before (mineTemplate crates template between).1 := by
  unfold mineTemplate
  split
  · exact publish_template_effect _ miner calls free
  · split
    · exact publish_template_effect _ miner calls free
    · exact publish_pause_effect miner calls
  · exact publish_pause_effect miner calls
  · exact .released ⟨fun occupied => absurd occupied free, miner, calls⟩
  · exact .released ⟨fun occupied => absurd occupied free, miner, calls⟩

/-! Messages. -/

/-- The scan of the block leaves a request that can be started. -/
def BlockStarts (block : RpcBlock) (session : NodeSession) : Prop :=
  Starts surroundings.slm
    (scanTxsForAiRequests crates surroundings.slm block.transactions session.handler)

/-- The escrow part of a full block leaves the inferences and the manager alone. -/
theorem full_block_kept (block : RpcBlock) (session : NodeSession) :
    (handleFullBlock crates surroundings block session).1.miner = session.miner ∧
      (handleFullBlock crates surroundings block session).1.calls = session.calls ∧
      SameFlight (tryStartInference surroundings.slm
          (scanTxsForAiRequests crates surroundings.slm block.transactions session.handler))
        (handleFullBlock crates surroundings block session).1.handler := by
  unfold handleFullBlock
  dsimp only
  split
  · exact ⟨rfl, rfl, rfl, rfl⟩
  · split
    · exact ⟨rfl, rfl, rfl, rfl⟩
    · rename_i tx _
      obtain ⟨handler, sent⟩ := client_send_session surroundings (.submitTransaction tx) _
      exact ⟨sent.miner, sent.calls, handler ▸ ⟨rfl, rfl⟩⟩

theorem full_block_effect (block : RpcBlock) (session : NodeSession) :
    Effect (BlockStarts crates surroundings block session) session
      (handleFullBlock crates surroundings block session).1 := by
  obtain ⟨miner, calls, flight⟩ := full_block_kept crates surroundings block session
  by_cases starts : BlockStarts crates surroundings block session
  · exact .started starts miner calls
  · have scanned := scan_scanned crates surroundings.slm block.transactions session.handler
    have same := scanned.flight.trans ((try_start_flight starts).trans flight)
    exact .released ⟨same.occupied.mp, miner, calls⟩

theorem track_daa_inference (block : Option RpcBlock) (handler : KeryxdHandler) :
    (trackDaa block handler).inferenceRx = handler.inferenceRx := by
  obtain ⟨_, frame⟩ := track_daa_frame block handler
  rw [frame]

theorem start_challenge_inference (challenge : String) (handler : KeryxdHandler) :
    (startChallenge crates surroundings challenge handler).inferenceRx = handler.inferenceRx := by
  obtain ⟨_, frame⟩ := start_challenge_frame crates surroundings challenge handler
  rw [frame]

/-- A template response ends after a poll that finished an inference, pauses
mining, or feeds its template with none in flight. -/
theorem template_effect (starts : Prop) (template : TemplateResponse) (session : NodeSession) :
    Effect starts session (handleTemplate crates surroundings template session).1 := by
  unfold handleTemplate
  dsimp only
  obtain ⟨polled, finished_busy⟩ := poll_released crates surroundings
    (session.onHandler fun handler => startChallenge crates surroundings
      template.inferenceChallenge (trackDaa template.block handler))
  split
  · rename_i finished
    have busy := finished_busy finished
    dsimp only [NodeSession.onHandler] at busy
    rw [start_challenge_inference, track_daa_inference] at busy
    have requested := get_template_released surroundings
      (pollInference crates surroundings (session.onHandler fun handler =>
        startChallenge crates surroundings template.inferenceChallenge
          (trackDaa template.block handler))).1
    exact .released ⟨fun _ => Or.inl busy, requested.miner.trans polled.miner,
      requested.calls.trans polled.calls⟩
  · split
    · exact publish_pause_effect polled.miner polled.calls
    · split
      · exact publish_pause_effect polled.miner polled.calls
      · rename_i free
        exact mine_template_effect crates template polled.miner polled.calls free

theorem submit_response_released (error : Option String) (session : NodeSession) :
    Released session (handleSubmitResponse crates surroundings error session).1 := by
  unfold handleSubmitResponse
  split
  · exact .refl session
  · split
    · exact ⟨id, rfl, rfl⟩
    · exact .refl session

theorem info_released (session : NodeSession) :
    Released session (handleInfo surroundings session).1 :=
  info_related surroundings Released Released.trans
    (fun other => (client_send_session surroundings _ other).2)
    (fun other => (client_send_session surroundings _ other).2)
    (get_template_released surroundings) session

theorem tick_released (session : NodeSession) :
    Released session (handleTick crates surroundings session).1 := by
  obtain ⟨polled, _⟩ := poll_released crates surroundings session
  unfold handleTick
  dsimp only
  split
  · exact polled.trans (get_template_released surroundings _)
  · split
    · exact polled.trans (get_template_released surroundings _)
    · exact polled

theorem fetch_block_released (block : RpcBlock) (session : NodeSession) :
    Released session (fetchBlock surroundings block session).1 := by
  unfold fetchBlock
  dsimp only
  split
  · exact (client_send_session surroundings _ session).2
  · exact .refl session

/-- The block that a message scans outside a template. -/
def scannedBlock : Payload → Option RpcBlock
  | .blockAddedNotification (some block) => if block.transactions ≠ [] then some block else none
  | .getBlockResponse none (some block) => some block
  | _ => none

def StartsOutside (payload : Payload) (session : NodeSession) : Prop :=
  ∃ block, scannedBlock payload = some block ∧ BlockStarts crates surroundings block session

theorem Effect.weaken {weak strong : Prop} {before after : NodeSession}
    (effect : Effect weak before after) (entails : weak → strong) :
    Effect strong before after := by
  cases effect with
  | released released => exact .released released
  | started due miner calls => exact .started (entails due) miner calls
  | paused occupied miner calls => exact .paused occupied miner calls
  | fed free block miner calls => exact .fed free block miner calls

theorem message_effect (payload : Payload) (session : NodeSession) :
    Effect (StartsOutside crates surroundings payload session) session
      (handleMessage crates surroundings payload session).1 := by
  unfold handleMessage
  split
  · rename_i block
    unfold handleBlockAdded
    split
    · rename_i full
      exact (full_block_effect crates surroundings block session).weaken fun starts =>
        ⟨block, if_pos full, starts⟩
    · exact .released (fetch_block_released surroundings block session)
  · exact .released (.refl session)
  · exact .released (get_template_released surroundings session)
  · exact template_effect crates surroundings _ _ session
  · rename_i block
    exact (full_block_effect crates surroundings block session).weaken fun starts =>
      ⟨block, rfl, starts⟩
  · exact .released (.refl session)
  · exact .released (.refl session)
  · exact .released (submit_response_released crates surroundings _ session)
  · exact .released (info_released surroundings session)
  · exact .released (.refl session)
  · exact .released (.refl session)
  · exact .released (.refl session)
  · exact .released (.refl session)

/-- Nothing is published when a block starts an inference outside a template. -/
theorem outside_start_keeps_command (payload : Payload) (session : NodeSession)
    (starts : StartsOutside crates surroundings payload session) :
    Occupied (handleMessage crates surroundings payload session).1.handler ∧
      (handleMessage crates surroundings payload session).1.miner = session.miner := by
  obtain ⟨block, scanned, block_starts⟩ := starts
  have handled : handleMessage crates surroundings payload session =
      handleFullBlock crates surroundings block session := by
    unfold scannedBlock at scanned
    split at scanned
    · split at scanned
      · rename_i full
        obtain rfl := Option.some.inj scanned
        simp only [handleMessage, handleBlockAdded, if_pos full]
      · contradiction
    · obtain rfl := Option.some.inj scanned
      rfl
    · contradiction
  obtain ⟨miner, _, flight⟩ := full_block_kept crates surroundings block session
  rw [handled]
  exact ⟨flight.occupied.mpr (try_start_occupied block_starts), miner⟩

end Calls

/-! Runs. -/

inductive Event where
  | message (payload : Payload)
  | tick

/-- A connection listens until a message or a tick fails. -/
structure Connection where
  session : NodeSession
  listening : Bool

def Connection.opened (options : NodeOptions) (workers : Nat) : Connection where
  session := ⟨KeryxdHandler.connect options, MinerManager.new workers, [], []⟩
  listening := true

def act (crates : NodeCrates) (surroundings : Surroundings) : Event → Action
  | .message payload => handleMessage crates surroundings payload
  | .tick => handleTick crates surroundings

def connectionStep (crates : NodeCrates) (connection : Connection)
    (label : Event × Surroundings) : Option Connection :=
  if connection.listening then
    let (session, result) := act crates label.2 label.1 connection.session
    some ⟨session, result.isOk⟩
  else none

/-- With an inference in flight the last command published is the pause. -/
def InferencePaused (session : NodeSession) : Prop :=
  Occupied session.handler → session.miner.Paused

/-- No template is fed with an inference in flight. -/
def TemplatesFree (session : NodeSession) : Prop :=
  ∀ call ∈ session.calls, call.block.isSome = true → call.occupied = false

theorem templates_free_append {before after : NodeSession} {call : Call}
    (free : TemplatesFree before) (calls : after.calls = before.calls ++ [call])
    (last : call.block.isSome = true → call.occupied = false) : TemplatesFree after := by
  intro other member
  rw [calls] at member
  rcases List.mem_append.mp member with earlier | new
  · exact free other earlier
  · obtain rfl := List.mem_singleton.mp new
    exact last

theorem Effect.templates_free {starts : Prop} {before after : NodeSession}
    (effect : Effect starts before after) (free : TemplatesFree before) : TemplatesFree after := by
  cases effect with
  | released released =>
      intro call member
      rw [released.calls] at member
      exact free call member
  | started due miner calls =>
      intro call member
      rw [calls] at member
      exact free call member
  | paused occupied miner calls =>
      exact templates_free_append free calls fun fed => by contradiction
  | fed idle block miner calls => exact templates_free_append free calls fun _ => rfl

structure Sound (session : NodeSession) : Prop where
  announced : PauseAnnounced session.miner
  paused : InferencePaused session

theorem Effect.sound {starts : Prop} {before after : NodeSession}
    (effect : Effect starts before after) (sound : Sound before)
    (quiet : starts → before.miner.Paused) : Sound after := by
  cases effect with
  | released released =>
      constructor
      · exact released.miner ▸ sound.announced
      · exact fun occupied => released.miner ▸ sound.paused (released.less occupied)
  | started due miner calls =>
      constructor
      · exact miner ▸ sound.announced
      · exact fun _ => miner ▸ quiet due
  | paused occupied miner calls =>
      constructor
      · exact miner ▸ process_block_announced sound.announced none
      · exact fun _ => miner ▸ pause_paused sound.announced
  | fed free block miner calls =>
      constructor
      · exact miner ▸ process_block_announced sound.announced (some block)
      · exact fun occupied => absurd occupied free

/-- A block scanned outside a template starts an inference under the pause only. -/
def StartsPaused (crates : NodeCrates) (before : Connection) (label : Event × Surroundings) :
    Prop :=
  match label.1 with
  | .tick => True
  | .message payload =>
      StartsOutside crates label.2 payload before.session → before.session.miner.Paused

theorem connection_step_effect {crates : NodeCrates} {before after : Connection}
    {label : Event × Surroundings} (stepped : connectionStep crates before label = some after) :
    ∃ starts, Effect starts before.session after.session ∧
      (StartsPaused crates before label → starts → before.session.miner.Paused) := by
  obtain ⟨event, surroundings⟩ := label
  unfold connectionStep at stepped
  split at stepped
  · obtain rfl := Option.some.inj stepped
    cases event with
    | tick =>
        exact ⟨False, .released (tick_released crates surroundings before.session),
          fun _ => False.elim⟩
    | message payload =>
        exact ⟨_, message_effect crates surroundings payload before.session, id⟩
  · contradiction

theorem opened_sound (options : NodeOptions) (workers : Nat) :
    Sound (Connection.opened options workers).session where
  announced := new_announced workers
  paused := fun _ => rfl

theorem templates_run_free (crates : NodeCrates) (options : NodeOptions) (workers : Nat)
    (labels : List (Event × Surroundings)) :
    EveryStep (connectionStep crates) (fun _ _ after => TemplatesFree after.session)
      (Connection.opened options workers) labels := by
  have keeps (before : Connection) (label : Event × Surroundings) (after : Connection)
      (free : TemplatesFree before.session)
      (stepped : connectionStep crates before label = some after) (_ : True) :
      TemplatesFree after.session := by
    obtain ⟨_, effect, _⟩ := connection_step_effect stepped
    exact effect.templates_free free
  exact every_step_of_invariant (fun connection => TemplatesFree connection.session) keeps keeps
    labels _ (fun _ member => absurd member List.not_mem_nil) (every_step_trivial labels _)

/-- No template is ever fed with an inference in flight, and mining is paused
under every inference in a connection whose other blocks start them under the
pause only. -/
theorem grpc_inference_pauses (crates : NodeCrates) (options : NodeOptions) (workers : Nat)
    (labels : List (Event × Surroundings)) :
    EveryStep (connectionStep crates) (fun _ _ after => TemplatesFree after.session)
        (Connection.opened options workers) labels ∧
      (EveryStep (connectionStep crates) (fun before label _ => StartsPaused crates before label)
          (Connection.opened options workers) labels →
        EveryStep (connectionStep crates) (fun _ _ after => InferencePaused after.session)
          (Connection.opened options workers) labels) := by
  refine ⟨templates_run_free crates options workers labels, ?_⟩
  intro quiet
  have keeps (before : Connection) (label : Event × Surroundings) (after : Connection)
      (sound : Sound before.session)
      (stepped : connectionStep crates before label = some after)
      (starts_paused : StartsPaused crates before label) : Sound after.session := by
    obtain ⟨_, effect, under_pause⟩ := connection_step_effect stepped
    exact effect.sound sound (under_pause starts_paused)
  exact every_step_of_invariant (fun connection => Sound connection.session) keeps
    (fun before label after sound stepped starts_paused =>
      (keeps before label after sound stepped starts_paused).paused)
    labels _ (opened_sound options workers) quiet

/-! An AI request in an added block, and a challenge in a template. -/

def requestBytes : List UInt8 := List.replicate 52 0

def requestHex : String := String.ofList (List.replicate 104 '0')

def challengedModel : String := String.ofList (List.replicate 64 '0')

def hexText (bytes : List UInt8) : String :=
  String.ofList
    (bytes.flatMap fun b => [Nat.digitChar (b.toNat / 16), Nat.digitChar (b.toNat % 16)])

/-- The hash of the request. -/
def requestDigest : ByteCodec.Bytes 64 where
  items := [0x63, 0xdc, 0xf4, 0xa4, 0xd6, 0xb7, 0xe3, 0x98,
      0x11, 0xc2, 0xa7, 0xed, 0xe8, 0xaf, 0x2d, 0xd6,
      0x42, 0x87, 0x2c, 0x35, 0x03, 0xa9, 0xbc, 0x08,
      0x0a, 0xf9, 0x43, 0x26, 0xdf, 0x08, 0x2c, 0xc8,
      0x14, 0xf3, 0x55, 0x41, 0xd5, 0xbd, 0xe9, 0xa6,
      0x9c, 0x4c, 0xed, 0x56, 0xd8, 0x4d, 0x6a, 0x67,
      0xfc, 0x41, 0x1f, 0x8c, 0x64, 0x6c, 0x63, 0x05,
      0x2a, 0xfc, 0x16, 0x83, 0x5a, 0xe8, 0x2f, 0x00]
  sized := rfl

def nodeCrates : NodeCrates where
  escrow := {
    hexDecode := fun text =>
      if text = requestHex then .ok requestBytes
      else if text = challengedModel then .ok (List.replicate 32 0)
      else .error "Odd number of digits"
    hexEncode := hexText
    blake2b := fun _ _ => ByteCodec.zeroBytes 32
    fromDigestSlice := .ok
    signSchnorr := fun _ _ => ByteCodec.zeroBytes 64 }
  blake2b data := if data = requestBytes then requestDigest else ByteCodec.zeroBytes 64
  fromUtf8Lossy _ := ""
  fromSlice _ := none
  registry := []
  debugError text := text

def calm : Surroundings where
  slm := ⟨[ByteCodec.zeroBytes 32], fun _ => true⟩
  inference := .empty
  challenge := .empty
  upload := .error "IPFS upload failed"
  connected := true
  clock := ⟨0, 0⟩

def nodeOptions : NodeOptions where
  minerAddress := "keryx:miner"
  mineWhenNotSynced := false
  devfund := none
  blockTemplateCtr := 0
  escrowWatcher := none

def emptyBlock : RpcBlock := ⟨some { daaScore := 1 }, [], none⟩

def template (challenge : String) : Payload :=
  .getBlockTemplateResponse ⟨some emptyBlock, true, challenge, none⟩

def requestBlock : RpcBlock where
  header := some { daaScore := 1 }
  transactions := [{
    version := 0
    inputs := []
    outputs := []
    lockTime := 0
    subnetworkId := subnetworkIdAiRequestHex
    gas := 0
    payload := requestHex
    mass := 0
    verboseData := none }]
  verboseData := none

/-- A challenge pauses mining until a template comes after its answer. -/
def challengedLabels : List (Event × Surroundings) :=
  [(.message (template ""), calm), (.message (template (challengedModel ++ ":00ff")), calm),
    (.tick, { calm with challenge := .result (some "a miner") }), (.message (template ""), calm)]

theorem no_outside_start {payload : Payload} (none_scanned : scannedBlock payload = none)
    (connection : Connection) (surroundings : Surroundings) :
    StartsPaused nodeCrates connection (.message payload, surroundings) := by
  rintro ⟨block, scanned, _⟩
  rw [none_scanned] at scanned
  contradiction

theorem challenged_starts_paused (label : Event × Surroundings) (member : label ∈ challengedLabels)
    (before : Connection) : StartsPaused nodeCrates before label := by
  simp only [challengedLabels, List.mem_cons, List.not_mem_nil, or_false] at member
  rcases member with rfl | rfl | rfl | rfl
  · exact no_outside_start rfl before _
  · exact no_outside_start rfl before _
  · trivial
  · exact no_outside_start rfl before _

theorem grpc_inference_pauses_challenged :
    (∃ last, runFrom (connectionStep nodeCrates) (Connection.opened nodeOptions 1)
        (challengedLabels.take 2) = some last ∧
      Occupied last.session.handler ∧ last.session.miner.Paused) ∧
    EveryStep (connectionStep nodeCrates) (fun _ _ after => InferencePaused after.session)
      (Connection.opened nodeOptions 1) challengedLabels := by
  constructor
  · exact ⟨_, rfl, by decide, rfl⟩
  · apply (grpc_inference_pauses nodeCrates nodeOptions 1 challengedLabels).2
    apply every_step_of_each
    exact fun label member before _ => challenged_starts_paused label member before

/-- The request of an added block is inferred while the workers have a job. -/
theorem added_block_starts_unpaused :
    ¬ ∀ (crates : NodeCrates) (options : NodeOptions) (workers : Nat)
      (labels : List (Event × Surroundings)),
      EveryStep (connectionStep crates)
        (fun _ _ after => InferencePaused after.session ∧ TemplatesFree after.session)
        (Connection.opened options workers) labels := by
  intro pauses
  have fed := pauses nodeCrates nodeOptions 1
    [(.message (template ""), calm),
      (.message (.blockAddedNotification (some requestBlock)), calm)] _ rfl
  have started := (fed.2 _ rfl).1.1
  have paused := started (by decide)
  contradiction

end KeryxMiner.TemplatePause
