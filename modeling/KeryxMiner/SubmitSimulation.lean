import KeryxMiner.SubmitReplies
import KeryxMiner.TemplatePause

/-!
The connections of `SubmitReplies` are what a gRPC connection is when only the
watcher and the submitted transactions are kept: a message or a tick is a run of
their events.
-/

namespace KeryxMiner.SubmitSimulation

open AiPayloads Escrow GrpcClient RpcMessages TransitionRuns
open TemplatePause (Scanned harvest_frame info_related scan_scanned scan_template_scanned
  start_challenge_frame try_start_frame)

def transactionOf : Request → Option RpcTransaction
  | .submitTransaction tx => some tx
  | .getBlockTemplate _ _ => none
  | .getBlock _ _ => none
  | .notifyNewBlockTemplate => none
  | .notifyBlockAdded => none

def submitted (session : NodeSession) : List RpcTransaction :=
  session.sent.filterMap transactionOf

/-- The node has answered the first `answered` of the submitted transactions. -/
def view (answered : Nat) (closed : Bool) (session : NodeSession) : SubmitReplies.Connection where
  handler := {
    escrowWatcher := session.handler.escrowWatcher
    lastKnownDaa := session.handler.lastKnownDaa }
  outstanding := (submitted session).drop answered
  closed := closed

/-! What leaves the view alone. -/

structure SameWatch (before after : KeryxdHandler) : Prop where
  watcher : after.escrowWatcher = before.escrowWatcher
  daa : after.lastKnownDaa = before.lastKnownDaa

theorem SameWatch.trans {first second third : KeryxdHandler} (left : SameWatch first second)
    (right : SameWatch second third) : SameWatch first third :=
  ⟨right.watcher.trans left.watcher, right.daa.trans left.daa⟩

theorem SameWatch.scanned {before after : KeryxdHandler} (scanned : Scanned before after) :
    SameWatch before after := by
  obtain ⟨_, _, _, rfl⟩ := scanned
  exact ⟨rfl, rfl⟩

structure SameView (before after : NodeSession) : Prop where
  watch : SameWatch before.handler after.handler
  submits : submitted after = submitted before

theorem SameView.refl (session : NodeSession) : SameView session session := ⟨⟨rfl, rfl⟩, rfl⟩

theorem SameView.trans {first second third : NodeSession} (left : SameView first second)
    (right : SameView second third) : SameView first third :=
  ⟨left.watch.trans right.watch, right.submits.trans left.submits⟩

theorem SameView.view {before after : NodeSession} (same : SameView before after) (answered : Nat)
    (closed : Bool) : view answered closed after = view answered closed before := by
  unfold SubmitSimulation.view
  rw [same.watch.watcher, same.watch.daa, same.submits]

theorem SameWatch.onHandler {work : KeryxdHandler → KeryxdHandler} {session : NodeSession}
    (same : SameWatch session.handler (work session.handler)) :
    SameView session (session.onHandler work) :=
  ⟨same, rfl⟩

section Parts
variable (crates : NodeCrates) (surroundings : Surroundings)

theorem try_start_watch (slm : Slm) (handler : KeryxdHandler) :
    SameWatch handler (tryStartInference slm handler) := by
  obtain ⟨_, _, frame⟩ := try_start_frame slm handler
  rw [frame]
  exact ⟨rfl, rfl⟩

theorem start_challenge_watch (challenge : String) (handler : KeryxdHandler) :
    SameWatch handler (startChallenge crates surroundings challenge handler) := by
  obtain ⟨_, frame⟩ := start_challenge_frame crates surroundings challenge handler
  rw [frame]
  exact ⟨rfl, rfl⟩

theorem harvest_watch (answer : Received) (handler : KeryxdHandler) :
    SameWatch handler (harvest answer handler).1 := by
  obtain ⟨_, frame⟩ := harvest_frame answer handler
  rw [frame]
  exact ⟨rfl, rfl⟩

theorem client_send_view (request : Request) (other : transactionOf request = none)
    (session : NodeSession) : SameView session (clientSend surroundings request session).1 := by
  unfold clientSend
  split
  · refine ⟨⟨rfl, rfl⟩, ?_⟩
    simp [submitted, other]
  · exact ⟨⟨rfl, rfl⟩, rfl⟩

theorem get_template_view (session : NodeSession) :
    SameView session (clientGetBlockTemplate surroundings session).1 := by
  have harvested : SameView session { session with
      handler := (harvest surroundings.challenge (countTemplate session.handler)).1 } := by
    have counted : SameWatch session.handler (countTemplate session.handler) := ⟨rfl, rfl⟩
    exact ⟨counted.trans (harvest_watch _ _), rfl⟩
  exact harvested.trans (client_send_view surroundings _ rfl _)

theorem publish_view (block : Option MinerJobs.BlockSeed) (session : NodeSession) :
    SameView session (publish block session).1 := ⟨⟨rfl, rfl⟩, rfl⟩

theorem mine_template_view (template : TemplateResponse) (session : NodeSession) :
    SameView session (mineTemplate crates template session).1 := by
  unfold mineTemplate
  split
  · exact publish_view _ session
  · split
    · exact publish_view _ session
    · exact publish_view _ session
  · exact publish_view _ session
  · exact .refl session
  · exact .refl session

theorem info_view (session : NodeSession) :
    SameView session (handleInfo surroundings session).1 :=
  info_related surroundings SameView SameView.trans (client_send_view surroundings _ rfl)
    (client_send_view surroundings _ rfl) (get_template_view surroundings) session

theorem fetch_block_view (block : RpcBlock) (session : NodeSession) :
    SameView session (fetchBlock surroundings block session).1 := by
  unfold fetchBlock
  dsimp only
  split
  · exact client_send_view surroundings _ rfl session
  · exact .refl session

end Parts

/-! Simulation. -/

/-- No answer of the node. -/
def Unprompted : SubmitReplies.Event → Prop
  | .block _ _ _ => True
  | .template _ => True
  | .inference _ _ _ _ => True
  | .reply _ _ => False

section Simulations
variable (crates : NodeCrates) (surroundings : Surroundings) (answered : Nat)

structure Simulated (before after : NodeSession) (closed : Bool) : Prop where
  grows : (submitted before).length ≤ (submitted after).length
  follows : answered ≤ (submitted before).length →
    ∃ events, (∀ event ∈ events, Unprompted event) ∧
      runFrom (SubmitReplies.connectionStep crates.escrow) (view answered false before) events =
        some (view answered closed after)

variable {crates answered}

theorem SameView.simulated {before after : NodeSession} (same : SameView before after) :
    Simulated crates answered before after false := by
  constructor
  · rw [same.submits]
  · intro _
    refine ⟨[], by simp, ?_⟩
    rw [same.view]
    rfl

theorem Simulated.trans {first second third : NodeSession} {closed : Bool}
    (left : Simulated crates answered first second false)
    (right : Simulated crates answered second third closed) :
    Simulated crates answered first third closed := by
  constructor
  · exact Nat.le_trans left.grows right.grows
  · intro within
    obtain ⟨early, quiet, ran⟩ := left.follows within
    obtain ⟨late, quiet_late, continues⟩ := right.follows (Nat.le_trans within left.grows)
    refine ⟨early ++ late, fun event member => ?_, ?_⟩
    · exact (List.mem_append.mp member).elim (quiet event) (quiet_late event)
    · rw [run_from_append, ran]
      exact continues

theorem simulated_event {before after : NodeSession} {closed : Bool} (event : SubmitReplies.Event)
    (quiet : Unprompted event) (grows : (submitted before).length ≤ (submitted after).length)
    (stepped : answered ≤ (submitted before).length →
      SubmitReplies.connectionStep crates.escrow (view answered false before) event =
        some (view answered closed after)) :
    Simulated crates answered before after closed := by
  refine ⟨grows, fun within => ⟨[event], ?_, ?_⟩⟩
  · intro other member
    obtain rfl := List.mem_singleton.mp member
    exact quiet
  · simp only [runFrom, stepped within, Option.bind_some]

variable (crates answered)

theorem track_daa_view {block : Option RpcBlock} {header : RpcBlockHeader}
    (present : block.bind (·.header) = some header) (session : NodeSession) :
    view answered false (session.onHandler (trackDaa block)) =
      SubmitReplies.onTemplate header.daaScore (view answered false session) := by
  by_cases later : session.handler.lastKnownDaa < header.daaScore
  · have tracked : trackDaa block session.handler =
        { session.handler with lastKnownDaa := header.daaScore } := by
      simp only [trackDaa, present, if_pos later]
    have raised : SubmitReplies.onTemplate header.daaScore (view answered false session) =
        { view answered false session with handler.lastKnownDaa := header.daaScore } :=
      if_pos later
    rw [raised, NodeSession.onHandler, tracked]
    rfl
  · have kept : trackDaa block session.handler = session.handler := by
      simp only [trackDaa, present, if_neg later]
    have same : SubmitReplies.onTemplate header.daaScore (view answered false session) =
        view answered false session := if_neg later
    rw [same, NodeSession.onHandler, kept]

theorem track_daa_simulated (block : Option RpcBlock) (session : NodeSession) :
    Simulated crates answered session (session.onHandler (trackDaa block)) false := by
  cases present : block.bind (·.header) with
  | none =>
      apply SameView.simulated
      simp only [NodeSession.onHandler, trackDaa, present]
      exact .refl session
  | some header =>
      refine simulated_event (.template header.daaScore) trivial (Nat.le_refl _) fun _ => ?_
      exact congrArg some (track_daa_view answered present session).symm

/-- A request of a connection that sends it, and of one that does not. -/
theorem submit_view (tx : RpcTransaction) {session : NodeSession}
    (within : answered ≤ (submitted session).length) :
    view answered false (clientSend surroundings (.submitTransaction tx) session).1 =
      if surroundings.connected then SubmitReplies.submit tx (view answered false session)
      else view answered false session := by
  unfold clientSend
  split
  · have sent : submitted { session with sent := session.sent ++ [.submitTransaction tx] } =
        submitted session ++ [tx] := by simp [submitted, transactionOf]
    simp only [view, SubmitReplies.submit, sent]
    rw [List.drop_append_of_le_length within]
  · rfl

theorem submit_grows (tx : RpcTransaction) (session : NodeSession) :
    (submitted session).length ≤
      (submitted (clientSend surroundings (.submitTransaction tx) session).1).length := by
  unfold clientSend
  split
  · simp [submitted, transactionOf]
  · exact Nat.le_refl _

theorem track_answered_view (stableId : String) (session : NodeSession) :
    view answered false (session.onHandler (trackAnswered crates surroundings.clock stableId)) =
      match session.handler.aiRequestTxids.lookup stableId,
          (view answered false session).handler.escrowWatcher with
      | some (txid, reward), some watcher =>
          { view answered false session with
            handler.escrowWatcher := some (trackInferenceEscrow surroundings.clock txid
              (view answered false session).handler.lastKnownDaa reward watcher).1 }
      | _, _ => view answered false session := by
  cases registered : session.handler.aiRequestTxids.lookup stableId with
  | none => simp only [NodeSession.onHandler, trackAnswered, registered]
  | some entry =>
      cases watched : session.handler.escrowWatcher with
      | none =>
          simp only [NodeSession.onHandler, trackAnswered, registered, watched, view,
            Option.map_none]
          rfl
      | some watcher =>
          simp only [NodeSession.onHandler, trackAnswered, registered, watched, view,
            Option.map_some, operate]
          rfl

/-- The answer to a request, as far as its transaction carries it. -/
def responsePayload (session : NodeSession) (raw : List UInt8) (cid : ByteCodec.Bytes 34)
    (text : String) : String :=
  (responseTx crates session.handler raw cid text).payload

theorem submit_response_view (raw : List UInt8) (cid : ByteCodec.Bytes 34) (text : String)
    {session : NodeSession} (within : answered ≤ (submitted session).length) :
    view answered false (submitResponse crates surroundings raw cid text session) =
      SubmitReplies.pollInference surroundings.clock (responsePayload crates session raw cid text)
        (session.handler.aiRequestTxids.lookup (stableIdOf crates raw)) surroundings.connected
        (view answered false session) := by
  have request : responseTx crates session.handler raw cid text =
      SubmitReplies.aiResponseTx (responsePayload crates session raw cid text) := rfl
  have kept := (TemplatePause.client_send_session surroundings
    (.submitTransaction (responseTx crates session.handler raw cid text)) session).1
  have tracked := track_answered_view crates surroundings answered (stableIdOf crates raw)
    (clientSend surroundings
      (.submitTransaction (responseTx crates session.handler raw cid text)) session).1
  rw [kept, submit_view surroundings answered _ within, request] at tracked
  exact tracked

theorem submit_response_simulated (raw : List UInt8) (cid : ByteCodec.Bytes 34) (text : String)
    (session : NodeSession) :
    Simulated crates answered session (submitResponse crates surroundings raw cid text session)
      false := by
  refine simulated_event (.inference (responsePayload crates session raw cid text)
    (session.handler.aiRequestTxids.lookup (stableIdOf crates raw)) surroundings.clock
    surroundings.connected) trivial (submit_grows surroundings _ session) fun within => ?_
  exact congrArg some (submit_response_view crates surroundings answered raw cid text within).symm

theorem poll_simulated (session : NodeSession) :
    Simulated crates answered session (pollInference crates surroundings session).1 false := by
  unfold pollInference
  split
  · exact (SameView.refl session).simulated
  · rename_i raw _
    have taken : SameView session (session.onHandler fun handler =>
        { handler with inferenceRx := none }) := ⟨⟨rfl, rfl⟩, rfl⟩
    dsimp only
    split
    · exact (SameView.refl session).simulated
    · exact (SameView.refl session).simulated
    · exact taken.simulated
    · split
      · exact taken.simulated
      · exact taken.simulated.trans (submit_response_simulated crates surroundings answered ..)

/-! Handlers. -/

/-- Only a failing handler closes the connection. -/
def Follows (before : NodeSession) (outcome : NodeSession × Except String Unit) : Prop :=
  ∃ closed, (closed = true → outcome.2.isOk = false) ∧
    Simulated crates answered before outcome.1 closed

variable {crates answered}

theorem Simulated.follows_view {before between : NodeSession}
    {outcome : NodeSession × Except String Unit}
    (simulated : Simulated crates answered before between false)
    (same : SameView between outcome.1) : Follows crates answered before outcome :=
  ⟨false, fun closed => absurd closed Bool.false_ne_true, simulated.trans same.simulated⟩

theorem SameView.follows {before : NodeSession} {outcome : NodeSession × Except String Unit}
    (same : SameView before outcome.1) : Follows crates answered before outcome :=
  (SameView.refl before).simulated.follows_view same

variable (crates answered)

def watching (watcher : EscrowWatcher) (session : NodeSession) : NodeSession :=
  session.onHandler fun handler => { handler with escrowWatcher := some watcher }

section Blocks
variable (block : RpcBlock) {watcher : EscrowWatcher} {session : NodeSession}
variable (watched : session.handler.escrowWatcher = some watcher)
include watched

theorem on_block_unclaimed
    (idle : (handleBlock crates.escrow surroundings.clock block watcher).claim = none)
    (sent : Bool) :
    SubmitReplies.onBlock crates.escrow surroundings.clock block sent
        (view answered false session) =
      view answered false (watching
        (handleBlock crates.escrow surroundings.clock block watcher).watcher session) := by
  simp only [SubmitReplies.onBlock, view, watched, idle]
  rfl

theorem on_block_claimed {tx : RpcTransaction}
    (claimed : (handleBlock crates.escrow surroundings.clock block watcher).claim = some tx)
    (sent : Bool) :
    SubmitReplies.onBlock crates.escrow surroundings.clock block sent
        (view answered false session) =
      if sent then SubmitReplies.submit tx (view answered false (watching
        (handleBlock crates.escrow surroundings.clock block watcher).watcher session))
      else view answered true (watching
        (handleBlock crates.escrow surroundings.clock block watcher).watcher session) := by
  simp only [SubmitReplies.onBlock, view, watched, claimed]
  rfl

/-- A claim that cannot be sent closes the connection on both sides. -/
theorem claim_follows {tx : RpcTransaction}
    (claimed : (handleBlock crates.escrow surroundings.clock block watcher).claim = some tx) :
    Follows crates answered session (clientSend surroundings (.submitTransaction tx) (watching
      (handleBlock crates.escrow surroundings.clock block watcher).watcher session)) := by
  have handled := on_block_claimed crates surroundings answered block watched claimed
  generalize (handleBlock crates.escrow surroundings.clock block watcher).watcher = next
    at handled ⊢
  cases sending : surroundings.connected with
  | true =>
      refine ⟨false, fun closed => absurd closed Bool.false_ne_true, ?_⟩
      refine simulated_event (.block block surroundings.clock true) trivial
        (submit_grows surroundings tx (watching next session)) fun within => ?_
      have inside : answered ≤ (submitted (watching next session)).length := within
      rw [submit_view surroundings answered tx inside, if_pos sending]
      exact congrArg some (handled true)
  | false =>
      have unsent : clientSend surroundings (.submitTransaction tx) (watching next session) =
          (watching next session, .error "channel closed") := by simp [clientSend, sending]
      rw [unsent]
      refine ⟨true, fun _ => rfl, ?_⟩
      refine simulated_event (.block block surroundings.clock false) trivial (Nat.le_refl _)
        fun _ => ?_
      exact congrArg some (handled false)

end Blocks

theorem full_block_follows (block : RpcBlock) (session : NodeSession) :
    Follows crates answered session (handleFullBlock crates surroundings block session) := by
  have started : SameView session (session.onHandler fun handler =>
      tryStartInference surroundings.slm
        (scanTxsForAiRequests crates surroundings.slm block.transactions handler)) := by
    apply SameWatch.onHandler
    exact (SameWatch.scanned (scan_scanned crates _ _ _)).trans (try_start_watch _ _)
  unfold handleFullBlock
  dsimp only
  split
  · exact started.follows
  · rename_i watcher watched
    generalize session.onHandler _ = scanned at started watched
    split
    · rename_i idle
      refine ⟨false, fun closed => absurd closed Bool.false_ne_true, started.simulated.trans ?_⟩
      refine simulated_event (.block block surroundings.clock surroundings.connected) trivial
        (Nat.le_refl _) fun _ => ?_
      exact congrArg some (on_block_unclaimed crates surroundings answered block watched idle _)
    · rename_i tx claimed
      obtain ⟨closed, fails, claims⟩ :=
        claim_follows crates surroundings answered block watched claimed
      exact ⟨closed, fails, started.simulated.trans claims⟩

theorem template_follows (template : TemplateResponse) (session : NodeSession) :
    Follows crates answered session (handleTemplate crates surroundings template session) := by
  have challenged : Simulated crates answered session (session.onHandler fun handler =>
      startChallenge crates surroundings template.inferenceChallenge
        (trackDaa template.block handler)) false := by
    have tracked := track_daa_simulated crates answered template.block session
    have started : SameView (session.onHandler (trackDaa template.block))
        (session.onHandler fun handler => startChallenge crates surroundings
          template.inferenceChallenge (trackDaa template.block handler)) :=
      ⟨start_challenge_watch crates surroundings _ _, rfl⟩
    exact tracked.trans started.simulated
  unfold handleTemplate
  dsimp only
  generalize session.onHandler _ = after at challenged
  have polled := challenged.trans (poll_simulated crates surroundings answered after)
  split
  · exact polled.follows_view (get_template_view surroundings _)
  · split
    · exact polled.follows_view (publish_view _ _)
    · generalize (pollInference crates surroundings after).1 = between at polled
      have started : SameView between (between.onHandler fun handler =>
          tryStartInference surroundings.slm
            (scanTemplate crates surroundings template handler)) := by
        apply SameWatch.onHandler
        have scanned := SameWatch.scanned
          (scan_template_scanned crates surroundings template between.handler)
        exact scanned.trans (try_start_watch _ _)
      split
      · exact polled.follows_view (started.trans (publish_view _ _))
      · exact polled.follows_view (started.trans (mine_template_view crates template _))

theorem tick_follows (session : NodeSession) :
    Follows crates answered session (handleTick crates surroundings session) := by
  have polled := poll_simulated crates surroundings answered session
  unfold handleTick
  dsimp only
  split
  · exact polled.follows_view (get_template_view surroundings _)
  · split
    · exact polled.follows_view (get_template_view surroundings _)
    · exact polled.follows_view (.refl _)

/-- Every message but an answer to a submitted transaction. -/
theorem message_follows (payload : Payload)
    (other : ∀ error, payload ≠ .submitTransactionResponse error) (session : NodeSession) :
    Follows crates answered session (handleMessage crates surroundings payload session) := by
  unfold handleMessage
  split
  · rename_i block
    unfold handleBlockAdded
    split
    · exact full_block_follows crates surroundings answered block session
    · exact (fetch_block_view surroundings block session).follows
  · exact (SameView.refl session).follows
  · exact (get_template_view surroundings session).follows
  · exact template_follows crates surroundings answered _ session
  · exact full_block_follows crates surroundings answered _ session
  · exact (SameView.refl session).follows
  · exact (SameView.refl session).follows
  · exact absurd rfl (other _)
  · exact (info_view surroundings session).follows
  · exact (SameView.refl session).follows
  · exact (SameView.refl session).follows
  · exact (SameView.refl session).follows
  · exact (SameView.refl session).follows

theorem reply_simulated (error : Option String) {session : NodeSession}
    (unanswered : answered < (submitted session).length) :
    SubmitReplies.connectionStep crates.escrow (view answered false session)
        (.reply error surroundings.clock) =
      some (view (answered + 1) false
        (handleSubmitResponse crates surroundings error session).1) := by
  have oldest : (view answered false session).outstanding =
      (submitted session)[answered] :: (submitted session).drop (answered + 1) :=
    List.drop_eq_getElem_cons unanswered
  have answering : SubmitReplies.connectionStep crates.escrow (view answered false session)
        (.reply error surroundings.clock) =
      some (SubmitReplies.onReply surroundings.clock error
        (view (answered + 1) false session)) := by
    simp only [SubmitReplies.connectionStep, oldest]
    rfl
  rw [answering]
  unfold SubmitReplies.onReply handleSubmitResponse
  cases watched : session.handler.escrowWatcher with
  | none => simp only [view, watched]
  | some watcher =>
      simp only [view, watched]
      split
      · simp only [NodeSession.onHandler, operate, submitted]
      · simp only [watched]

end Simulations

end KeryxMiner.SubmitSimulation
