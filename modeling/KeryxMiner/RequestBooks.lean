import KeryxMiner.EscrowEffects
import KeryxMiner.TemplatePause
import KeryxMiner.TransactionIds

/-!
The AI requests of a gRPC connection and the rewards they carry: scans, starts and
polls in any order, with anything else that the client does between them. Beside
the session a history keeps the ids and the reward transactions it has met.
-/

namespace KeryxMiner.RequestBooks

open AiPayloads ByteCodec Escrow GrpcClient RpcMessages TemplatePause TransitionRuns

/-- The rest of the client: all that is not about AI requests may change, and a
watcher stays a watcher. -/
def elsewhere (session other : NodeSession) : NodeSession :=
  { other with handler := { other.handler with
      aiRequestQueue := session.handler.aiRequestQueue
      aiSeenPrefixes := session.handler.aiSeenPrefixes
      aiRequestTxids := session.handler.aiRequestTxids
      inferenceRx := session.handler.inferenceRx
      escrowWatcher := session.handler.escrowWatcher.map fun watcher =>
        other.handler.escrowWatcher.getD watcher } }

inductive AiEvent where
  | scan (slm : Slm) (txs : List RpcTransaction)
  | start (slm : Slm)
  | poll (surroundings : Surroundings)
  | elsewhere (other : NodeSession)

section History
variable (crates : NodeCrates)

def aiStep (session : NodeSession) : AiEvent → NodeSession
  | .scan slm txs => session.onHandler (scanTxsForAiRequests crates slm txs)
  | .start slm => session.onHandler (tryStartInference slm)
  | .poll surroundings => (pollInference crates surroundings session).1
  | .elsewhere other => elsewhere session other

/-- An AI request that carries a reward, as a scan met it; `txid` is its own id and
`accepted` tells that its model was ready. -/
structure Reward where
  stableId : String
  txid : Option String
  amount : UInt64
  positive : 0 < amount
  accepted : Bool
  deriving DecidableEq

def rewardOf (slm : Slm) (tx : RpcTransaction) : Option Reward :=
  match extract crates tx with
  | none => none
  | some found =>
      if positive : 0 < found.inferenceReward then
        some {
          stableId := stableIdOf crates found.raw
          txid := requestTxid crates tx
          amount := found.inferenceReward
          positive
          accepted := slm.loadedModelIds.contains found.modelId }
      else none

/-- The inference that a poll finishes. -/
def finished (session : NodeSession) : AiEvent → Option (List UInt8)
  | .poll surroundings =>
      match surroundings.inference with
      | .result _ => session.handler.inferenceRx
      | _ => none
  | _ => none

/-- The request whose answer a poll submits. -/
def answered (session : NodeSession) : AiEvent → Option (List UInt8)
  | .poll surroundings =>
      match surroundings.inference, surroundings.upload with
      | .result (some _), .ok _ => session.handler.inferenceRx
      | _, _ => none
  | _ => none

/-- The escrow outpoints that an answer registers. -/
def trackCalls (handler : KeryxdHandler) (stableId : String) : List (String × UInt64) :=
  if handler.escrowWatcher.isSome then (handler.aiRequestTxids.lookup stableId).toList else []

/-- The ids that were put in the queue, of which inferences were started and ended
and whose answers were submitted, and the rewards that were scanned. -/
structure Books where
  session : NodeSession
  queued : List String
  inferred : List String
  ended : List String
  answers : List String
  rewards : List Reward

def Books.opened (options : NodeOptions) (workers : Nat) : Books where
  session := (Connection.opened options workers).session
  queued := []
  inferred := []
  ended := []
  answers := []
  rewards := []

/-- The requests that a step adds to the queue. -/
def addedRequests (before after : NodeSession) : List QueuedRequest :=
  after.handler.aiRequestQueue.drop before.handler.aiRequestQueue.length

def startedIds (before after : NodeSession) : List String :=
  if before.handler.inferenceRx = none then
    after.handler.inferenceRx.toList.map (stableIdOf crates)
  else []

def scannedRewards : AiEvent → List Reward
  | .scan slm txs => txs.filterMap (rewardOf crates slm)
  | _ => []

def Books.follow (event : AiEvent) (books : Books) : Books :=
  let after := aiStep crates books.session event
  { session := after
    queued := books.queued ++ (addedRequests books.session after).map QueuedRequest.stableId
    inferred := books.inferred ++ startedIds crates books.session after
    ended := books.ended ++ (finished books.session event).toList.map (stableIdOf crates)
    answers := books.answers ++ (answered books.session event).toList.map (stableIdOf crates)
    rewards := books.rewards ++ scannedRewards crates event }

def booksStep (books : Books) (event : AiEvent) : Option Books := some (books.follow crates event)

/-- An answer registers every reward of its request with the reward's own id. -/
def RewardsTracked (before : Books) (event : AiEvent) : Prop :=
  ∀ raw, answered before.session event = some raw →
    ∀ reward ∈ before.rewards, reward.stableId = stableIdOf crates raw →
      ∃ txid, reward.txid = some txid ∧
        (txid, reward.amount) ∈ trackCalls before.session.handler reward.stableId

/-- The transactions that carry the answered payload and a reward were all one
transaction with a known id, met at least once while its model was ready, and there
is a watcher. -/
def OneTransaction (before : Books) (event : AiEvent) : Prop :=
  ∀ raw, answered before.session event = some raw →
    ∀ reward ∈ before.rewards, reward.stableId = stableIdOf crates raw →
      before.session.handler.escrowWatcher.isSome = true ∧ reward.txid.isSome = true ∧
        (∃ other ∈ before.rewards, other.stableId = stableIdOf crates raw ∧
          other.accepted = true) ∧
        ∀ other ∈ before.rewards, other.stableId = stableIdOf crates raw →
          other.txid = reward.txid ∧ other.amount = reward.amount

/-- The last accepted reward of an id whose transaction id was known. -/
def lastHeld (rewards : List Reward) (stableId : String) : Option (String × UInt64) :=
  (rewards.filterMap fun reward =>
    if reward.accepted ∧ reward.stableId = stableId then
      reward.txid.map fun txid => (txid, reward.amount)
    else none).getLast?

structure Sound (books : Books) : Prop where
  past : ∃ past, books.queued =
      past ++ books.session.handler.aiRequestQueue.map QueuedRequest.stableId ∧
    books.inferred.Sublist past
  distinct : books.queued.Nodup
  seen : ∀ id ∈ books.queued, id ∈ books.session.handler.aiSeenPrefixes
  named : ∀ request ∈ books.session.handler.aiRequestQueue,
    request.stableId = stableIdOf crates request.raw
  flight : books.inferred =
    books.ended ++ books.session.handler.inferenceRx.toList.map (stableIdOf crates)
  answers : books.answers.Sublist books.ended
  held : ∀ id, id ∉ books.answers →
    books.session.handler.aiRequestTxids.lookup id = lastHeld books.rewards id

variable {crates}

theorem opened_sound (options : NodeOptions) (workers : Nat) :
    Sound crates (Books.opened options workers) where
  past := ⟨[], rfl, .slnil⟩
  distinct := .nil
  seen := by simp [Books.opened]
  named := by simp [Books.opened, Connection.opened, KeryxdHandler.connect]
  flight := rfl
  answers := .slnil
  held := by
    intro id _
    rfl

/-! Scans. -/

def Books.onHandler (work : KeryxdHandler → KeryxdHandler) (books : Books) : Books :=
  { books with session := books.session.onHandler work }

def Books.addQueued (added : List QueuedRequest) (books : Books) : Books :=
  { books with queued := books.queued ++ added.map QueuedRequest.stableId }

def Books.addRewards (rewards : List Reward) (books : Books) : Books :=
  { books with rewards := books.rewards ++ rewards }

theorem last_held_append (rewards : List Reward) (reward : Reward) (id : String) :
    lastHeld (rewards ++ [reward]) id =
      if reward.accepted ∧ reward.stableId = id ∧ reward.txid.isSome then
        reward.txid.map fun txid => (txid, reward.amount)
      else lastHeld rewards id := by
  unfold lastHeld
  rw [List.filterMap_append]
  by_cases own : reward.accepted = true ∧ reward.stableId = id
  · cases known : reward.txid <;> simp [own, known]
  · have other : ¬ (reward.accepted = true ∧ reward.stableId = id ∧ reward.txid.isSome = true) :=
      fun all => own ⟨all.1, all.2.1⟩
    simp [own, other]

theorem enqueue_sound (found : Extracted) {books : Books} (sound : Sound crates books) :
    ∃ added, (enqueue (stableIdOf crates found.raw) found books.session.handler).aiRequestQueue =
        books.session.handler.aiRequestQueue ++ added ∧
      Sound crates ((books.onHandler (enqueue (stableIdOf crates found.raw) found)).addQueued
        added) := by
  unfold enqueue
  by_cases seen : stableIdOf crates found.raw ∈ books.session.handler.aiSeenPrefixes
  · refine ⟨[], by rw [if_pos seen, List.append_nil], ?_⟩
    simpa [Books.onHandler, Books.addQueued, NodeSession.onHandler, seen] using sound
  · let request : QueuedRequest :=
      ⟨stableIdOf crates found.raw, found.raw, found.modelId, found.prompt, found.maxTokens⟩
    -- every id that was queued is still in the set, which is never cleared
    have fresh : stableIdOf crates found.raw ∉ books.queued :=
      fun queued => seen (sound.seen _ queued)
    refine ⟨[request], by rw [if_neg seen], ?_⟩
    simp only [Books.onHandler, Books.addQueued, NodeSession.onHandler, if_neg seen]
    obtain ⟨past, queued, inferred⟩ := sound.past
    constructor
    · exact ⟨past, by simp [queued, request], inferred⟩
    · refine List.nodup_append.mpr ⟨sound.distinct, List.nodup_singleton _, ?_⟩
      rintro id queuedId _ new rfl
      obtain rfl : id = stableIdOf crates found.raw := by simpa [request] using new
      exact fresh queuedId
    · intro id member
      rcases List.mem_append.mp member with old | new
      · exact Finset.mem_insert_of_mem (sound.seen id old)
      · obtain rfl : id = stableIdOf crates found.raw := by simpa [request] using new
        exact Finset.mem_insert_self _ _
    · intro other member
      rcases List.mem_append.mp member with old | new
      · exact sound.named other old
      · obtain rfl := List.mem_singleton.mp new
        rfl
    · exact sound.flight
    · exact sound.answers
    · exact sound.held

structure SameRequests (before after : KeryxdHandler) : Prop where
  queue : after.aiRequestQueue = before.aiRequestQueue
  seen : after.aiSeenPrefixes = before.aiSeenPrefixes
  inference : after.inferenceRx = before.inferenceRx

/-- Only the table and the rewards change. -/
theorem Sound.withTable {books : Books} (sound : Sound crates books) {session : NodeSession}
    {rewards : List Reward} (same : SameRequests books.session.handler session.handler)
    (held : ∀ id, id ∉ books.answers →
      session.handler.aiRequestTxids.lookup id = lastHeld rewards id) :
    Sound crates { books with session, rewards } where
  past := by
    rw [same.queue]
    exact sound.past
  distinct := sound.distinct
  seen := by
    rw [same.seen]
    exact sound.seen
  named := by
    rw [same.queue]
    exact sound.named
  flight := by
    rw [same.inference]
    exact sound.flight
  answers := sound.answers
  held := held

theorem remember_same (stableId : String) (tx : RpcTransaction) (reward : UInt64)
    (handler : KeryxdHandler) :
    SameRequests handler (rememberTxid crates stableId tx reward handler) := by
  unfold rememberTxid
  split
  · split <;> exact ⟨rfl, rfl, rfl⟩
  · exact ⟨rfl, rfl, rfl⟩

theorem remember_lookup (stableId : String) (tx : RpcTransaction) {reward : UInt64}
    (positive : 0 < reward) (handler : KeryxdHandler) (id : String) :
    (rememberTxid crates stableId tx reward handler).aiRequestTxids.lookup id =
      if stableId = id ∧ (requestTxid crates tx).isSome then
        (requestTxid crates tx).map fun txid => (txid, reward)
      else handler.aiRequestTxids.lookup id := by
  rw [rememberTxid, if_pos positive]
  cases requestTxid crates tx with
  | none => simp
  | some txid =>
      by_cases own : stableId = id
      · subst own
        simp
      · simp [own, AList.lookup_insert_ne (Ne.symm own)]

/-- The reward that a ready request carries is held under its id. -/
theorem remember_sound (found : Extracted) (tx : RpcTransaction) {books : Books}
    (sound : Sound crates books) (positive : 0 < found.inferenceReward) :
    Sound crates ((books.onHandler (rememberTxid crates (stableIdOf crates found.raw) tx
      found.inferenceReward)).addRewards
        [⟨stableIdOf crates found.raw, requestTxid crates tx, found.inferenceReward, positive,
          true⟩]) := by
  apply sound.withTable (remember_same _ tx _ books.session.handler)
  intro id open_
  have lookup := @remember_lookup crates (stableIdOf crates found.raw) tx _ positive
    books.session.handler id
  have held := last_held_append books.rewards
    ⟨stableIdOf crates found.raw, requestTxid crates tx, found.inferenceReward, positive, true⟩ id
  rw [← sound.held id open_] at held
  simpa [Books.onHandler, NodeSession.onHandler] using lookup.trans (by simpa using held.symm)

/-- A reward that is met while its model is not ready is not held. -/
theorem unready_sound {books : Books} (sound : Sound crates books) {reward : Reward}
    (unready : reward.accepted = false) : Sound crates (books.addRewards [reward]) := by
  apply sound.withTable ⟨rfl, rfl, rfl⟩
  intro id open_
  rw [last_held_append, if_neg (by simp [unready])]
  exact sound.held id open_

/-- The books after one transaction of a scan. -/
theorem scan_tx_sound (slm : Slm) (tx : RpcTransaction) {books : Books}
    (sound : Sound crates books) :
    ∃ added, (scanTx crates slm.loadedModelIds books.session.handler tx).aiRequestQueue =
        books.session.handler.aiRequestQueue ++ added ∧
      Sound crates (((books.onHandler fun handler =>
        scanTx crates slm.loadedModelIds handler tx).addQueued added).addRewards
          (rewardOf crates slm tx).toList) := by
  unfold scanTx rewardOf
  cases extract crates tx with
  | none =>
      refine ⟨[], by simp, ?_⟩
      simpa [Books.onHandler, Books.addQueued, Books.addRewards, NodeSession.onHandler] using sound
  | some found =>
      dsimp only
      by_cases ready : found.modelId ∈ slm.loadedModelIds
      · obtain ⟨added, queue, queuedSound⟩ := enqueue_sound found sound
        have same := @remember_same crates (stableIdOf crates found.raw) tx
          found.inferenceReward (enqueue (stableIdOf crates found.raw) found books.session.handler)
        simp only [if_pos ready, List.contains_eq_mem, decide_eq_true ready]
        refine ⟨added, same.queue.trans queue, ?_⟩
        by_cases positive : 0 < found.inferenceReward
        · rw [dif_pos positive]
          exact remember_sound found tx queuedSound positive
        · rw [dif_neg positive]
          simpa [rememberTxid, positive, Books.addRewards] using queuedSound
      · simp only [if_neg ready, List.contains_eq_mem, decide_eq_false ready]
        refine ⟨[], by simp, ?_⟩
        have kept : (books.onHandler fun handler => handler).addQueued [] = books := by
          simp [Books.onHandler, Books.addQueued, NodeSession.onHandler]
        rw [kept]
        by_cases positive : 0 < found.inferenceReward
        · rw [dif_pos positive]
          exact unready_sound sound rfl
        · rw [dif_neg positive]
          simpa [Books.addRewards] using sound

theorem scan_eq_fold (slm : Slm) (txs : List RpcTransaction) (handler : KeryxdHandler) :
    scanTxsForAiRequests crates slm txs handler =
      txs.foldl (scanTx crates slm.loadedModelIds) handler := by
  unfold scanTxsForAiRequests
  split
  · rename_i unloaded
    rw [unloaded]
    induction txs with
    | nil => rfl
    | cons tx txs ih =>
        have passed : scanTx crates [] handler tx = handler := by
          unfold scanTx
          split <;> simp
        rw [List.foldl_cons, passed]
        exact ih
  · rfl

theorem scan_sound (slm : Slm) (txs : List RpcTransaction) {books : Books}
    (sound : Sound crates books) :
    ∃ added, (txs.foldl (scanTx crates slm.loadedModelIds) books.session.handler).aiRequestQueue =
        books.session.handler.aiRequestQueue ++ added ∧
      Sound crates (((books.onHandler fun handler =>
        txs.foldl (scanTx crates slm.loadedModelIds) handler).addQueued added).addRewards
          (txs.filterMap (rewardOf crates slm))) := by
  induction txs generalizing books with
  | nil =>
      refine ⟨[], by simp, ?_⟩
      simpa [Books.onHandler, Books.addQueued, Books.addRewards, NodeSession.onHandler] using sound
  | cons tx txs ih =>
      obtain ⟨first, firstQueue, firstSound⟩ := scan_tx_sound slm tx sound
      obtain ⟨others, othersQueue, othersSound⟩ := ih firstSound
      refine ⟨first ++ others, ?_, ?_⟩
      · rw [List.foldl_cons, ← List.append_assoc, ← firstQueue]
        exact othersQueue
      · have rewards : (tx :: txs).filterMap (rewardOf crates slm) =
            (rewardOf crates slm tx).toList ++ txs.filterMap (rewardOf crates slm) := by
          cases scanned : rewardOf crates slm tx <;> simp [scanned]
        rw [rewards]
        simpa [Books.onHandler, Books.addQueued, Books.addRewards, NodeSession.onHandler]
          using othersSound

/-! Steps. -/

theorem follow_unmoved (event : AiEvent) (books : Books) {after : NodeSession}
    (step : aiStep crates books.session event = after)
    (queue : after.handler.aiRequestQueue = books.session.handler.aiRequestQueue)
    (inference : after.handler.inferenceRx = books.session.handler.inferenceRx)
    (unfinished : finished books.session event = none)
    (unanswered : answered books.session event = none)
    (unscanned : scannedRewards crates event = []) :
    books.follow crates event = { books with session := after } := by
  have unadded : addedRequests books.session after = [] := by
    rw [addedRequests, queue]
    exact List.drop_length
  have unstarted : startedIds crates books.session after = [] := by
    unfold startedIds
    split
    · rename_i free
      rw [inference, free]
      rfl
    · rfl
  simp [Books.follow, step, unadded, unstarted, unfinished, unanswered, unscanned]

theorem scan_follow (slm : Slm) (txs : List RpcTransaction) {books : Books}
    (sound : Sound crates books) : Sound crates (books.follow crates (.scan slm txs)) := by
  obtain ⟨added, queue, after⟩ := scan_sound slm txs sound
  have unstarted : startedIds crates books.session
      (aiStep crates books.session (.scan slm txs)) = [] := by
    have same := (scan_scanned crates slm txs books.session.handler).flight.inference
    unfold startedIds
    split
    · rename_i free
      rw [aiStep, NodeSession.onHandler, same, free]
      rfl
    · rfl
  have all : addedRequests books.session (aiStep crates books.session (.scan slm txs)) = added := by
    rw [addedRequests, aiStep, NodeSession.onHandler, scan_eq_fold, queue, List.drop_left]
  rw [← funext (scan_eq_fold slm txs)] at after
  have followed : books.follow crates (.scan slm txs) = ((books.onHandler
      (scanTxsForAiRequests crates slm txs)).addQueued added).addRewards
        (txs.filterMap (rewardOf crates slm)) := by
    simp only [Books.follow, all, unstarted, finished, answered, scannedRewards,
      Option.toList_none, List.map_nil, List.append_nil]
    rfl
  rw [followed]
  exact after

/-- The request at the head of the queue can leave it. -/
theorem Sound.head {books : Books} (sound : Sound crates books) {request : QueuedRequest}
    {rest : List QueuedRequest} (queue : books.session.handler.aiRequestQueue = request :: rest) :
    (∃ past, books.queued = (past ++ [request.stableId]) ++ rest.map QueuedRequest.stableId ∧
      books.inferred.Sublist past) ∧
    request.stableId = stableIdOf crates request.raw ∧
    ∀ other ∈ rest, other.stableId = stableIdOf crates other.raw := by
  obtain ⟨past, queued, inferred⟩ := sound.past
  refine ⟨⟨past, ?_, inferred⟩, ?_, fun other member => ?_⟩
  · rw [queued, queue]
    simp
  · exact sound.named request (by rw [queue]; exact List.mem_cons_self)
  · exact sound.named other (by rw [queue]; exact List.mem_cons_of_mem _ member)

/-- A start moves the head of the queue to the past; it is inferred when its model
is ready. -/
theorem start_follow (slm : Slm) {books : Books} (sound : Sound crates books) :
    Sound crates (books.follow crates (.start slm)) := by
  have unmoved (kept : tryStartInference slm books.session.handler = books.session.handler) :
      Sound crates (books.follow crates (.start slm)) := by
    have same : aiStep crates books.session (.start slm) = books.session := by
      rw [aiStep, NodeSession.onHandler, kept]
    rw [follow_unmoved (.start slm) books same rfl rfl rfl rfl rfl]
    exact sound
  by_cases busy : books.session.handler.inferenceRx.isSome = true
  · exact unmoved (if_pos busy)
  have free := Option.not_isSome_iff_eq_none.mp busy
  cases queue : books.session.handler.aiRequestQueue with
  | nil =>
      apply unmoved
      rw [tryStartInference, if_neg busy, queue]
  | cons request rest =>
      obtain ⟨⟨past, left, inferred⟩, named, others⟩ := sound.head queue
      by_cases ready : slm.isModelReady request.modelId = true
      · have started : tryStartInference slm books.session.handler =
            { books.session.handler with aiRequestQueue := rest, inferenceRx := some request.raw } := by
          simp [tryStartInference, free, queue, ready]
        have followed : books.follow crates (.start slm) = { books with
            session := { books.session with handler := { books.session.handler with
              aiRequestQueue := rest, inferenceRx := some request.raw } }
            inferred := books.inferred ++ [request.stableId] } := by
          simp [Books.follow, aiStep, NodeSession.onHandler, started, addedRequests, startedIds,
            finished, answered, scannedRewards, queue, free, named]
        rw [followed]
        have flight := sound.flight
        rw [free, Option.toList_none, List.map_nil, List.append_nil] at flight
        exact {
          past := ⟨past ++ [request.stableId], left, inferred.append (.refl _)⟩
          distinct := sound.distinct
          seen := sound.seen
          named := others
          flight := by simp [flight, named]
          answers := sound.answers
          held := sound.held }
      · -- the head is popped although its model is not ready
        have discarded : tryStartInference slm books.session.handler =
            { books.session.handler with aiRequestQueue := rest } := by
          simp [tryStartInference, free, queue, ready]
        have followed : books.follow crates (.start slm) = { books with
            session := { books.session with handler := { books.session.handler with
              aiRequestQueue := rest } } } := by
          simp [Books.follow, aiStep, NodeSession.onHandler, discarded, addedRequests, startedIds,
            finished, answered, scannedRewards, queue, free]
        rw [followed]
        exact {
          past := ⟨past ++ [request.stableId], left, inferred.trans (List.sublist_append_left ..)⟩
          distinct := sound.distinct
          seen := sound.seen
          named := others
          flight := sound.flight
          answers := sound.answers
          held := sound.held }

theorem Sound.inferred_nodup {books : Books} (sound : Sound crates books) :
    books.inferred.Nodup := by
  obtain ⟨past, queued, inferred⟩ := sound.past
  have distinct := sound.distinct
  rw [queued] at distinct
  exact (List.nodup_append.mp distinct).1.sublist inferred

/-- The request in flight has not been answered. -/
theorem Sound.flight_open {books : Books} (sound : Sound crates books) {raw : List UInt8}
    (waiting : books.session.handler.inferenceRx = some raw) :
    stableIdOf crates raw ∉ books.answers := by
  intro done
  have distinct := sound.inferred_nodup
  rw [sound.flight, waiting] at distinct
  exact (List.nodup_append.mp distinct).2.2 _ (sound.answers.subset done) _ (by simp) rfl

/-- The end of an inference without an answer. -/
theorem finish_sound {books : Books} (sound : Sound crates books) {raw : List UInt8}
    (waiting : books.session.handler.inferenceRx = some raw) :
    Sound crates { books with
      session := books.session.onHandler fun handler => { handler with inferenceRx := none }
      ended := books.ended ++ [stableIdOf crates raw] } where
  past := sound.past
  distinct := sound.distinct
  seen := sound.seen
  named := sound.named
  flight := by
    have flight := sound.flight
    rw [waiting] at flight
    simpa [NodeSession.onHandler] using flight
  answers := sound.answers.trans (List.sublist_append_left ..)
  held := sound.held

theorem track_answered_same (clock : Clock) (stableId : String) (handler : KeryxdHandler) :
    SameRequests handler (trackAnswered crates clock stableId handler) := by
  obtain ⟨_, _, frame⟩ := track_answered_frame crates clock stableId handler
  rw [frame]
  exact ⟨rfl, rfl, rfl⟩

theorem track_answered_lookup (clock : Clock) {stableId id : String} (other : id ≠ stableId)
    (handler : KeryxdHandler) :
    (trackAnswered crates clock stableId handler).aiRequestTxids.lookup id =
      handler.aiRequestTxids.lookup id := by
  unfold trackAnswered
  split
  · rfl
  · exact AList.lookup_erase_ne other

theorem submit_response_handler (surroundings : Surroundings) (raw : List UInt8) (cid : Bytes 34)
    (text : String) (session : NodeSession) :
    (submitResponse crates surroundings raw cid text session).handler =
      trackAnswered crates surroundings.clock (stableIdOf crates raw) session.handler := by
  rw [submitResponse]
  have sent := client_send_session surroundings
    (.submitTransaction (responseTx crates session.handler raw cid text)) session
  exact congrArg (trackAnswered crates surroundings.clock (stableIdOf crates raw)) sent.1

/-- The end of an inference with an answer: the reward of its id is not held any longer. -/
theorem answer_sound {books : Books} (sound : Sound crates books) {raw : List UInt8}
    (waiting : books.session.handler.inferenceRx = some raw) (surroundings : Surroundings)
    (cid : Bytes 34) (text : String) :
    Sound crates { books with
      session := submitResponse crates surroundings raw cid text
        (books.session.onHandler fun handler => { handler with inferenceRx := none })
      ended := books.ended ++ [stableIdOf crates raw]
      answers := books.answers ++ [stableIdOf crates raw] } := by
  have ended := finish_sound sound waiting
  have handler := @submit_response_handler crates surroundings raw cid text
    (books.session.onHandler fun handler => { handler with inferenceRx := none })
  have same := @track_answered_same crates surroundings.clock (stableIdOf crates raw)
    (books.session.onHandler fun handler => { handler with inferenceRx := none }).handler
  rw [← handler] at same
  constructor
  · simp only [same.queue]
    exact ended.past
  · exact ended.distinct
  · simp only [same.seen]
    exact ended.seen
  · simp only [same.queue]
    exact ended.named
  · simp only [same.inference]
    exact ended.flight
  · exact sound.answers.append (.refl _)
  · intro id open_
    -- only the reward of the answered id is forgotten
    have other : id ≠ stableIdOf crates raw := by
      rintro rfl
      simp at open_
    simp only [handler, track_answered_lookup surroundings.clock other]
    exact sound.held id fun done => open_ (List.mem_append_left _ done)

theorem poll_follow (surroundings : Surroundings) {books : Books} (sound : Sound crates books) :
    Sound crates (books.follow crates (.poll surroundings)) := by
  have unmoved (kept : (pollInference crates surroundings books.session).1 = books.session)
      (unfinished : finished books.session (.poll surroundings) = none)
      (unanswered : answered books.session (.poll surroundings) = none) :
      Sound crates (books.follow crates (.poll surroundings)) := by
    rw [follow_unmoved (.poll surroundings) books kept rfl rfl unfinished unanswered rfl]
    exact sound
  have unanswered (raw : List UInt8) (waiting : books.session.handler.inferenceRx = some raw)
      (polled : (pollInference crates surroundings books.session).1 =
        books.session.onHandler fun handler => { handler with inferenceRx := none })
      (done : finished books.session (.poll surroundings) = some raw)
      (silent : answered books.session (.poll surroundings) = none) :
      Sound crates (books.follow crates (.poll surroundings)) := by
    have followed : books.follow crates (.poll surroundings) = { books with
        session := books.session.onHandler fun handler => { handler with inferenceRx := none }
        ended := books.ended ++ [stableIdOf crates raw] } := by
      simp [Books.follow, aiStep, polled, NodeSession.onHandler, addedRequests, startedIds,
        scannedRewards, done, silent]
    rw [followed]
    exact finish_sound sound waiting
  cases waiting : books.session.handler.inferenceRx with
  | none =>
      apply unmoved
      · simp [pollInference, waiting]
      · simp only [finished, waiting]
        split <;> rfl
      · simp only [answered, waiting]
        split <;> rfl
  | some raw =>
      cases outcome : surroundings.inference with
      | empty =>
          apply unmoved
          · simp [pollInference, waiting, outcome]
          · simp [finished, outcome]
          · simp [answered, outcome]
      | closed =>
          apply unmoved
          · simp [pollInference, waiting, outcome]
          · simp [finished, outcome]
          · simp [answered, outcome]
      | result text =>
          cases text with
          | none =>
              apply unanswered raw waiting
              · simp [pollInference, waiting, outcome]
              · simp [finished, waiting, outcome]
              · simp [answered, outcome]
          | some text =>
              cases upload : surroundings.upload with
              | error _ =>
                  apply unanswered raw waiting
                  · simp [pollInference, waiting, outcome, upload]
                  · simp [finished, waiting, outcome]
                  · simp [answered, outcome, upload]
              | ok cid =>
                  have same := @track_answered_same crates surroundings.clock
                    (stableIdOf crates raw) (books.session.onHandler fun handler =>
                      { handler with inferenceRx := none }).handler
                  rw [← submit_response_handler surroundings raw cid text] at same
                  have queue := same.queue
                  simp only [NodeSession.onHandler] at queue
                  have followed : books.follow crates (.poll surroundings) = { books with
                      session := submitResponse crates surroundings raw cid text
                        (books.session.onHandler fun handler => { handler with inferenceRx := none })
                      ended := books.ended ++ [stableIdOf crates raw]
                      answers := books.answers ++ [stableIdOf crates raw] } := by
                    simp [Books.follow, aiStep, pollInference, queue, NodeSession.onHandler,
                      addedRequests, startedIds, finished, answered, scannedRewards, waiting,
                      outcome, upload]
                  rw [followed]
                  exact answer_sound sound waiting surroundings cid text

theorem elsewhere_follow (other : NodeSession) {books : Books} (sound : Sound crates books) :
    Sound crates (books.follow crates (.elsewhere other)) := by
  rw [follow_unmoved (.elsewhere other) books rfl rfl rfl rfl rfl rfl]
  exact ⟨sound.past, sound.distinct, sound.seen, sound.named, sound.flight, sound.answers,
    sound.held⟩

theorem follow_sound (event : AiEvent) {books : Books} (sound : Sound crates books) :
    Sound crates (books.follow crates event) := by
  cases event with
  | scan slm txs => exact scan_follow slm txs sound
  | start slm => exact start_follow slm sound
  | poll surroundings => exact poll_follow surroundings sound
  | elsewhere other => exact elsewhere_follow other sound

/-! Answers. -/

theorem last_held_some {rewards : List Reward} {id : String} {held : String × UInt64}
    (last : lastHeld rewards id = some held) :
    ∃ other ∈ rewards, other.accepted = true ∧ other.stableId = id ∧
      other.txid = some held.1 ∧ other.amount = held.2 := by
  obtain ⟨other, scanned, own⟩ := List.mem_filterMap.mp (List.mem_of_getLast? last)
  split at own
  · rename_i accepted
    obtain ⟨txid, known, rfl⟩ := Option.map_eq_some_iff.mp own
    exact ⟨other, scanned, accepted.1, accepted.2, known, rfl⟩
  · cases own

theorem last_held_known {rewards : List Reward} {other : Reward} (scanned : other ∈ rewards)
    (accepted : other.accepted = true) (known : other.txid.isSome = true) :
    ∃ held, lastHeld rewards other.stableId = some held := by
  obtain ⟨txid, known⟩ := Option.isSome_iff_exists.mp known
  apply Option.isSome_iff_exists.mp
  unfold lastHeld
  rw [List.getLast?_isSome]
  apply List.ne_nil_of_mem (a := (txid, other.amount))
  exact List.mem_filterMap.mpr ⟨other, scanned, by simp [accepted, known]⟩

theorem calls_mem {handler : KeryxdHandler} {stableId : String} {call : String × UInt64}
    (called : call ∈ trackCalls handler stableId) :
    handler.escrowWatcher.isSome = true ∧ handler.aiRequestTxids.lookup stableId = some call := by
  unfold trackCalls at called
  split at called
  · rename_i watched
    exact ⟨watched, Option.mem_toList.mp called⟩
  · cases called

theorem answered_flight {session : NodeSession} {event : AiEvent} {raw : List UInt8}
    (done : answered session event = some raw) : session.handler.inferenceRx = some raw := by
  unfold answered at done
  split at done
  · split at done
    · exact done
    · cases done
  · cases done

theorem tracked_iff (event : AiEvent) {books : Books} (sound : Sound crates books) :
    OneTransaction crates books event ↔ RewardsTracked crates books event := by
  constructor
  · intro one raw done reward scanned own
    -- the map holds the last accepted reward, which is the same as this one
    obtain ⟨watched, known, ⟨other, otherScanned, otherOwn, accepted⟩, same⟩ :=
      one raw done reward scanned own
    obtain ⟨txid, known⟩ := Option.isSome_iff_exists.mp known
    obtain ⟨held, last⟩ := last_held_known otherScanned accepted
      (by rw [(same other otherScanned otherOwn).1, known]; rfl)
    obtain ⟨kept, keptScanned, _, keptOwn, keptTxid, keptAmount⟩ := last_held_some last
    obtain ⟨sameTxid, sameAmount⟩ := same kept keptScanned (keptOwn.trans otherOwn)
    have heldReward : held = (txid, reward.amount) := by
      rw [known, keptTxid] at sameTxid
      exact Prod.ext (Option.some.inj sameTxid) (keptAmount.symm.trans sameAmount)
    have lookup := sound.held _ (sound.flight_open (answered_flight done))
    rw [← otherOwn, last, heldReward] at lookup
    refine ⟨txid, known, ?_⟩
    rw [trackCalls, if_pos watched, own, ← otherOwn, lookup]
    exact List.mem_singleton_self _
  · intro tracked raw done reward scanned own
    -- there is one call, so every reward of the id is the one that is held
    have lookup := sound.held _ (sound.flight_open (answered_flight done))
    have calls (other : Reward) (otherScanned : other ∈ books.rewards)
        (otherOwn : other.stableId = stableIdOf crates raw) :
        books.session.handler.escrowWatcher.isSome = true ∧ ∃ txid, other.txid = some txid ∧
          lastHeld books.rewards (stableIdOf crates raw) = some (txid, other.amount) := by
      obtain ⟨txid, known, called⟩ := tracked raw done other otherScanned otherOwn
      obtain ⟨watched, held⟩ := calls_mem called
      rw [otherOwn, lookup] at held
      exact ⟨watched, txid, known, held⟩
    obtain ⟨watched, txid, known, last⟩ := calls reward scanned own
    obtain ⟨kept, keptScanned, accepted, keptOwn, _⟩ := last_held_some last
    refine ⟨watched, by rw [known]; rfl, ⟨kept, keptScanned, keptOwn, accepted⟩, ?_⟩
    intro other otherScanned otherOwn
    obtain ⟨_, otherTxid, otherKnown, otherLast⟩ := calls other otherScanned otherOwn
    obtain ⟨rfl, amounts⟩ := Prod.mk.inj (Option.some.inj (otherLast.symm.trans last))
    exact ⟨otherKnown.trans known.symm, amounts⟩

/-- The calls on the watcher are those of `trackCalls`. -/
theorem track_answered_calls (clock : Clock) (stableId : String) (handler : KeryxdHandler) :
    (trackAnswered crates clock stableId handler).escrowWatcher =
      handler.escrowWatcher.map fun watcher =>
        (trackCalls handler stableId).foldl (fun watcher call =>
          (operate crates.escrow watcher
            (.trackInferenceEscrow call.1 handler.lastKnownDaa call.2, clock)).watcher) watcher := by
  unfold trackAnswered trackCalls
  cases held : handler.aiRequestTxids.lookup stableId with
  | none => cases handler.escrowWatcher <;> simp
  | some call => cases watched : handler.escrowWatcher <;> simp

theorem answered_handler {surroundings : Surroundings} {session : NodeSession} {raw : List UInt8}
    (done : answered session (.poll surroundings) = some raw) :
    (aiStep crates session (.poll surroundings)).handler =
      trackAnswered crates surroundings.clock (stableIdOf crates raw)
        { session.handler with inferenceRx := none } := by
  have waiting := answered_flight done
  unfold answered at done
  dsimp only at done
  split at done
  · rename_i text cid result uploaded
    simp only [aiStep, pollInference, waiting, result, uploaded]
    rw [submit_response_handler]
    rfl
  · cases done

theorem tracked_outpoint (clock : Clock) (txid : String) (confirmDaa : UInt64) {amount : UInt64}
    (positive : 0 < amount) (watcher : EscrowWatcher) :
    outpointKey txid 1 ∈ (operate crates.escrow watcher
      (.trackInferenceEscrow txid confirmDaa amount, clock)).watcher.outpointSet := by
  have paid : amount ≠ 0 := by
    rintro rfl
    exact absurd positive (by decide)
  simp only [operate, trackInferenceEscrow, paid, false_or]
  split
  · assumption
  · unfold maybeFlush
    split <;> simp [markDirty]

/-- A tracked reward is in the watcher's set from the answer on. -/
theorem rewards_tracked_outpoint {books : Books} {surroundings : Surroundings}
    (tracked : RewardsTracked crates books (.poll surroundings)) {raw : List UInt8}
    (done : answered books.session (.poll surroundings) = some raw) {reward : Reward}
    (scanned : reward ∈ books.rewards) (own : reward.stableId = stableIdOf crates raw) :
    ∃ txid watcher, reward.txid = some txid ∧
      (aiStep crates books.session (.poll surroundings)).handler.escrowWatcher = some watcher ∧
      outpointKey txid 1 ∈ watcher.outpointSet := by
  obtain ⟨txid, known, called⟩ := tracked raw done reward scanned own
  obtain ⟨watched, held⟩ := calls_mem called
  obtain ⟨watcher, watched⟩ := Option.isSome_iff_exists.mp watched
  have calls : trackCalls { books.session.handler with inferenceRx := none } reward.stableId =
      [(txid, reward.amount)] := by
    simp [trackCalls, watched, held]
  refine ⟨txid, _, known, ?_, @tracked_outpoint crates surroundings.clock txid
    books.session.handler.lastKnownDaa _ reward.positive watcher⟩
  rw [answered_handler done, track_answered_calls, ← own, calls, watched]
  rfl

theorem requests_tracked_iff (options : NodeOptions) (workers : Nat) (events : List AiEvent) :
    (∀ last, runFrom (booksStep crates) (Books.opened options workers) events = some last →
      last.queued.Nodup ∧ last.inferred.Nodup) ∧
    (EveryStep (booksStep crates) (fun before event _ => OneTransaction crates before event)
        (Books.opened options workers) events ↔
      EveryStep (booksStep crates) (fun before event _ => RewardsTracked crates before event)
        (Books.opened options workers) events) := by
  have keeps (before : Books) (event : AiEvent) (after : Books) (sound : Sound crates before)
      (stepped : booksStep crates before event = some after) : Sound crates after := by
    obtain rfl := Option.some.inj stepped
    exact follow_sound event sound
  constructor
  · intro last ran
    have sound := invariant_end (Sound crates)
      (fun before event after sound stepped _ => keeps before event after sound stepped)
      events _ last (opened_sound options workers) (every_step_trivial events _) ran
    exact ⟨sound.distinct, sound.inferred_nodup⟩
  · apply every_step_iff (Sound crates)
    · exact fun before event after sound stepped _ => keeps before event after sound stepped
    · exact fun before event after sound _ => tracked_iff event sound
    · exact opened_sound options workers

end History

/-! Messages and ticks. -/

structure SameBooks (before after : KeryxdHandler) : Prop extends SameRequests before after where
  table : after.aiRequestTxids = before.aiRequestTxids
  watched : after.escrowWatcher.isSome = before.escrowWatcher.isSome

theorem elsewhere_same {session other : NodeSession}
    (same : SameBooks session.handler other.handler) : elsewhere session other = other := by
  have watcher : (session.handler.escrowWatcher.map fun watcher =>
      other.handler.escrowWatcher.getD watcher) = other.handler.escrowWatcher := by
    have watched := same.watched
    cases before : session.handler.escrowWatcher with
    | none =>
        rw [before] at watched
        exact (Option.isSome_eq_false_iff.mp watched |> Option.isNone_iff_eq_none.mp).symm
    | some watcher =>
        rw [before] at watched
        obtain ⟨after, own⟩ := Option.isSome_iff_exists.mp watched
        rw [own]
        rfl
  simp only [elsewhere, watcher, ← same.queue, ← same.seen, ← same.table, ← same.inference]

theorem SameBooks.refl (handler : KeryxdHandler) : SameBooks handler handler :=
  ⟨⟨rfl, rfl, rfl⟩, rfl, rfl⟩

theorem SameBooks.trans {first second third : KeryxdHandler} (left : SameBooks first second)
    (right : SameBooks second third) : SameBooks first third where
  queue := right.queue.trans left.queue
  seen := right.seen.trans left.seen
  inference := right.inference.trans left.inference
  table := right.table.trans left.table
  watched := right.watched.trans left.watched

section Client
variable (crates : NodeCrates) (surroundings : Surroundings)

def blockEvents (block : RpcBlock) : List AiEvent :=
  [.scan surroundings.slm block.transactions, .start surroundings.slm]

def challengedSession (template : TemplateResponse) (session : NodeSession) : NodeSession :=
  session.onHandler fun handler => startChallenge crates surroundings
    template.inferenceChallenge (trackDaa template.block handler)

def templateEvents (template : TemplateResponse) (session : NodeSession) : List AiEvent :=
  let challenged := challengedSession crates surroundings template session
  .elsewhere challenged :: .poll surroundings ::
    if (pollInference crates surroundings challenged).2 ∨ surroundings.slm.loadedModelIds = [] then
      []
    else
      [.scan surroundings.slm ((template.block.map (·.transactions)).getD []),
        .start surroundings.slm]

/-- What a message does with AI requests. -/
def messageEvents (payload : Payload) (session : NodeSession) : List AiEvent :=
  match payload with
  | .blockAddedNotification (some block) =>
      if block.transactions ≠ [] then blockEvents surroundings block else []
  | .getBlockResponse none (some block) => blockEvents surroundings block
  | .getBlockTemplateResponse template => templateEvents crates surroundings template session
  | _ => []

def tickEvents : List AiEvent := [.poll surroundings]

theorem client_send_same (request : Request) (session : NodeSession) :
    SameBooks session.handler (clientSend surroundings request session).1.handler := by
  rw [(client_send_session surroundings request session).1]
  exact .refl _

theorem get_template_same (session : NodeSession) :
    SameBooks session.handler (clientGetBlockTemplate surroundings session).1.handler := by
  have harvested : SameBooks session.handler
      (harvest surroundings.challenge (countTemplate session.handler)).1 := by
    obtain ⟨_, frame⟩ := harvest_frame surroundings.challenge (countTemplate session.handler)
    rw [frame]
    exact ⟨⟨rfl, rfl, rfl⟩, rfl, rfl⟩
  unfold clientGetBlockTemplate
  exact harvested.trans (client_send_same surroundings _
    { session with handler := (harvest surroundings.challenge (countTemplate session.handler)).1 })

theorem info_same (session : NodeSession) :
    SameBooks session.handler (handleInfo surroundings session).1.handler :=
  info_related surroundings (fun before after => SameBooks before.handler after.handler)
    SameBooks.trans (client_send_same surroundings _) (client_send_same surroundings _)
    (get_template_same surroundings) session

theorem submit_response_same (error : Option String) (session : NodeSession) :
    SameBooks session.handler (handleSubmitResponse crates surroundings error session).1.handler := by
  unfold handleSubmitResponse
  split
  · exact .refl _
  · rename_i watcher watched
    split
    · exact ⟨⟨rfl, rfl, rfl⟩, rfl, by simp [NodeSession.onHandler, watched]⟩
    · exact .refl _

theorem fetch_block_same (block : RpcBlock) (session : NodeSession) :
    SameBooks session.handler (fetchBlock surroundings block session).1.handler := by
  unfold fetchBlock
  dsimp only
  split
  · exact client_send_same surroundings _ session
  · exact .refl _

theorem mine_template_same (template : TemplateResponse) (session : NodeSession) :
    SameBooks session.handler (mineTemplate crates template session).1.handler := by
  unfold mineTemplate
  split
  · exact .refl _
  · split <;> exact .refl _
  · exact .refl _
  · exact .refl _
  · exact .refl _

theorem challenged_same (template : TemplateResponse) (session : NodeSession) :
    SameBooks session.handler (challengedSession crates surroundings template session).handler := by
  obtain ⟨_, tracked⟩ := track_daa_frame template.block session.handler
  obtain ⟨_, started⟩ := start_challenge_frame crates surroundings template.inferenceChallenge
    (trackDaa template.block session.handler)
  rw [challengedSession, NodeSession.onHandler, started, tracked]
  exact ⟨⟨rfl, rfl, rfl⟩, rfl, rfl⟩

theorem full_block_events (block : RpcBlock) (session : NodeSession) :
    SameBooks ((blockEvents surroundings block).foldl (aiStep crates) session).handler
      (handleFullBlock crates surroundings block session).1.handler := by
  unfold handleFullBlock
  dsimp only
  split
  · exact .refl _
  · rename_i watcher watched
    have handled : SameBooks ((blockEvents surroundings block).foldl (aiStep crates) session).handler
        { ((blockEvents surroundings block).foldl (aiStep crates) session).handler with
          escrowWatcher := some (operate crates.escrow watcher
            (.handleBlock block, surroundings.clock)).watcher } :=
      ⟨⟨rfl, rfl, rfl⟩, rfl, (congrArg Option.isSome watched).symm⟩
    split
    · exact handled
    · rename_i claim _
      exact handled.trans (client_send_same surroundings (.submitTransaction claim)
        (((blockEvents surroundings block).foldl (aiStep crates) session).onHandler fun handler =>
          { handler with escrowWatcher := some (operate crates.escrow watcher
            (.handleBlock block, surroundings.clock)).watcher }))

/-- The end of a template response. -/
def afterPoll (template : TemplateResponse) (result : NodeSession × Bool) :
    NodeSession × Except String Unit :=
  let (polled, finished) := result
  if finished then clientGetBlockTemplate surroundings polled
  else if surroundings.slm.loadedModelIds = [] then publish none polled
  else
    let started := polled.onHandler fun handler =>
      tryStartInference surroundings.slm (scanTemplate crates surroundings template handler)
    if Occupied started.handler then publish none started
    else mineTemplate crates template started

theorem scan_template_event (template : TemplateResponse) (session : NodeSession) :
    aiStep crates session
        (.scan surroundings.slm ((template.block.map (·.transactions)).getD [])) =
      session.onHandler (scanTemplate crates surroundings template) := by
  simp only [aiStep, NodeSession.onHandler, scanTemplate]
  cases template.block with
  | none => simp [scanTxsForAiRequests]
  | some block => rfl

theorem template_events (template : TemplateResponse) (session : NodeSession) :
    SameBooks ((templateEvents crates surroundings template session).foldl (aiStep crates)
        session).handler
      (handleTemplate crates surroundings template session).1.handler := by
  have challenged := elsewhere_same (challenged_same crates surroundings template session)
  have polled : aiStep crates (aiStep crates session
      (.elsewhere (challengedSession crates surroundings template session))) (.poll surroundings) =
      (pollInference crates surroundings
        (challengedSession crates surroundings template session)).1 :=
    congrArg (fun other => (pollInference crates surroundings other).1) challenged
  simp only [templateEvents, List.foldl_cons, polled]
  change SameBooks _ (afterPoll crates surroundings template
    (pollInference crates surroundings (challengedSession crates surroundings template session))
      ).1.handler
  generalize pollInference crates surroundings
    (challengedSession crates surroundings template session) = result
  obtain ⟨after, status⟩ := result
  cases status with
  | true => exact get_template_same surroundings after
  | false =>
      by_cases unloaded : surroundings.slm.loadedModelIds = []
      · rw [if_pos (Or.inr unloaded)]
        simp only [afterPoll, Bool.false_eq_true, if_false, if_pos unloaded]
        exact .refl _
      · rw [if_neg (by simp [unloaded])]
        simp only [afterPoll, Bool.false_eq_true, if_false, if_neg unloaded, List.foldl_cons,
          List.foldl_nil, scan_template_event]
        split
        · exact .refl _
        · exact mine_template_same crates template _

theorem message_same (payload : Payload) (session : NodeSession) :
    SameBooks ((messageEvents crates surroundings payload session).foldl (aiStep crates)
        session).handler
      (handleMessage crates surroundings payload session).1.handler := by
  cases payload with
  | blockAddedNotification block =>
      cases block with
      | none => exact .refl _
      | some block =>
          simp only [messageEvents, handleMessage, handleBlockAdded]
          split
          · exact full_block_events crates surroundings block session
          · exact fetch_block_same surroundings block session
  | newBlockTemplateNotification => exact get_template_same surroundings session
  | getBlockTemplateResponse template =>
      exact template_events crates surroundings template session
  | getBlockResponse error block =>
      cases error with
      | some _ => exact .refl _
      | none =>
          cases block with
          | none => exact .refl _
          | some block => exact full_block_events crates surroundings block session
  | submitTransactionResponse error => exact submit_response_same crates surroundings error session
  | getInfoResponse => exact info_same surroundings session
  | submitBlockResponse _ => exact .refl _
  | notifyNewBlockTemplateResponse _ => exact .refl _
  | notifyBlockAddedResponse _ => exact .refl _
  | unknown => exact .refl _

/-- A message is a run of the events, and so is a tick. -/
theorem message_events (payload : Payload) (session : NodeSession) :
    (messageEvents crates surroundings payload session ++
        [AiEvent.elsewhere (handleMessage crates surroundings payload session).1]).foldl (aiStep crates)
      session = (handleMessage crates surroundings payload session).1 := by
  rw [List.foldl_append]
  exact elsewhere_same (message_same crates surroundings payload session)

theorem tick_events (session : NodeSession) :
    (tickEvents surroundings ++
        [AiEvent.elsewhere (handleTick crates surroundings session).1]).foldl (aiStep crates) session =
      (handleTick crates surroundings session).1 := by
  apply elsewhere_same
  unfold handleTick
  dsimp only
  split
  · exact get_template_same surroundings _
  · split
    · exact get_template_same surroundings _
    · exact .refl _

end Client

/-! Two transactions that pay for one payload. -/

def paidBytes : List UInt8 := List.replicate 36 0 ++ 1 :: List.replicate 15 0

def paidDigest : Bytes 64 where
  items := [0x39, 0xcb, 0x35, 0xc0, 0xe6, 0x30, 0x55, 0x19,
    0xd3, 0xf1, 0x92, 0x85, 0xa5, 0x57, 0x27, 0xde,
    0x88, 0x6c, 0x86, 0x87, 0x9f, 0x19, 0xb1, 0xd6,
    0xe2, 0x55, 0xc3, 0x36, 0x15, 0xfd, 0x39, 0xc6,
    0xe6, 0x95, 0x92, 0xde, 0x0b, 0xde, 0x79, 0x25,
    0xf0, 0xfa, 0xd6, 0xaa, 0xf2, 0x5e, 0xd5, 0xe5,
    0xee, 0x6c, 0x09, 0x89, 0x94, 0x6c, 0xc3, 0xa3,
    0xee, 0xa0, 0x11, 0xa2, 0x7d, 0xe8, 0x8c, 0xf9]
  sized := rfl

def paidCrates : NodeCrates :=
  { TransactionIds.hexCrates with
    blake2b := fun data => if data = paidBytes then paidDigest else zeroBytes 64 }

def paidTransaction (digit : Char) : RpcTransaction where
  version := 0
  inputs := []
  outputs := []
  lockTime := 0
  subnetworkId := subnetworkIdAiRequestHex
  gas := 0
  payload := hexText paidBytes
  mass := 0
  verboseData := some ⟨String.ofList (List.replicate 64 digit)⟩

def watchedOptions : NodeOptions :=
  { nodeOptions with
    escrowWatcher := some {
      account := EscrowEffects.sampleAccount
      state := ⟨[]⟩
      pendingClaimTxid := none
      pendingClaimOutputIndex := none
      lastDaaScore := 0
      outpointSet := []
      blockIndex := fun _ => []
      dirty := false
      lastSave := 0
      blocksSinceCompact := 0 } }

theorem reward_lost :
    ¬ EveryStep (booksStep paidCrates) (fun before event _ => RewardsTracked paidCrates before event)
      (Books.opened watchedOptions 1)
      [.scan calm.slm [paidTransaction 'a', paidTransaction 'b'], .start calm.slm,
        .poll { calm with inference := .result (some "a miner"), upload := .ok (zeroBytes 34) }] := by
  intro tracked
  obtain ⟨-, scanned⟩ := tracked _ rfl
  obtain ⟨-, started⟩ := scanned _ rfl
  obtain ⟨lost, -⟩ := started _ rfl
  obtain ⟨txid, known, called⟩ := lost paidBytes (by decide +kernel)
    ⟨stableIdOf paidCrates paidBytes, some (String.ofList (List.replicate 64 'a')), 1, by decide,
      true⟩ (by decide +kernel) rfl
  obtain rfl := Option.some.inj known
  exact absurd called (by decide +kernel)

end KeryxMiner.RequestBooks
