import KeryxMiner.EscrowEffects
import KeryxMiner.TransitionRuns

/-!
One connection of `src/client/grpc.rs`, as far as it submits transactions: claims
of the escrow watcher and `AiResponse` transactions share one request and one
reply type. The node answers the requests in the order they were sent.
-/

namespace KeryxMiner.SubmitReplies

open RpcMessages Escrow EscrowEffects TransitionRuns

def subnetworkIdAiResponseHex : String := "0400000000000000000000000000000000000000"

structure KeryxdHandler where
  escrowWatcher : Option EscrowWatcher
  lastKnownDaa : UInt64

structure Connection where
  handler : KeryxdHandler
  /-- Submitted and not yet answered, oldest first. -/
  outstanding : List RpcTransaction
  closed : Bool

/-- `escrow` is what a watcher is made of: the account, the loaded state, the clock. -/
def Connection.opened (escrow : Option (ClaimAccount × EscrowState × Nat)) : Connection where
  handler := {
    escrowWatcher := escrow.map fun e => EscrowWatcher.loaded e.1 e.2.1 e.2.2
    lastKnownDaa := 0 }
  outstanding := []
  closed := false

inductive Event where
  /-- A block with its transactions, notified or fetched. -/
  | block (block : RpcBlock) (clock : Clock) (sent : Bool)
  | template (daaScore : UInt64)
  /-- An inference has finished; `registered` is what its request was filed under. -/
  | inference (payload : String) (registered : Option (String × UInt64)) (clock : Clock)
      (sent : Bool)
  | reply (error : Option String) (clock : Clock)

def submit (tx : RpcTransaction) (connection : Connection) : Connection :=
  { connection with outstanding := connection.outstanding ++ [tx] }

/-- A claim that cannot be sent ends the connection. -/
def onBlock (crates : Crates) (clock : Clock) (block : RpcBlock) (sent : Bool)
    (connection : Connection) : Connection :=
  match connection.handler.escrowWatcher with
  | none => connection
  | some watcher =>
      let outcome := handleBlock crates clock block watcher
      let handled := { connection with handler.escrowWatcher := some outcome.watcher }
      match outcome.claim with
      | none => handled
      | some tx => if sent then submit tx handled else { handled with closed := true }

def onTemplate (daaScore : UInt64) (connection : Connection) : Connection :=
  if connection.handler.lastKnownDaa < daaScore then
    { connection with handler.lastKnownDaa := daaScore }
  else connection

def aiResponseTx (payload : String) : RpcTransaction where
  version := 0
  inputs := []
  outputs := []
  lockTime := 0
  subnetworkId := subnetworkIdAiResponseHex
  gas := 0
  payload := payload
  mass := 0
  verboseData := none

/-- The end of `poll_inference`; a failed send is only logged. -/
def pollInference (clock : Clock) (payload : String) (registered : Option (String × UInt64))
    (sent : Bool) (connection : Connection) : Connection :=
  let answered := if sent then submit (aiResponseTx payload) connection else connection
  match registered, answered.handler.escrowWatcher with
  | some (txid, inferenceReward), some watcher =>
      let (watcher, _) :=
        trackInferenceEscrow clock txid answered.handler.lastKnownDaa inferenceReward watcher
      { answered with handler.escrowWatcher := some watcher }
  | _, _ => answered

def onReply (clock : Clock) (error : Option String) (connection : Connection) : Connection :=
  match connection.handler.escrowWatcher with
  | none => connection
  | some watcher =>
      -- whichever request was answered, the answer is taken for the claim's
      if watcher.pendingClaimTxid.isSome then
        { connection with handler.escrowWatcher := some (onSubmitResponse clock error watcher).1 }
      else connection

def connectionStep (crates : Crates) (connection : Connection) (event : Event) :
    Option Connection :=
  if connection.closed then none
  else
    match event with
    | .block block clock sent => some (onBlock crates clock block sent connection)
    | .template daaScore => some (onTemplate daaScore connection)
    | .inference payload registered clock sent =>
        some (pollInference clock payload registered sent connection)
    | .reply error clock =>
        match connection.outstanding with
        | [] => none
        | _ :: rest => some (onReply clock error { connection with outstanding := rest })

/-! What a step can be. -/

inductive Step (crates : Crates) (before : Connection) : Event → Connection → Prop where
  | block (block : RpcBlock) (clock : Clock) (sent : Bool) :
      Step crates before (.block block clock sent) (onBlock crates clock block sent before)
  | template (daaScore : UInt64) :
      Step crates before (.template daaScore) (onTemplate daaScore before)
  | inference (payload : String) (registered : Option (String × UInt64)) (clock : Clock)
      (sent : Bool) : Step crates before (.inference payload registered clock sent)
        (pollInference clock payload registered sent before)
  | reply (error : Option String) (clock : Clock) (tx : RpcTransaction)
      (rest : List RpcTransaction) (oldest : before.outstanding = tx :: rest) :
      Step crates before (.reply error clock)
        (onReply clock error { before with outstanding := rest })

theorem connection_step {crates : Crates} {before after : Connection} {event : Event}
    (stepped : connectionStep crates before event = some after) :
    before.closed = false ∧ Step crates before event after := by
  unfold connectionStep at stepped
  split at stepped
  · contradiction
  · rename_i still_open
    refine ⟨by simpa using still_open, ?_⟩
    cases event with
    | block block clock sent =>
        obtain rfl := Option.some.inj stepped
        exact .block block clock sent
    | template daaScore =>
        obtain rfl := Option.some.inj stepped
        exact .template daaScore
    | inference payload registered clock sent =>
        obtain rfl := Option.some.inj stepped
        exact .inference payload registered clock sent
    | reply error clock =>
        cases oldest : before.outstanding with
        | nil => simp [oldest] at stepped
        | cons tx rest =>
            simp only [oldest] at stepped
            obtain rfl := Option.some.inj stepped
            exact .reply error clock tx rest oldest

/-! Attribution. -/

/-- What an answer to `tx` may do to an entry. -/
structure EntryAttributed (tx : RpcTransaction) (error : Option String)
    (before after : EscrowEntry) : Prop where
  accepted : after.claimed ≠ before.claimed →
    error = none ∧ SpendsOnly tx ⟨before.coinbaseTxid, before.outputIndex⟩
  rejected : after.slashed ≠ before.slashed ∨
      after.orphanRetryAfterDaa ≠ before.orphanRetryAfterDaa ∨
      after.orphanRetries ≠ before.orphanRetries →
    error ≠ none ∧ SpendsOnly tx ⟨before.coinbaseTxid, before.outputIndex⟩

def AnswerAttributed (tx : RpcTransaction) (error : Option String)
    (before after : List EscrowEntry) : Prop :=
  after.length = before.length ∧ ∀ (i : Nat) (e changed : EscrowEntry),
    before[i]? = some e → after[i]? = some changed → EntryAttributed tx error e changed

/-- A reply changes entries only as an answer to the oldest request; no other
event makes an entry claimed. -/
def Attributed (before : Connection) (event : Event) (after : Connection) : Prop :=
  ∀ watcher next, before.handler.escrowWatcher = some watcher →
    after.handler.escrowWatcher = some next →
    match event with
    | .reply error _ => ∀ tx rest, before.outstanding = tx :: rest →
        AnswerAttributed tx error watcher.state.entries next.state.entries
    | _ => ∀ e ∈ next.state.entries, e.claimed = true → e ∈ watcher.state.entries

/-- The answer to a transaction without inputs finds no claim in flight. -/
def Unambiguous (before : Connection) (event : Event) (_ : Connection) : Prop :=
  match event with
  | .reply _ _ => ∀ tx rest watcher, before.outstanding = tx :: rest →
      before.handler.escrowWatcher = some watcher → tx.inputs = [] →
      watcher.pendingClaimTxid = none
  | _ => True

/-- The only unanswered claim is the one in flight. -/
def PairedWith (watcher : EscrowWatcher) (outstanding : List RpcTransaction) : Prop :=
  match watcher.pendingClaimTxid with
  | none => ∀ tx ∈ outstanding, tx.inputs = []
  | some txid => ∃ earlier claim later index, outstanding = earlier ++ claim :: later ∧
      (∀ tx ∈ earlier ++ later, tx.inputs = []) ∧
      watcher.pendingClaimOutputIndex = some index ∧ SpendsOnly claim ⟨txid, index⟩

def Paired (connection : Connection) : Prop :=
  connection.closed = false → ∀ watcher, connection.handler.escrowWatcher = some watcher →
    PairedWith watcher connection.outstanding

theorem paired_same_claim {before after : EscrowWatcher} {outstanding : List RpcTransaction}
    (same : SameClaim before after) (paired : PairedWith before outstanding) :
    PairedWith after outstanding := by
  rwa [PairedWith, same.txid, same.index]

theorem paired_answer_tx {watcher : EscrowWatcher} {outstanding : List RpcTransaction}
    (paired : PairedWith watcher outstanding) (payload : String) :
    PairedWith watcher (outstanding ++ [aiResponseTx payload]) := by
  cases pending : watcher.pendingClaimTxid with
  | none =>
      simp only [PairedWith, pending] at paired ⊢
      intro tx member
      rcases List.mem_append.mp member with old | new
      · exact paired tx old
      · rw [List.mem_singleton.mp new]
        rfl
  | some txid =>
      simp only [PairedWith, pending] at paired ⊢
      obtain ⟨earlier, claim, later, index, rfl, others, at_index, spends⟩ := paired
      refine ⟨earlier, claim, later ++ [aiResponseTx payload], index, by simp, ?_, at_index,
        spends⟩
      intro tx member
      rw [← List.append_assoc] at member
      rcases List.mem_append.mp member with old | new
      · exact others tx old
      · rw [List.mem_singleton.mp new]
        rfl

theorem paired_claim {before after : EscrowWatcher} {outpoint : RpcOutpoint}
    {tx : RpcTransaction} {outstanding : List RpcTransaction}
    (submits : Submits before after outpoint tx) (paired : PairedWith before outstanding) :
    PairedWith after (outstanding ++ [tx]) := by
  rw [PairedWith, submits.idle] at paired
  rw [PairedWith, submits.txid]
  exact ⟨outstanding, tx, [], outpoint.index, rfl, by simpa using paired, submits.index,
    submits.spends⟩

theorem paired_answered {watcher next : EscrowWatcher} {tx : RpcTransaction}
    {rest : List RpcTransaction} (paired : PairedWith watcher (tx :: rest))
    (unambiguous : tx.inputs = [] → watcher.pendingClaimTxid = none)
    (answered : watcher.pendingClaimTxid ≠ none → next.pendingClaimTxid = none)
    (ignored : watcher.pendingClaimTxid = none → next = watcher) :
    PairedWith next rest := by
  cases pending : watcher.pendingClaimTxid with
  | none =>
      rw [ignored pending, PairedWith, pending]
      rw [PairedWith, pending] at paired
      exact fun other member => paired other (List.mem_cons_of_mem _ member)
  | some txid =>
      rw [PairedWith, answered (by simp [pending])]
      rw [PairedWith, pending] at paired
      obtain ⟨earlier, claim, later, index, split, others, _, _⟩ := paired
      cases earlier with
      | nil =>
          obtain ⟨rfl, rfl⟩ := List.cons.inj split
          exact others
      | cons first earlier =>
          obtain ⟨rfl, rfl⟩ := List.cons.inj split
          have idle := unambiguous (others tx (by simp))
          rw [pending] at idle
          contradiction

/-- The oldest request answers the claim in flight, if there is one. -/
theorem paired_head {watcher : EscrowWatcher} {tx : RpcTransaction} {rest : List RpcTransaction}
    {txid : String} (paired : PairedWith watcher (tx :: rest))
    (unambiguous : tx.inputs = [] → watcher.pendingClaimTxid = none)
    (pending : watcher.pendingClaimTxid = some txid) :
    ∃ index, watcher.pendingClaimOutputIndex = some index ∧ SpendsOnly tx ⟨txid, index⟩ := by
  rw [PairedWith, pending] at paired
  obtain ⟨earlier, claim, later, index, split, others, at_index, spends⟩ := paired
  cases earlier with
  | nil =>
      obtain ⟨rfl, rfl⟩ := List.cons.inj split
      exact ⟨index, at_index, spends⟩
  | cons first earlier =>
      obtain ⟨rfl, rfl⟩ := List.cons.inj split
      have idle := unambiguous (others tx (by simp))
      rw [pending] at idle
      contradiction

/-! Steps. -/

theorem block_paired (crates : Crates) (clock : Clock) (block : RpcBlock) (sent : Bool)
    (connection : Connection) (opened : connection.closed = false) (paired : Paired connection) :
    Paired (onBlock crates clock block sent connection) := by
  unfold onBlock
  cases present : connection.handler.escrowWatcher with
  | none => exact paired
  | some watcher =>
      have matched := paired opened watcher present
      rcases handle_block_claim crates clock block watcher with
        ⟨nothing, same⟩ | ⟨outpoint, tx, claim, submits⟩
      · simp only [nothing]
        rintro _ next found
        obtain rfl := Option.some.inj found
        exact paired_same_claim same matched
      · simp only [claim]
        cases sent with
        | true =>
            rintro _ next found
            obtain rfl := Option.some.inj found
            exact paired_claim submits matched
        | false =>
            intro open_after
            contradiction

theorem inference_paired (clock : Clock) (payload : String)
    (registered : Option (String × UInt64)) (sent : Bool) (connection : Connection)
    (paired : Paired connection) :
    Paired (pollInference clock payload registered sent connection) := by
  have answered : Paired (if sent then submit (aiResponseTx payload) connection
      else connection) := by
    cases sent with
    | false => exact paired
    | true => exact fun opened watcher present =>
        paired_answer_tx (paired opened watcher present) payload
  unfold pollInference
  dsimp only
  split
  · rename_i txid reward watcher present
    intro opened next found
    obtain rfl := Option.some.inj found
    exact paired_same_claim (track_inference_same_claim ..) (answered opened watcher present)
  · exact answered

theorem reply_paired (clock : Clock) (error : Option String) (connection : Connection)
    (opened : connection.closed = false) (paired : Paired connection) {tx : RpcTransaction}
    {rest : List RpcTransaction} (oldest : connection.outstanding = tx :: rest)
    (unambiguous : ∀ watcher, connection.handler.escrowWatcher = some watcher →
      tx.inputs = [] → watcher.pendingClaimTxid = none) :
    Paired (onReply clock error { connection with outstanding := rest }) := by
  unfold onReply
  cases present : connection.handler.escrowWatcher with
  | none =>
      intro _ next found
      rw [present] at found
      contradiction
  | some watcher =>
      have matched := oldest ▸ paired opened watcher present
      dsimp only
      split
      · rename_i pending
        rintro _ next found
        obtain rfl := Option.some.inj found
        obtain ⟨txid, pending⟩ := Option.isSome_iff_exists.mp pending
        refine paired_answered matched (unambiguous watcher present)
          (fun _ => (submit_answers clock error pending).2.1) (fun idle => ?_)
        rw [pending] at idle
        contradiction
      · rename_i idle
        rintro _ next found
        rw [present] at found
        obtain rfl := Option.some.inj found
        refine paired_answered matched (unambiguous watcher present) (fun waiting => ?_)
          (fun _ => rfl)
        exact absurd (by simpa [Option.isSome_iff_ne_none] using waiting) idle

theorem step_paired (crates : Crates) (before : Connection) (event : Event) (after : Connection)
    (paired : Paired before) (stepped : connectionStep crates before event = some after)
    (unambiguous : Unambiguous before event after) : Paired after := by
  obtain ⟨opened, step⟩ := connection_step stepped
  cases step with
  | block block clock sent => exact block_paired crates clock block sent before opened paired
  | template daaScore =>
      unfold onTemplate
      split <;> exact paired
  | inference payload registered clock sent =>
      exact inference_paired clock payload registered sent before paired
  | reply error clock tx rest oldest =>
      exact reply_paired clock error before opened paired oldest
        fun watcher => unambiguous tx rest watcher oldest

theorem entry_unchanged (tx : RpcTransaction) (error : Option String) (e : EscrowEntry) :
    EntryAttributed tx error e e :=
  ⟨fun differs => absurd rfl differs, by simp⟩

theorem answer_accepted (lastDaaScore : UInt64) (e : EscrowEntry) :
    answerEntry lastDaaScore none e = { e with claimed := true } := rfl

theorem answer_rejected (lastDaaScore : UInt64) (message : String) (e : EscrowEntry) :
    (answerEntry lastDaaScore (some message) e).claimed = e.claimed := by
  have answered := answer_answered lastDaaScore (some message) e
  generalize answerEntry lastDaaScore (some message) e = after at answered
  cases answered with
  | exhausted _ => rfl
  | retries _ => rfl
  | waits => rfl
  | refused => rfl

theorem entry_answered {tx : RpcTransaction} {e : EscrowEntry}
    (spends : SpendsOnly tx ⟨e.coinbaseTxid, e.outputIndex⟩) (lastDaaScore : UInt64)
    (error : Option String) : EntryAttributed tx error e (answerEntry lastDaaScore error e) := by
  cases error with
  | none =>
      refine ⟨fun _ => ⟨rfl, spends⟩, ?_⟩
      rw [answer_accepted]
      simp
  | some message =>
      refine ⟨fun differs => ?_, fun _ => ⟨by simp, spends⟩⟩
      exact absurd (answer_rejected lastDaaScore message e) differs

theorem submit_attributed (clock : Clock) (error : Option String) {watcher : EscrowWatcher}
    {tx : RpcTransaction} {txid : String} {index : UInt32}
    (pending : watcher.pendingClaimTxid = some txid)
    (at_index : watcher.pendingClaimOutputIndex = some index)
    (spends : SpendsOnly tx ⟨txid, index⟩) :
    AnswerAttributed tx error watcher.state.entries
      (onSubmitResponse clock error watcher).1.state.entries := by
  obtain ⟨_, _, entries⟩ := submit_answers clock error pending
  rw [entries, at_index, Option.getD_some]
  refine ⟨update_first_length .., fun i e changed at_before at_after => ?_⟩
  rcases update_first_get _ _ _ i at_before at_after with same | ⟨target, same⟩
  · rw [same]
    exact entry_unchanged tx error e
  · simp only [isOutpoint, Bool.and_eq_true, beq_iff_eq] at target
    obtain ⟨rfl, rfl⟩ := target
    rw [same]
    exact entry_answered spends watcher.lastDaaScore error

theorem reply_attributed (clock : Clock) (error : Option String) (connection : Connection)
    {watcher next : EscrowWatcher} {tx : RpcTransaction} {rest : List RpcTransaction}
    (present : connection.handler.escrowWatcher = some watcher)
    (found : (onReply clock error connection).handler.escrowWatcher = some next)
    (paired : PairedWith watcher (tx :: rest))
    (unambiguous : tx.inputs = [] → watcher.pendingClaimTxid = none) :
    AnswerAttributed tx error watcher.state.entries next.state.entries := by
  simp only [onReply, present] at found
  cases pending : watcher.pendingClaimTxid with
  | none =>
      simp only [pending, Option.isSome_none, Bool.false_eq_true, ↓reduceIte, present] at found
      obtain rfl := Option.some.inj found
      refine ⟨rfl, fun i e changed at_before at_after => ?_⟩
      obtain rfl := Option.some.inj (at_before.symm.trans at_after)
      exact entry_unchanged tx error e
  | some txid =>
      simp only [pending, Option.isSome_some, ↓reduceIte] at found
      obtain rfl := Option.some.inj found
      obtain ⟨index, at_index, spends⟩ := paired_head paired unambiguous pending
      exact submit_attributed clock error pending at_index spends

theorem block_claims_nothing (crates : Crates) (clock : Clock) (block : RpcBlock)
    (watcher : EscrowWatcher) :
    AllEntries (fun e => e.claimed = true → e ∈ watcher.state.entries)
      (handleBlock crates clock block watcher).watcher := by
  refine handle_block_entries crates clock block ?_ watcher (fun e member _ => member) ?_
  · intro e _ unclaimed claimed
    have still : e.claimed = true := claimed
    rw [unclaimed] at still
    contradiction
  · rintro e ⟨_, _, _, _, _, _, _, _, _, _, _, unclaimed, _⟩ claimed
    rw [unclaimed] at claimed
    contradiction

theorem inference_claims_nothing (clock : Clock) (txid : String) (confirmDaa amount : UInt64)
    (watcher : EscrowWatcher) :
    AllEntries (fun e => e.claimed = true → e ∈ watcher.state.entries)
      (trackInferenceEscrow clock txid confirmDaa amount watcher).1 := by
  refine track_inference_entries clock txid confirmDaa amount watcher ?_ fun e member _ => member
  intro _ _ claimed
  contradiction

theorem on_block_watcher (crates : Crates) (clock : Clock) (block : RpcBlock) (sent : Bool)
    {connection : Connection} {watcher : EscrowWatcher}
    (present : connection.handler.escrowWatcher = some watcher) :
    (onBlock crates clock block sent connection).handler.escrowWatcher =
      some (handleBlock crates clock block watcher).watcher := by
  simp only [onBlock, present]
  split
  · rfl
  · cases sent <;> rfl

theorem step_attributed (crates : Crates) (before : Connection) (event : Event)
    (after : Connection) (paired : Paired before)
    (stepped : connectionStep crates before event = some after)
    (unambiguous : Unambiguous before event after) : Attributed before event after := by
  intro watcher next present found
  obtain ⟨opened, step⟩ := connection_step stepped
  cases step with
  | block block clock sent =>
      rw [on_block_watcher crates clock block sent present] at found
      obtain rfl := Option.some.inj found
      exact block_claims_nothing crates clock block watcher
  | template daaScore =>
      have same : (onTemplate daaScore before).handler.escrowWatcher =
          before.handler.escrowWatcher := by
        unfold onTemplate
        split <;> rfl
      rw [same, present] at found
      obtain rfl := Option.some.inj found
      exact fun e member _ => member
  | inference payload registered clock sent =>
      have kept : (if sent then submit (aiResponseTx payload) before
          else before).handler.escrowWatcher = some watcher := by
        cases sent <;> exact present
      cases registered with
      | none =>
          simp only [pollInference, kept] at found
          obtain rfl := Option.some.inj found
          exact fun e member _ => member
      | some registered =>
          simp only [pollInference, kept] at found
          obtain rfl := Option.some.inj found
          exact inference_claims_nothing clock registered.1 _ registered.2 watcher
  | reply error clock tx rest oldest =>
      intro first others answers
      obtain ⟨rfl, rfl⟩ := List.cons.inj (oldest.symm.trans answers)
      exact reply_attributed clock error { before with outstanding := rest } present found
        (oldest ▸ paired opened watcher present)
        (unambiguous tx rest watcher oldest present)

theorem opened_paired (escrow : Option (ClaimAccount × EscrowState × Nat)) :
    Paired (Connection.opened escrow) := by
  intro _ watcher present
  obtain ⟨source, _, rfl⟩ := Option.map_eq_some_iff.mp present
  have idle : (EscrowWatcher.loaded source.1 source.2.1 source.2.2).pendingClaimTxid = none :=
    (rebuild_same_claim _).txid
  rw [PairedWith, idle]
  exact fun tx member => absurd member List.not_mem_nil

/-- In every run of a connection in which the answers to `AiResponse`s find no
claim in flight, every step is attributed to the claim it answers. -/
theorem replies_attributed (crates : Crates)
    (escrow : Option (ClaimAccount × EscrowState × Nat)) (events : List Event)
    (unambiguous :
      EveryStep (connectionStep crates) Unambiguous (Connection.opened escrow) events) :
    EveryStep (connectionStep crates) Attributed (Connection.opened escrow) events :=
  every_step_of_invariant Paired (step_paired crates) (step_attributed crates) events _
    (opened_paired escrow) unambiguous

/-! An `AiResponse` in flight when a claim is submitted. -/

def sampleEscrow : Option (ClaimAccount × EscrowState × Nat) := some (sampleAccount, ⟨[]⟩, 0)

def rewarded : Event := .inference "aa" (some (onesTxid, 1000000000)) ⟨0, 0⟩ true

def maturing : Event :=
  .block
    { header := some { daaScore := 36010 }
      transactions := [{ aiResponseTx "" with verboseData := some { transactionId := twosTxid } }]
      verboseData := none }
    ⟨0, 0⟩ true

def accepting : Event := .reply none ⟨0, 0⟩

theorem replies_attributed_in_turn :
    EveryStep (connectionStep sampleCrates) Attributed (Connection.opened sampleEscrow)
      [rewarded, accepting, maturing, accepting] := by
  refine replies_attributed sampleCrates sampleEscrow _ fun _ stepped => ⟨trivial, ?_⟩
  obtain rfl := Option.some.inj stepped
  refine fun _ stepped => ⟨?_, ?_⟩
  · rintro tx rest watcher _ present _
    obtain rfl := Option.some.inj present
    rfl
  obtain rfl := Option.some.inj stepped
  refine fun _ stepped => ⟨trivial, ?_⟩
  obtain rfl := Option.some.inj stepped
  refine fun _ stepped => ⟨?_, trivial⟩
  rintro tx rest watcher oldest _ inputs
  obtain ⟨rfl, _⟩ := List.cons.inj oldest
  contradiction

theorem reply_misattributed :
    ¬ ∀ (crates : Crates) (escrow : Option (ClaimAccount × EscrowState × Nat))
      (events : List Event),
      EveryStep (connectionStep crates) Attributed (Connection.opened escrow) events := by
  intro claimed
  have run := claimed sampleCrates sampleEscrow
    [rewarded, accepting, .inference "bb" none ⟨0, 0⟩ true, maturing, accepting]
  obtain ⟨_, run⟩ := run _ rfl
  obtain ⟨_, run⟩ := run _ rfl
  obtain ⟨_, run⟩ := run _ rfl
  obtain ⟨_, run⟩ := run _ rfl
  obtain ⟨attributed, _⟩ := run _ rfl
  obtain ⟨_, entries⟩ := attributed _ _ rfl rfl _ _ rfl
  obtain ⟨_, input, inputs, _⟩ := (entries 0 _ _ rfl rfl).accepted (by decide)
  contradiction

end KeryxMiner.SubmitReplies
