import KeryxMiner.SubmitSimulation

/-!
Runs of a gRPC connection whose node answers its requests in order, and what its
answers change.
-/

namespace KeryxMiner.ServedRuns

open Escrow GrpcClient TransitionRuns SubmitSimulation

/-- A connection, and how many of its transactions the node has answered. -/
structure Served where
  connection : TemplatePause.Connection
  answered : Nat

def Served.opened (options : NodeOptions) (workers : Nat) : Served :=
  ⟨.opened options workers, 0⟩

def Served.view (served : Served) (closed : Bool) : SubmitReplies.Connection :=
  SubmitSimulation.view served.answered closed served.connection.session

def replyOf : TemplatePause.Event → Option (Option String)
  | .message (.submitTransactionResponse error) => some error
  | _ => none

section Runs
variable (crates : NodeCrates)

/-- The node answers only what was submitted. -/
def servedStep (served : Served) (label : TemplatePause.Event × Surroundings) : Option Served :=
  (TemplatePause.connectionStep crates served.connection label).bind fun after =>
    match replyOf label.1 with
    | none => some ⟨after, served.answered⟩
    | some _ =>
        if served.answered < (submitted served.connection.session).length then
          some ⟨after, served.answered + 1⟩
        else none

theorem act_follows (surroundings : Surroundings) (answered : Nat) (event : TemplatePause.Event)
    (other : replyOf event = none) (session : NodeSession) :
    Follows crates answered session (TemplatePause.act crates surroundings event session) := by
  cases event with
  | tick => exact tick_follows crates surroundings answered session
  | message payload =>
      apply message_follows crates surroundings answered payload
      rintro error rfl
      contradiction

theorem reply_of_some {event : TemplatePause.Event} {error : Option String}
    (replied : replyOf event = some error) :
    event = .message (.submitTransactionResponse error) := by
  unfold replyOf at replied
  split at replied
  · obtain rfl := Option.some.inj replied
    rfl
  · contradiction

theorem submit_response_sends_nothing (surroundings : Surroundings) (error : Option String)
    (session : NodeSession) :
    submitted (handleSubmitResponse crates surroundings error session).1 = submitted session := by
  unfold handleSubmitResponse
  split
  · rfl
  · split
    · rfl
    · rfl

/-- A step is an answer, or events that the connection takes by itself. -/
inductive Moves (before : Served) (label : TemplatePause.Event × Surroundings) (after : Served) :
    Prop where
  | answered (error : Option String) (replied : replyOf label.1 = some error)
      (unanswered : before.answered < (submitted before.connection.session).length)
      (counted : after.answered = before.answered + 1)
      (kept : submitted after.connection.session = submitted before.connection.session)
      (answers : SubmitReplies.connectionStep crates.escrow (before.view false)
        (.reply error label.2.clock) = some (after.view false))
  | acted (replied : replyOf label.1 = none) (counted : after.answered = before.answered)
      (closed : Bool) (fails : closed = true → after.connection.listening = false)
      (simulated : Simulated crates before.answered before.connection.session
        after.connection.session closed)

theorem served_step_moves {before after : Served} {label : TemplatePause.Event × Surroundings}
    (stepped : servedStep crates before label = some after) :
    before.connection.listening = true ∧ Moves crates before label after := by
  obtain ⟨connection, acted, counted⟩ := Option.bind_eq_some_iff.mp stepped
  unfold TemplatePause.connectionStep at acted
  split at acted
  · rename_i listening
    generalize acts : TemplatePause.act crates label.2 label.1 before.connection.session = outcome
      at acted
    obtain rfl := Option.some.inj acted
    refine ⟨listening, ?_⟩
    cases replied : replyOf label.1 with
    | none =>
        rw [replied] at counted
        obtain rfl := Option.some.inj counted
        obtain ⟨closed, fails, simulated⟩ := acts ▸
          act_follows crates label.2 before.answered label.1 replied before.connection.session
        exact .acted replied rfl closed fails simulated
    | some error =>
        rw [replied] at counted
        dsimp only at counted
        split at counted
        · rename_i unanswered
          obtain rfl := Option.some.inj counted
          rw [reply_of_some replied] at acts
          subst acts
          exact .answered error replied unanswered rfl
            (submit_response_sends_nothing crates label.2 error _)
            (reply_simulated crates label.2 before.answered error unanswered)
        · contradiction
  · contradiction

/-- Some events of `SubmitReplies` lead from `first` to what is left of the connection. -/
structure Reached (first : SubmitReplies.Connection) (served : Served) : Prop where
  within : served.answered ≤ (submitted served.connection.session).length
  events : ∃ events closed, (closed = true → served.connection.listening = false) ∧
    runFrom (SubmitReplies.connectionStep crates.escrow) first events = some (served.view closed)

theorem Moves.within {before after : Served} {label : TemplatePause.Event × Surroundings}
    (moves : Moves crates before label after)
    (within : before.answered ≤ (submitted before.connection.session).length) :
    after.answered ≤ (submitted after.connection.session).length := by
  cases moves with
  | answered error replied unanswered counted kept answers =>
      rw [counted, kept]
      exact unanswered
  | acted replied counted closed fails simulated =>
      rw [counted]
      exact Nat.le_trans within simulated.grows

theorem Moves.events {before after : Served} {label : TemplatePause.Event × Surroundings}
    (moves : Moves crates before label after)
    (within : before.answered ≤ (submitted before.connection.session).length) :
    ∃ events closed, (closed = true → after.connection.listening = false) ∧
      runFrom (SubmitReplies.connectionStep crates.escrow) (before.view false) events =
        some (after.view closed) := by
  cases moves with
  | answered error replied unanswered counted kept answers =>
      refine ⟨[.reply error label.2.clock], false,
        fun closed => absurd closed Bool.false_ne_true, ?_⟩
      rw [runFrom, answers]
      rfl
  | acted replied counted closed fails simulated =>
      obtain ⟨events, _, ran⟩ := simulated.follows within
      refine ⟨events, closed, fails, ?_⟩
      rw [Served.view, Served.view, counted]
      exact ran

theorem still_open {served : Served} {closed : Bool}
    (fails : closed = true → served.connection.listening = false)
    (listening : served.connection.listening = true) : closed = false := by
  by_contra other
  have stopped := fails (by simpa using other)
  rw [listening] at stopped
  contradiction

theorem step_reached (first : SubmitReplies.Connection) (before : Served)
    (label : TemplatePause.Event × Surroundings) (after : Served)
    (reached : Reached crates first before)
    (stepped : servedStep crates before label = some after) : Reached crates first after := by
  obtain ⟨listening, moves⟩ := served_step_moves crates stepped
  constructor
  · exact moves.within crates reached.within
  · obtain ⟨early, closed, fails, ran⟩ := reached.events
    obtain ⟨late, closed_after, fails_after, continues⟩ := moves.events crates reached.within
    obtain rfl := still_open fails listening
    refine ⟨early ++ late, closed_after, fails_after, ?_⟩
    rw [run_from_append, ran]
    exact continues

/-- Every run of a gRPC connection whose node answers in order is, with only the
watcher and the submitted transactions kept, a run of `SubmitReplies`. -/
theorem served_run_simulated (options : NodeOptions)
    (escrow : Option (ClaimAccount × EscrowState × Nat))
    (loaded : options.escrowWatcher =
      escrow.map fun source => EscrowWatcher.loaded source.1 source.2.1 source.2.2)
    (workers : Nat) (labels : List (TemplatePause.Event × Surroundings)) (last : Served)
    (ran : runFrom (servedStep crates) (Served.opened options workers) labels = some last) :
    Reached crates (SubmitReplies.Connection.opened escrow) last := by
  apply invariant_end (Reached crates (SubmitReplies.Connection.opened escrow)) _ labels _ last _
    (every_step_trivial labels _) ran
  · intro before label after reached stepped _
    exact step_reached crates _ before label after reached stepped
  · refine ⟨Nat.le_refl _, [], false, fun closed => absurd closed Bool.false_ne_true, ?_⟩
    rw [runFrom, SubmitReplies.Connection.opened, ← loaded]
    rfl

/-! Attribution. -/

/-- The answer to a transaction without inputs finds no claim in flight. -/
def Unambiguous (before : Served) (label : TemplatePause.Event × Surroundings) (_ : Served) :
    Prop :=
  ∀ error, replyOf label.1 = some error →
    SubmitReplies.Unambiguous (before.view false) (.reply error label.2.clock) (before.view false)

def Attributed (before : Served) (label : TemplatePause.Event × Surroundings) (after : Served) :
    Prop :=
  ∀ error, replyOf label.1 = some error →
    SubmitReplies.Attributed (before.view false) (.reply error label.2.clock) (after.view false)

structure Answerable (served : Served) : Prop where
  within : served.answered ≤ (submitted served.connection.session).length
  paired : served.connection.listening = true → SubmitReplies.Paired (served.view false)

theorem unprompted_unambiguous {event : SubmitReplies.Event} (quiet : Unprompted event)
    (before after : SubmitReplies.Connection) : SubmitReplies.Unambiguous before event after := by
  cases event with
  | block block clock sent => trivial
  | template daaScore => trivial
  | inference payload registered clock sent => trivial
  | reply error clock => contradiction

theorem step_answerable (before : Served) (label : TemplatePause.Event × Surroundings)
    (after : Served) (answerable : Answerable before)
    (stepped : servedStep crates before label = some after)
    (unambiguous : Unambiguous before label after) : Answerable after := by
  obtain ⟨listening, moves⟩ := served_step_moves crates stepped
  have paired := answerable.paired listening
  refine ⟨moves.within crates answerable.within, fun still => ?_⟩
  cases moves with
  | answered error replied unanswered counted kept answers =>
      exact SubmitReplies.step_paired crates.escrow _ _ _ paired answers
        (unambiguous error replied)
  | acted replied counted closed fails simulated =>
      obtain ⟨events, quiet, ran⟩ := simulated.follows answerable.within
      obtain rfl := still_open fails still
      have continues : runFrom (SubmitReplies.connectionStep crates.escrow) (before.view false)
          events = some (after.view false) := by
        rw [Served.view, Served.view, counted]
        exact ran
      exact invariant_end SubmitReplies.Paired (SubmitReplies.step_paired crates.escrow) events _ _
        paired (every_step_of_each (fun event member _ _ => unprompted_unambiguous
          (quiet event member) _ _) _) continues

theorem step_answers_attributed (before : Served) (label : TemplatePause.Event × Surroundings)
    (after : Served) (answerable : Answerable before)
    (stepped : servedStep crates before label = some after)
    (unambiguous : Unambiguous before label after) : Attributed before label after := by
  intro error replied
  obtain ⟨listening, moves⟩ := served_step_moves crates stepped
  cases moves with
  | answered other same unanswered counted kept answers =>
      obtain rfl := Option.some.inj (same.symm.trans replied)
      exact SubmitReplies.step_attributed crates.escrow _ _ _ (answerable.paired listening) answers
        (unambiguous other replied)
  | acted none_replied counted closed fails simulated =>
      rw [none_replied] at replied
      contradiction

theorem opened_answerable (options : NodeOptions)
    (idle : ∀ watcher, options.escrowWatcher = some watcher → watcher.pendingClaimTxid = none)
    (workers : Nat) : Answerable (Served.opened options workers) := by
  refine ⟨Nat.le_refl _, fun _ _ watcher present => ?_⟩
  rw [SubmitReplies.PairedWith, idle watcher present]
  exact fun tx member => absurd member List.not_mem_nil

/-- Where the answers to `AiResponse`s find no claim in flight, every answer of a
run changes entries as an answer to the transaction it answers. -/
theorem served_answers_attributed (options : NodeOptions)
    (idle : ∀ watcher, options.escrowWatcher = some watcher → watcher.pendingClaimTxid = none)
    (workers : Nat) (labels : List (TemplatePause.Event × Surroundings))
    (unambiguous :
      EveryStep (servedStep crates) Unambiguous (Served.opened options workers) labels) :
    EveryStep (servedStep crates) Attributed (Served.opened options workers) labels :=
  every_step_of_invariant Answerable (step_answerable crates) (step_answers_attributed crates)
    labels _ (opened_answerable options idle workers) unambiguous

end Runs

end KeryxMiner.ServedRuns
