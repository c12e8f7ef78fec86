import KeryxMiner.TemplatePause
import Mathlib.Data.List.Perm.Subperm
import Mathlib.Data.Nat.ModEq

/-!
The share of the development fund: `client_get_block_template` of `src/client/grpc.rs` called
again and again, whatever the handler does in between.
-/

namespace KeryxMiner.DevfundSchedule

open AiPayloads GrpcClient RpcMessages TemplatePause TransitionRuns

/-! One turn of a counter. -/

def turn (modulus start count : Nat) : List Nat :=
  (List.range count).map fun i => (start + i) % modulus

theorem turn_succ (modulus start count : Nat) :
    turn modulus start (count + 1) = turn modulus start count ++ [(start + count) % modulus] := by
  simp [turn, List.range_succ]

/-- From any phase, a whole turn meets every value once. -/
theorem whole_turn (modulus start : Nat) :
    (turn modulus start modulus).Perm (List.range modulus) := by
  have distinct : (turn modulus start modulus).Nodup := by
    refine List.Nodup.map_on ?_ List.nodup_range
    intro i within j inside same
    exact Nat.ModEq.eq_of_lt_of_lt (Nat.ModEq.add_left_cancel' start same)
      (List.mem_range.mp within) (List.mem_range.mp inside)
  have values : turn modulus start modulus ⊆ List.range modulus := by
    intro value member
    obtain ⟨i, within, rfl⟩ := List.mem_map.mp member
    exact List.mem_range.mpr (Nat.mod_lt _ (Nat.zero_lt_of_lt (List.mem_range.mp within)))
  refine (List.subperm_of_subset distinct values).perm_of_length_le ?_
  simp [turn]

theorem count_up_to (limit bound : Nat) :
    (List.range bound).countP (fun value => value ≤ limit) = min bound (limit + 1) := by
  induction bound with
  | zero => rfl
  | succ bound ih =>
      rw [List.range_succ, List.countP_append, ih]
      by_cases within : bound ≤ limit
      · simp [within]; omega
      · simp [within]; omega

theorem two_counts {Item : Type} [DecidableEq Item] {left right : Item} (different : left ≠ right)
    {items : List Item} (each : ∀ item ∈ items, item = left ∨ item = right) :
    items.count left + items.count right = items.length := by
  induction items with
  | nil => rfl
  | cons item rest ih =>
      have others := ih fun other member => each other (List.mem_cons_of_mem item member)
      rw [List.length_cons]
      rcases each item List.mem_cons_self with rfl | rfl
      · rw [List.count_cons_self, List.count_cons_of_ne different]
        omega
      · rw [List.count_cons_self, List.count_cons_of_ne different.symm]
        omega

/-! What a handler's calls depend on. -/

structure Schedule where
  minerAddress : String
  devfundAddress : Option String
  devfundPercent : UInt16
  blockTemplateCtr : UInt16

def schedule (handler : KeryxdHandler) : Schedule :=
  ⟨handler.minerAddress, handler.devfundAddress, handler.devfundPercent, handler.blockTemplateCtr⟩

/-- The address at a value of the counter. -/
def Schedule.addressAt (schedule : Schedule) (counter : Nat) : String :=
  match schedule.devfundAddress with
  | some devfundAddress =>
      if counter ≤ schedule.devfundPercent.toNat then devfundAddress else schedule.minerAddress
  | none => schedule.minerAddress

theorem pay_address_scheduled (handler : KeryxdHandler) :
    payAddress handler = (schedule handler).addressAt handler.blockTemplateCtr.toNat := by
  unfold payAddress Schedule.addressAt
  cases funded : handler.devfundAddress with
  | none => simp [schedule, funded]
  | some devfundAddress => simp [schedule, funded, UInt16.le_iff_toNat_le]

theorem schedule_harvest (answer : Received) (handler : KeryxdHandler) :
    schedule (harvest answer handler).1 = schedule handler := by
  obtain ⟨_, frame⟩ := harvest_frame answer handler
  rw [frame]
  rfl

theorem schedule_template (surroundings : Surroundings) (session : NodeSession) :
    schedule (clientGetBlockTemplate surroundings session).1.handler =
      schedule (countTemplate session.handler) := by
  rw [clientGetBlockTemplate, (client_send_session surroundings _ _).1]
  exact schedule_harvest surroundings.challenge (countTemplate session.handler)

theorem template_request {surroundings : Surroundings} (connected : surroundings.connected = true)
    (session : NodeSession) :
    ∃ inferenceResult, (clientGetBlockTemplate surroundings session).1.sent =
      session.sent ++ [.getBlockTemplate (payAddress session.handler) inferenceResult] := by
  unfold clientGetBlockTemplate clientSend
  dsimp only
  rw [if_pos connected]
  exact ⟨_, rfl⟩

theorem counted {handler : KeryxdHandler} (phase : handler.blockTemplateCtr.toNat < 10000) :
    (countTemplate handler).blockTemplateCtr.toNat =
      (handler.blockTemplateCtr.toNat + 1) % 10000 := by
  simp only [countTemplate, UInt16.toNat_mod, UInt16.toNat_add, UInt16.reduceToNat]
  omega

/-! Calls in a row. -/

/-- `named` lists the addresses of the calls on the way; between two calls anything else may
happen, a reconnection with the same counter included. -/
inductive Asks : NodeSession → List String → NodeSession → Prop where
  | rest (session : NodeSession) : Asks session [] session
  | template {first second : NodeSession} {named : List String} (before : Asks first named second)
      (surroundings : Surroundings) :
      Asks first (named ++ [payAddress second.handler])
        (clientGetBlockTemplate surroundings second).1
  | elsewhere {first second third : NodeSession} {named : List String}
      (before : Asks first named second)
      (same : schedule third.handler = schedule second.handler) : Asks first named third

/-- Only the counter moves. -/
theorem asks_kept {first last : NodeSession} {named : List String}
    (asks : Asks first named last) :
    schedule last.handler = { schedule first.handler with
      blockTemplateCtr := last.handler.blockTemplateCtr } := by
  induction asks with
  | rest => rfl
  | @template second named before surroundings ih =>
      have counted := schedule_template surroundings second
      have counter := congrArg Schedule.blockTemplateCtr counted
      have miner := congrArg Schedule.minerAddress ih
      have devfund := congrArg Schedule.devfundAddress ih
      have percent := congrArg Schedule.devfundPercent ih
      simp only [schedule, countTemplate] at counter counted miner devfund percent ⊢
      rw [counted, counter, miner, devfund, percent]
  | @elsewhere second third named before same ih =>
      have counter := congrArg Schedule.blockTemplateCtr same
      simp only [schedule] at counter
      rw [same, ih, counter]

theorem address_kept {first last : NodeSession} {named : List String}
    (asks : Asks first named last) (counter : Nat) :
    (schedule last.handler).addressAt counter = (schedule first.handler).addressAt counter := by
  rw [asks_kept asks]
  rfl

/-- Where a run of calls leaves the counter, and the addresses it names. -/
structure Served (start : Schedule) (named : List String) (last : NodeSession) : Prop where
  counter : last.handler.blockTemplateCtr.toNat =
    (start.blockTemplateCtr.toNat + named.length) % 10000
  named : named =
    (turn 10000 start.blockTemplateCtr.toNat named.length).map start.addressAt

theorem asks_served {first last : NodeSession} {named : List String} (asks : Asks first named last)
    (phase : first.handler.blockTemplateCtr.toNat < 10000) :
    Served (schedule first.handler) named last := by
  induction asks with
  | rest => exact ⟨(Nat.mod_eq_of_lt phase).symm, rfl⟩
  | @template second named before surroundings ih =>
      have held : second.handler.blockTemplateCtr.toNat < 10000 :=
        ih.counter ▸ Nat.mod_lt _ (by decide)
      constructor
      · have moved := congrArg Schedule.blockTemplateCtr (schedule_template surroundings second)
        have step := counted held
        have counter := ih.counter
        simp only [schedule] at moved counter ⊢
        rw [moved, step, counter, List.length_append, List.length_singleton]
        omega
      · rw [List.length_append, List.length_singleton, turn_succ, List.map_append, ← ih.named,
          List.map_singleton, ← ih.counter, pay_address_scheduled, address_kept before]
  | elsewhere before same ih =>
      have counter := congrArg Schedule.blockTemplateCtr same
      simp only [schedule] at counter
      exact ⟨counter ▸ ih.counter, ih.named⟩

/-! The messages and the ticks are such runs. -/

section Client
variable (crates : NodeCrates) (surroundings : Surroundings)

theorem Asks.trans {first second third : NodeSession} {named more : List String}
    (left : Asks first named second) (right : Asks second more third) :
    Asks first (named ++ more) third := by
  induction right with
  | rest => rwa [List.append_nil]
  | template before surroundings ih =>
      rw [← List.append_assoc]
      exact .template ih surroundings
  | elsewhere before same ih => exact .elsewhere ih same

theorem template_asks (session : NodeSession) :
    Asks session [payAddress session.handler] (clientGetBlockTemplate surroundings session).1 :=
  .template (.rest session) surroundings

theorem elsewhere_asks {session other : NodeSession}
    (same : schedule other.handler = schedule session.handler) : Asks session [] other :=
  .elsewhere (.rest session) same

theorem schedule_scanned {before after : KeryxdHandler} (scanned : Scanned before after) :
    schedule after = schedule before := by
  obtain ⟨_, _, _, rfl⟩ := scanned
  rfl

theorem schedule_try_start (slm : Slm) (handler : KeryxdHandler) :
    schedule (tryStartInference slm handler) = schedule handler := by
  obtain ⟨_, _, frame⟩ := try_start_frame slm handler
  rw [frame]
  rfl

theorem schedule_challenged (template : TemplateResponse) (handler : KeryxdHandler) :
    schedule (startChallenge crates surroundings template.inferenceChallenge
      (trackDaa template.block handler)) = schedule handler := by
  obtain ⟨_, tracked⟩ := track_daa_frame template.block handler
  obtain ⟨_, started⟩ := start_challenge_frame crates surroundings template.inferenceChallenge
    (trackDaa template.block handler)
  rw [started, tracked]
  rfl

theorem schedule_send (request : Request) (session : NodeSession) :
    schedule (clientSend surroundings request session).1.handler = schedule session.handler :=
  congrArg schedule (client_send_session surroundings request session).1

theorem schedule_poll (session : NodeSession) :
    schedule (pollInference crates surroundings session).1.handler = schedule session.handler := by
  unfold pollInference
  split
  · rfl
  · dsimp only
    split
    · rfl
    · rfl
    · rfl
    · split
      · rfl
      · unfold submitResponse
        dsimp only [NodeSession.onHandler]
        obtain ⟨_, _, frame⟩ := track_answered_frame crates surroundings.clock _ _
        rw [frame]
        exact schedule_send surroundings _ _

theorem schedule_full_block (block : RpcBlock) (session : NodeSession) :
    schedule (handleFullBlock crates surroundings block session).1.handler =
      schedule session.handler := by
  have started : schedule (tryStartInference surroundings.slm
      (scanTxsForAiRequests crates surroundings.slm block.transactions session.handler)) =
      schedule session.handler := by
    rw [schedule_try_start]
    exact schedule_scanned (scan_scanned crates _ _ _)
  unfold handleFullBlock
  dsimp only [NodeSession.onHandler]
  split
  · exact started
  · split
    · exact started
    · rw [schedule_send]
      exact started

theorem schedule_fetch_block (block : RpcBlock) (session : NodeSession) :
    schedule (fetchBlock surroundings block session).1.handler = schedule session.handler := by
  unfold fetchBlock
  dsimp only
  split
  · exact schedule_send surroundings _ session
  · rfl

theorem schedule_submit_response (error : Option String) (session : NodeSession) :
    schedule (handleSubmitResponse crates surroundings error session).1.handler =
      schedule session.handler := by
  unfold handleSubmitResponse
  split
  · rfl
  · split <;> rfl

theorem schedule_mine_template (template : TemplateResponse) (session : NodeSession) :
    schedule (mineTemplate crates template session).1.handler = schedule session.handler := by
  unfold mineTemplate
  split
  · rfl
  · split <;> rfl
  · rfl
  · rfl
  · rfl

theorem info_asks (session : NodeSession) :
    ∃ named, Asks session named (handleInfo surroundings session).1 := by
  apply info_related surroundings (fun before after => ∃ named, Asks before named after)
  · rintro one two three ⟨named, asks⟩ ⟨more, follows⟩
    exact ⟨named ++ more, asks.trans follows⟩
  · exact fun other => ⟨_, elsewhere_asks (schedule_send surroundings _ other)⟩
  · exact fun other => ⟨_, elsewhere_asks (schedule_send surroundings _ other)⟩
  · exact fun other => ⟨_, template_asks surroundings other⟩

theorem handle_template_asks (template : TemplateResponse) (session : NodeSession) :
    ∃ named, Asks session named (handleTemplate crates surroundings template session).1 := by
  unfold handleTemplate
  dsimp only
  generalize challenge : session.onHandler _ = challenged
  have same : schedule challenged.handler = schedule session.handler := by
    rw [← challenge]
    exact schedule_challenged crates surroundings template session.handler
  have poll := (schedule_poll crates surroundings challenged).trans same
  generalize pollInference crates surroundings challenged = result at poll ⊢
  obtain ⟨polled, finished⟩ := result
  dsimp only at poll ⊢
  have started : schedule (polled.onHandler fun handler => tryStartInference surroundings.slm
      (scanTemplate crates surroundings template handler)).handler = schedule session.handler :=
    ((schedule_try_start ..).trans (schedule_scanned (scan_template_scanned ..))).trans poll
  split
  · exact ⟨_, (elsewhere_asks poll).trans (template_asks surroundings polled)⟩
  · split
    · exact ⟨_, elsewhere_asks poll⟩
    · split
      · exact ⟨_, elsewhere_asks started⟩
      · exact ⟨_, elsewhere_asks ((schedule_mine_template ..).trans started)⟩

theorem message_asks (payload : Payload) (session : NodeSession) :
    ∃ named, Asks session named (handleMessage crates surroundings payload session).1 := by
  cases payload with
  | blockAddedNotification block =>
      cases block with
      | none => exact ⟨_, .rest session⟩
      | some block =>
          simp only [handleMessage, handleBlockAdded]
          split
          · exact ⟨_, elsewhere_asks (schedule_full_block crates surroundings block session)⟩
          · exact ⟨_, elsewhere_asks (schedule_fetch_block surroundings block session)⟩
  | newBlockTemplateNotification => exact ⟨_, template_asks surroundings session⟩
  | getBlockTemplateResponse template =>
      exact handle_template_asks crates surroundings template session
  | getBlockResponse error block =>
      cases error with
      | some _ => exact ⟨_, .rest session⟩
      | none =>
          cases block with
          | none => exact ⟨_, .rest session⟩
          | some block =>
              exact ⟨_, elsewhere_asks (schedule_full_block crates surroundings block session)⟩
  | submitTransactionResponse error =>
      exact ⟨_, elsewhere_asks (schedule_submit_response crates surroundings error session)⟩
  | getInfoResponse => exact info_asks surroundings session
  | submitBlockResponse _ => exact ⟨_, .rest session⟩
  | notifyNewBlockTemplateResponse _ => exact ⟨_, .rest session⟩
  | notifyBlockAddedResponse _ => exact ⟨_, .rest session⟩
  | unknown => exact ⟨_, .rest session⟩

theorem tick_asks (session : NodeSession) :
    ∃ named, Asks session named (handleTick crates surroundings session).1 := by
  unfold handleTick
  have poll := schedule_poll crates surroundings session
  generalize pollInference crates surroundings session = result at poll ⊢
  obtain ⟨polled, finished⟩ := result
  dsimp only at poll ⊢
  split
  · exact ⟨_, (elsewhere_asks poll).trans (template_asks surroundings polled)⟩
  · split
    · exact ⟨_, (elsewhere_asks poll).trans (template_asks surroundings polled)⟩
    · exact ⟨_, elsewhere_asks poll⟩

theorem run_asks {connection last : Connection} {labels : List (Event × Surroundings)}
    (run : runFrom (connectionStep crates) connection labels = some last) :
    ∃ named, Asks connection.session named last.session := by
  induction labels generalizing connection with
  | nil =>
      obtain rfl : connection = last := Option.some_inj.mp run
      exact ⟨[], .rest _⟩
  | cons label labels ih =>
      rw [runFrom] at run
      cases stepped : connectionStep crates connection label with
      | none => simp [stepped] at run
      | some next =>
          rw [stepped] at run
          have step : ∃ named, Asks connection.session named next.session := by
            unfold connectionStep at stepped
            split at stepped
            · obtain rfl := Option.some_inj.mp stepped
              cases event : label.1 with
              | message payload => exact message_asks crates label.2 payload _
              | tick => exact tick_asks crates label.2 _
            · contradiction
          obtain ⟨named, asks⟩ := step
          obtain ⟨more, follows⟩ := ih run
          exact ⟨named ++ more, asks.trans follows⟩

/-- The counter outlives the connection. -/
theorem reconnection_asks {options : NodeOptions} {workers : Nat} {last : Connection}
    {labels : List (Event × Surroundings)}
    (run : runFrom (connectionStep crates) (Connection.opened options workers) labels = some last) :
    Asks last.session [] (Connection.opened { options with
      blockTemplateCtr := last.session.handler.blockTemplateCtr } workers).session := by
  obtain ⟨named, asks⟩ := run_asks crates run
  exact elsewhere_asks (asks_kept asks).symm

end Client

/-! Ten thousand calls. -/

/-- The shares that the percentage stands for. -/
def Scheduled (handler : KeryxdHandler) (devfundAddress : String) (named : List String) : Prop :=
  named.count devfundAddress = handler.devfundPercent.toNat ∧
    named.count handler.minerAddress = 10000 - handler.devfundPercent.toNat

theorem address_cases {schedule : Schedule} {devfundAddress : String}
    (funded : schedule.devfundAddress = some devfundAddress) (counter : Nat) :
    schedule.addressAt counter = devfundAddress ∨
      schedule.addressAt counter = schedule.minerAddress := by
  unfold Schedule.addressAt
  rw [funded]
  dsimp only
  split
  · exact Or.inl rfl
  · exact Or.inr rfl

theorem devfund_paid_iff {schedule : Schedule} {devfundAddress : String}
    (funded : schedule.devfundAddress = some devfundAddress)
    (other : devfundAddress ≠ schedule.minerAddress) (counter : Nat) :
    schedule.addressAt counter = devfundAddress ↔ counter ≤ schedule.devfundPercent.toNat := by
  unfold Schedule.addressAt
  rw [funded]
  by_cases within : counter ≤ schedule.devfundPercent.toNat
  · simp [within]
  · simp [within, other.symm]

/-- The values up to the percentage pay the fund, zero among them. -/
theorem turn_pays {schedule : Schedule} {devfundAddress : String}
    (funded : schedule.devfundAddress = some devfundAddress)
    (percent : schedule.devfundPercent.toNat ≤ 9999)
    (other : devfundAddress ≠ schedule.minerAddress) (start : Nat) :
    ((turn 10000 start 10000).map schedule.addressAt).count devfundAddress =
      schedule.devfundPercent.toNat + 1 := by
  have values : ((turn 10000 start 10000).map schedule.addressAt).count devfundAddress =
      (turn 10000 start 10000).countP fun counter => counter ≤ schedule.devfundPercent.toNat := by
    rw [List.count, List.countP_map]
    refine List.countP_congr fun counter _ => ?_
    simpa using devfund_paid_iff funded other counter
  rw [values, (whole_turn 10000 start).countP_eq, count_up_to]
  omega

theorem asked_counts {first last : NodeSession} {named : List String} {devfundAddress : String}
    (funded : first.handler.devfundAddress = some devfundAddress)
    (phase : first.handler.blockTemplateCtr.toNat < 10000)
    (percent : first.handler.devfundPercent.toNat ≤ 9999)
    (other : devfundAddress ≠ first.handler.minerAddress)
    (asks : Asks first named last) (calls : named.length = 10000) :
    named.count devfundAddress = first.handler.devfundPercent.toNat + 1 ∧
      named.count first.handler.minerAddress = 9999 - first.handler.devfundPercent.toNat := by
  have paid := (asks_served asks phase).named
  have devfund : named.count devfundAddress = first.handler.devfundPercent.toNat + 1 := by
    rw [calls] at paid
    rw [paid]
    exact @turn_pays (schedule first.handler) devfundAddress funded percent other _
  have each : ∀ address ∈ named,
      address = devfundAddress ∨ address = first.handler.minerAddress := by
    intro address member
    rw [paid] at member
    obtain ⟨counter, _, rfl⟩ := List.mem_map.mp member
    exact @address_cases (schedule first.handler) devfundAddress funded counter
  have all := two_counts other each
  omega

/-- Where the fund is the miner itself, every request names both. -/
theorem asked_same {first last : NodeSession} {named : List String}
    (funded : first.handler.devfundAddress = some first.handler.minerAddress)
    (phase : first.handler.blockTemplateCtr.toNat < 10000)
    (asks : Asks first named last) :
    named.count first.handler.minerAddress = named.length := by
  rw [List.count_eq_length, (asks_served asks phase).named]
  intro address member
  obtain ⟨counter, _, rfl⟩ := List.mem_map.mp member
  exact (or_self_iff.mp (@address_cases (schedule first.handler) _ funded counter)).symm

theorem calls_in_a_row (surroundings : Surroundings) (count : Nat) (session : NodeSession) :
    ∃ named last, Asks session named last ∧ named.length = count := by
  induction count with
  | zero => exact ⟨[], session, .rest session, rfl⟩
  | succ count ih =>
      obtain ⟨named, last, asks, calls⟩ := ih
      exact ⟨_, _, .template asks surroundings, by simp [calls]⟩

def devfundOptions : NodeOptions where
  minerAddress := "keryx:miner"
  mineWhenNotSynced := false
  devfund := some ("keryx:devfund", 200)
  blockTemplateCtr := 9900
  escrowWatcher := none

def devfundSession : NodeSession := (Connection.opened devfundOptions 1).session

def quietSurroundings : Surroundings where
  slm := ⟨[], fun _ => false⟩
  inference := .empty
  challenge := .empty
  upload := .error ""
  connected := true
  clock := ⟨0, 0⟩

/-- One request too many, from any phase. -/
theorem devfund_paid_once_more {first last : NodeSession} {named : List String}
    {devfundAddress : String} (funded : first.handler.devfundAddress = some devfundAddress)
    (phase : first.handler.blockTemplateCtr < 10000) (whole : first.handler.devfundPercent ≤ 9999)
    (asks : Asks first named last) (calls : named.length = 10000) :
    ¬ Scheduled first.handler devfundAddress named ∧
      (devfundAddress ≠ first.handler.minerAddress →
        named.count devfundAddress = first.handler.devfundPercent.toNat + 1 ∧
          named.count first.handler.minerAddress = 9999 - first.handler.devfundPercent.toNat) := by
  have start : first.handler.blockTemplateCtr.toNat < 10000 := UInt16.lt_iff_toNat_lt.mp phase
  have percent : first.handler.devfundPercent.toNat ≤ 9999 := UInt16.le_iff_toNat_le.mp whole
  by_cases other : devfundAddress = first.handler.minerAddress
  · subst other
    refine ⟨?_, fun different => absurd rfl different⟩
    rintro ⟨devfund, _⟩
    have all := asked_same funded start asks
    omega
  · have counts := asked_counts funded start percent other asks calls
    refine ⟨?_, fun _ => counts⟩
    rintro ⟨devfund, _⟩
    omega

theorem devfund_paid_once_more_two_percent :
    ∃ named last, Asks devfundSession named last ∧ named.length = 10000 ∧
      named.count "keryx:devfund" = 201 ∧ named.count "keryx:miner" = 9799 := by
  obtain ⟨named, last, asks, calls⟩ := calls_in_a_row quietSurroundings 10000 devfundSession
  have paid := @devfund_paid_once_more devfundSession last named "keryx:devfund" rfl (by decide)
    (by decide) asks calls
  exact ⟨named, last, asks, calls, paid.2 (by decide)⟩

theorem two_percent_unscheduled :
    ∃ named last, Asks devfundSession named last ∧ named.length = 10000 ∧
      ¬ Scheduled devfundSession.handler "keryx:devfund" named := by
  obtain ⟨named, last, asks, calls⟩ := calls_in_a_row quietSurroundings 10000 devfundSession
  refine ⟨named, last, asks, calls, ?_⟩
  rintro ⟨devfund, _⟩
  have counts := @asked_counts devfundSession last named "keryx:devfund" rfl (by decide) (by decide)
    (by decide) asks calls
  rw [devfund] at counts
  exact absurd counts.1 (by decide)

end KeryxMiner.DevfundSchedule
