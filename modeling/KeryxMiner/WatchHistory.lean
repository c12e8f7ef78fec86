import KeryxMiner.WatchChannel

/-!
What a watch channel delivers. Beside the channel a history keeps the values in the
order of their publication, and of each receiver the version it has observed and what
it was given. The version of a value is the number of values published up to it.
-/

namespace KeryxMiner.WatchHistory

open TransitionRuns WatchChannel

variable {T : Type}

structure Delivery (T : Type) where
  observed : Nat
  version : Nat
  value : T

structure Record (T : Type) where
  observed : Nat
  given : List (Delivery T)

structure History (T : Type) where
  channel : Channel T
  published : List T
  records : Nat → Record T

def History.opened (init : T) : History T where
  channel := .opened init
  published := [init]
  records := fun _ => ⟨0, []⟩

def publishes (channel : Channel T) : Label T → List T
  | .sender =>
      match channel.sender.place with
      | .sending value => [value]
      | _ => []
  | _ => []

/-- A receiver that stores the id has observed the last version, and one that clones the
value is given it. -/
def noteReceiver (shared : Shared T) (published : List T) (receiver : Receiver T)
    (record : Record T) : Record T :=
  match receiver.place with
  | .comparing reading =>
      if reading ≠ .afterWait ∧ receiver.lastObserved = shared.id then record
      else { record with observed := published.length }
  | .cloning _ => { record with
      given := record.given ++ [⟨record.observed, published.length, shared.value⟩] }
  | _ => record

/-- A clone inherits its source's record: what it observed, and as given to it what the source was
given before. -/
def noteRecords (history : History T) : Label T → Nat → Record T
  | .receiver number =>
      match history.channel.receivers number with
      | some receiver => Function.update history.records number
          (noteReceiver history.channel.shared history.published receiver (history.records number))
      | none => history.records
  | .clone number copy => Function.update history.records copy (history.records number)
  | _ => history.records

def historyStep (history : History T) (label : Label T) : Option (History T) :=
  (channelStep history.channel label).map fun channel => {
    channel
    published := history.published ++ publishes history.channel label
    records := noteRecords history label }

/-- A notification is still to come. -/
def Notifies (sender : Sender T) : Prop := sender.place = .waking ∨ sender.place = .closing

/-- A check under the mutex that found the sender alive, or also the id unchanged, is
outdated only while a notification is to come, which waits for the mutex. -/
structure Noted (shared : Shared T) (sender : Sender T) (receiver : Receiver T) : Prop where
  alive : receiver.place = .comparing .underLock → Notifies sender ∨ shared.senderAlive = true
  same : receiver.place = .parking ∨ receiver.place = .waiting → Notifies sender ∨
    receiver.lastObserved = shared.id ∧ shared.senderAlive = true

structure RecordKept (published : List T) (receiver : Receiver T) (record : Record T) : Prop where
  id : receiver.lastObserved = UInt64.ofNat record.observed
  behind : record.observed ≤ published.length
  forward : record.given.Pairwise fun first second => first.version ≤ second.version
  written : ∀ delivery ∈ record.given,
    delivery.version ≠ 0 ∧ published[delivery.version - 1]? = some delivery.value
  latest : receiver.place.clones = true ∨ record.observed = 0 ∨
    ∃ delivery, record.given.getLast? = some delivery ∧ record.observed ≤ delivery.version

structure Kept (history : History T) : Prop where
  id : history.channel.shared.id = UInt64.ofNat history.published.length
  value : history.published[history.published.length - 1]? = some history.channel.shared.value
  record : ∀ number receiver, history.channel.receivers number = some receiver →
    RecordKept history.published receiver (history.records number)
  holds : ∀ number receiver, history.channel.receivers number = some receiver →
    receiver.place.holdsMutex = true → history.channel.shared.waitForChange = some number
  noted : ∀ number receiver, history.channel.receivers number = some receiver →
    Noted history.channel.shared history.channel.sender receiver

theorem opened_receiver (init : T) {number : Nat} {receiver : Receiver T}
    (present : (Channel.opened init).receivers number = some receiver) :
    receiver = ⟨0, .idle, []⟩ := by
  by_cases first : number = 0
  · subst first
    exact (Option.some.inj present).symm
  · simp [Channel.opened, Function.update_of_ne first] at present

theorem opened_kept (init : T) : Kept (History.opened init) where
  id := rfl
  value := rfl
  record := by
    intro number receiver present
    obtain rfl := opened_receiver init present
    exact ⟨rfl, Nat.zero_le _, .nil, by simp [History.opened], .inr (.inl rfl)⟩
  holds := by
    intro number receiver present holds
    obtain rfl := opened_receiver init present
    cases holds
  noted := by
    intro number receiver present
    obtain rfl := opened_receiver init present
    constructor
    · exact fun place => absurd place (by simp)
    · exact fun place => absurd place (by simp)

/-! Records. -/

theorem RecordKept.resting {published : List T} {receiver receiver' : Receiver T}
    {record : Record T} (kept : RecordKept published receiver record) (still : receiver.place.clones = false)
    (same : receiver'.lastObserved = receiver.lastObserved) :
    RecordKept published receiver' record where
  id := same.trans kept.id
  behind := kept.behind
  forward := kept.forward
  written := kept.written
  latest := .inr (kept.latest.resolve_left (still.symm ▸ Bool.false_ne_true))

theorem RecordKept.publish {published : List T} {receiver : Receiver T} {record : Record T}
    (kept : RecordKept published receiver record) (more : List T) :
    RecordKept (published ++ more) receiver record where
  id := kept.id
  behind := by
    rw [List.length_append]
    exact Nat.le_add_right_of_le kept.behind
  forward := kept.forward
  written := by
    intro delivery given
    obtain ⟨positive, written⟩ := kept.written delivery given
    obtain ⟨short, _⟩ := List.getElem?_eq_some_iff.mp written
    exact ⟨positive, by rw [List.getElem?_append_left short, written]⟩
  latest := kept.latest

theorem RecordKept.bounded {published : List T} {receiver : Receiver T} {record : Record T}
    (kept : RecordKept published receiver record) {delivery : Delivery T}
    (given : delivery ∈ record.given) : delivery.version ≤ published.length := by
  obtain ⟨positive, written⟩ := kept.written delivery given
  obtain ⟨short, _⟩ := List.getElem?_eq_some_iff.mp written
  omega

/-- The receiver is given the last value, whatever id it has stored. -/
theorem RecordKept.give {published : List T} {receiver : Receiver T} {record : Record T}
    (kept : RecordKept published receiver record) {value : T}
    (last : published[published.length - 1]? = some value)
    (result : Except ChannelClosed (Option T)) :
    RecordKept published (receiver.answer result)
      { record with given := record.given ++ [⟨record.observed, published.length, value⟩] } where
  id := kept.id
  behind := kept.behind
  forward := by
    refine List.pairwise_append.mpr ⟨kept.forward, List.pairwise_singleton .., ?_⟩
    intro earlier given delivery new
    obtain rfl := List.mem_singleton.mp new
    exact kept.bounded given
  written := by
    intro delivery given
    rcases List.mem_append.mp given with old | new
    · exact kept.written delivery old
    · obtain rfl := List.mem_singleton.mp new
      obtain ⟨short, _⟩ := List.getElem?_eq_some_iff.mp last
      exact ⟨by dsimp only; omega, last⟩
  latest := .inr (.inr ⟨_, List.getLast?_concat, kept.behind⟩)

theorem Advance.record {number : Nat} {shared shared' : Shared T} {receiver receiver' : Receiver T}
    (advance : Advance number shared receiver shared' receiver') {published : List T}
    {record : Record T} (id : shared.id = UInt64.ofNat published.length)
    (last : published[published.length - 1]? = some shared.value)
    (kept : RecordKept published receiver record) :
    RecordKept published receiver' (noteReceiver shared published receiver record) := by
  unfold noteReceiver
  cases advance with
  | alive reading place alive =>
      rw [place]
      exact kept.resting (by rw [place]; rfl) rfl
  | closed reading place =>
      rw [place]
      exact kept.resting (by rw [place]; rfl) rfl
  | same reading place compared same =>
      simp only [place, if_pos (And.intro compared same)]
      refine kept.resting (by rw [place]; rfl) ?_
      cases reading <;> rfl
  | stored reading place changed =>
      simp only [place, if_neg changed]
      exact ⟨id, Nat.le_refl _, kept.forward, kept.written, .inl rfl⟩
  | cloned reading place =>
      simp only [place]
      exact kept.give last _
  | locked reading place free =>
      rcases place with place | place <;> rw [place]
      · exact kept.resting (by rw [place]; rfl) rfl
      · exact kept.resting (by rw [place]; rfl) rfl
  | parked place =>
      rw [place]
      exact kept.resting (by rw [place]; rfl) rfl

/-! Notes. -/

theorem noted_elsewhere {shared : Shared T} {sender : Sender T} {receiver : Receiver T}
    (compares : receiver.place ≠ .comparing .underLock) (parks : receiver.place ≠ .parking)
    (waits : receiver.place ≠ .waiting) : Noted shared sender receiver where
  alive place := absurd place compares
  same place := place.elim (absurd · parks) (absurd · waits)

theorem Advance.noted {number : Nat} {shared shared' : Shared T} {receiver receiver' : Receiver T}
    (advance : Advance number shared receiver shared' receiver') {sender : Sender T}
    (noted : Noted shared sender receiver) : Noted shared' sender receiver' := by
  have idle (other : Shared T) (result : Except ChannelClosed (Option T)) :
      Noted other sender (receiver.answer result) := by
    apply noted_elsewhere <;> simp [Receiver.answer]
  cases advance with
  | alive reading place alive =>
      constructor
      · exact fun _ => .inr alive
      · exact fun parked => absurd parked (by simp [Receiver.at])
  | closed reading place => exact idle _ _
  | same reading place compared same =>
      cases reading with
      | getChanged => exact idle _ _
      | beforeLock => apply noted_elsewhere <;> simp [unchanged, Receiver.at]
      | underLock =>
          -- the id was just compared, with the mutex held since the sender was alive
          constructor
          · exact fun compares => absurd compares (by simp [unchanged, Receiver.at])
          · exact fun _ => (noted.alive place).imp_right fun alive => ⟨same, alive⟩
      | afterWait => exact absurd rfl compared
  | stored reading place changed => apply noted_elsewhere <;> simp
  | cloned reading place => exact idle _ _
  | locked reading place free => apply noted_elsewhere <;> simp [Receiver.at]
  | parked place =>
      constructor
      · exact fun compares => absurd compares (by simp [Receiver.at])
      · exact fun _ => noted.same (.inl place)

/-! Steps. -/

/-- The receivers, but for one, are as they were. -/
theorem Kept.withReceiver {history : History T} (kept : Kept history) {number : Nat}
    {receiver : Option (Receiver T)} {shared : Shared T} {records : Nat → Record T}
    (id : shared.id = history.channel.shared.id)
    (value : shared.value = history.channel.shared.value)
    (alive : shared.senderAlive = history.channel.shared.senderAlive)
    (others : ∀ other ≠ number, records other = history.records other)
    (owners : ∀ other ≠ number, history.channel.shared.waitForChange = some other →
      shared.waitForChange = some other)
    (own : ∀ changed, receiver = some changed →
      RecordKept history.published changed (records number) ∧
      (changed.place.holdsMutex = true → shared.waitForChange = some number) ∧
      Noted shared history.channel.sender changed) :
    Kept {
      channel := { history.channel with shared }.withReceiver number receiver
      published := history.published
      records } where
  id := id.trans kept.id
  value := kept.value.trans (congrArg some value.symm)
  record := by
    intro other changed present
    by_cases same : other = number
    · subst same
      exact (own changed (by simpa [Channel.withReceiver] using present)).1
    · have before : history.channel.receivers other = some changed := by
        simpa [Channel.withReceiver, Function.update_of_ne same] using present
      dsimp only
      rw [others other same]
      exact kept.record other changed before
  holds := by
    intro other changed present holds
    by_cases same : other = number
    · subst same
      exact (own changed (by simpa [Channel.withReceiver] using present)).2.1 holds
    · have before : history.channel.receivers other = some changed := by
        simpa [Channel.withReceiver, Function.update_of_ne same] using present
      exact owners other same (kept.holds other changed before holds)
  noted := by
    intro other changed present
    by_cases same : other = number
    · subst same
      exact (own changed (by simpa [Channel.withReceiver] using present)).2.2
    · have before : history.channel.receivers other = some changed := by
        simpa [Channel.withReceiver, Function.update_of_ne same] using present
      have noted := kept.noted other changed before
      exact ⟨fun place => (noted.alive place).imp_right alive.trans,
        fun place => (noted.same place).imp_right fun both =>
          ⟨both.1.trans id.symm, alive.trans both.2⟩⟩

theorem receiver_kept {history : History T} {channel : Channel T} {number : Nat}
    (kept : Kept history) (moved : channelStep history.channel (.receiver number) = some channel) :
    Kept ⟨channel, history.published, noteRecords history (.receiver number)⟩ := by
  obtain ⟨receiver, present, moved⟩ := Option.bind_eq_some_iff.mp moved
  obtain ⟨⟨shared, receiver'⟩, advances, rfl⟩ := Option.map_eq_some_iff.mp moved
  have advance := advance_receiver advances
  obtain ⟨owns, owners⟩ := advance.holder (kept.holds number receiver present)
  have record := Advance.record advance kept.id kept.value (kept.record number receiver present)
  have noted := Advance.noted advance (kept.noted number receiver present)
  obtain ⟨holder, same⟩ := advance.shared
  have noting : noteRecords history (.receiver number) = Function.update history.records number
      (noteReceiver history.channel.shared history.published receiver (history.records number)) := by
    simp only [noteRecords, present]
  rw [noting]
  apply kept.withReceiver
  case owners => exact owners
  case others => exact fun other distinct => Function.update_of_ne distinct ..
  case own =>
    intro changed own
    obtain rfl := Option.some.inj own
    rw [Function.update_self]
    exact ⟨record, owns, noted⟩
  all_goals rw [same]

theorem resting_some {channel : Channel T} {number : Nat} {receiver : Receiver T}
    (rests : resting channel number = some receiver) :
    channel.receivers number = some receiver ∧ receiver.place = .idle := by
  obtain ⟨present, idle⟩ := Option.filter_eq_some_iff.mp rests
  exact ⟨present, of_decide_eq_true idle⟩

/-- A call begins, outside the mutex. -/
theorem begin_kept {history : History T} {number : Nat} {receiver : Receiver T} {reading : Reading}
    (kept : Kept history) (rests : resting history.channel number = some receiver)
    (unlocked : reading.locked = false) :
    Kept ⟨history.channel.withReceiver number (some (receiver.at (.checking reading))),
      history.published, history.records⟩ := by
  obtain ⟨present, idle⟩ := resting_some rests
  refine kept.withReceiver rfl rfl rfl
    (fun _ _ => rfl) (fun _ _ owned => owned) ?_
  intro changed own
  obtain rfl := Option.some.inj own
  refine ⟨(kept.record number receiver present).resting (by rw [idle]; rfl) rfl, ?_, ?_⟩
  · exact fun locked => absurd (unlocked.symm.trans locked) Bool.false_ne_true
  · apply noted_elsewhere <;> simp [Receiver.at]

theorem spurious_kept {history : History T} {channel : Channel T} {number : Nat}
    (kept : Kept history) (moved : channelStep history.channel (.spurious number) = some channel) :
    Kept ⟨channel, history.published, history.records⟩ := by
  obtain ⟨receiver, present, moved⟩ := Option.bind_eq_some_iff.mp moved
  split at moved
  · rename_i waits
    obtain rfl := Option.some.inj moved
    refine kept.withReceiver rfl rfl rfl
      (fun _ _ => rfl) (fun _ _ owned => owned) ?_
    intro changed own
    obtain rfl := Option.some.inj own
    refine ⟨(kept.record number receiver present).resting (by rw [waits]; rfl) rfl, ?_, ?_⟩
    · exact fun locked => absurd locked Bool.false_ne_true
    · apply noted_elsewhere <;> simp [Receiver.at]
  · cases moved

theorem clone_kept {history : History T} {channel : Channel T} {number copy : Nat}
    (kept : Kept history)
    (moved : channelStep history.channel (.clone number copy) = some channel) :
    Kept ⟨channel, history.published, noteRecords history (.clone number copy)⟩ := by
  obtain ⟨receiver, rests, moved⟩ := Option.bind_eq_some_iff.mp moved
  obtain ⟨present, idle⟩ := resting_some rests
  split at moved
  · cases moved
  · obtain rfl := Option.some.inj moved
    refine kept.withReceiver rfl rfl rfl
      (fun other distinct => Function.update_of_ne distinct ..) (fun _ _ owned => owned) ?_
    intro changed own
    obtain rfl := Option.some.inj own
    refine ⟨?_, ?_, ?_⟩
    · simp only [noteRecords, Function.update_self]
      exact (kept.record number receiver present).resting (by rw [idle]; rfl) rfl
    · exact fun locked => absurd locked (by simp [idle, Place.holdsMutex])
    · apply noted_elsewhere <;> simp [idle]

theorem drop_receiver_kept {history : History T} {channel : Channel T} {number : Nat}
    (kept : Kept history)
    (moved : channelStep history.channel (.dropReceiver number) = some channel) :
    Kept ⟨channel, history.published, history.records⟩ := by
  obtain ⟨receiver, rests, rfl⟩ := Option.map_eq_some_iff.mp moved
  exact kept.withReceiver rfl rfl rfl (fun _ _ => rfl) (fun _ _ owned => owned)
    nofun

/-! The sender's steps. -/

theorem noted_notifies {shared : Shared T} {sender : Sender T} {receiver : Receiver T}
    (notifies : Notifies sender) : Noted shared sender receiver :=
  ⟨fun _ => .inl notifies, fun _ => .inl notifies⟩

theorem Noted.quiet {shared : Shared T} {sender sender' : Sender T} {receiver : Receiver T}
    (noted : Noted shared sender receiver) (quiet : ¬ Notifies sender) :
    Noted shared sender' receiver :=
  ⟨fun place => .inr ((noted.alive place).resolve_left quiet),
    fun place => .inr ((noted.same place).resolve_left quiet)⟩

theorem Kept.withSender {history : History T} (kept : Kept history) {shared : Shared T}
    {sender : Sender T} (more : List T)
    (id : shared.id = UInt64.ofNat (history.published ++ more).length)
    (value : (history.published ++ more)[(history.published ++ more).length - 1]? =
      some shared.value)
    (owner : shared.waitForChange = history.channel.shared.waitForChange)
    (noted : ∀ number receiver, history.channel.receivers number = some receiver →
      Noted shared sender receiver) :
    Kept ⟨{ history.channel with shared, sender }, history.published ++ more, history.records⟩ where
  id := id
  value := value
  record number receiver present := (kept.record number receiver present).publish more
  holds number receiver present holds := owner.trans (kept.holds number receiver present holds)
  noted := noted

/-- The sender moves and publishes nothing. -/
theorem Kept.withoutValue {history : History T} (kept : Kept history) {shared : Shared T}
    {sender : Sender T} (id : shared.id = history.channel.shared.id)
    (value : shared.value = history.channel.shared.value)
    (owner : shared.waitForChange = history.channel.shared.waitForChange)
    (noted : ∀ number receiver, history.channel.receivers number = some receiver →
      Noted shared sender receiver) :
    Kept ⟨{ history.channel with shared, sender }, history.published ++ [], history.records⟩ :=
  kept.withSender [] (by rw [id, List.append_nil, kept.id])
    (by rw [value, List.append_nil, kept.value]) owner noted

theorem send_kept {history : History T} {channel : Channel T} {value : T} (kept : Kept history)
    (moved : channelStep history.channel (.send value) = some channel) :
    Kept ⟨channel, history.published ++ [], history.records⟩ := by
  simp only [channelStep, send] at moved
  split at moved
  · rename_i idle
    have quiet : ¬ Notifies history.channel.sender := by simp [Notifies, idle]
    split at moved
    · obtain rfl := Option.some.inj moved
      exact kept.withoutValue rfl rfl rfl fun number receiver present =>
        (kept.noted number receiver present).quiet quiet
    · obtain rfl := Option.some.inj moved
      exact kept.withoutValue rfl rfl rfl fun number receiver present =>
        (kept.noted number receiver present).quiet quiet
  · cases moved

theorem drop_sender_kept {history : History T} {channel : Channel T} (kept : Kept history)
    (moved : channelStep history.channel .dropSender = some channel) :
    Kept ⟨channel, history.published ++ [], history.records⟩ := by
  simp only [channelStep, dropSender] at moved
  split at moved
  · obtain rfl := Option.some.inj moved
    exact kept.withoutValue rfl rfl rfl fun number receiver present => noted_notifies (.inr rfl)
  · cases moved

theorem wake_waits (receiver : Receiver T) : receiver.wake.place ≠ .waiting := by
  unfold Receiver.wake
  split
  · exact nofun
  · assumption

theorem wake_place (receiver : Receiver T) :
    receiver.wake = receiver ∨ receiver.place = .waiting ∧ receiver.wake.place = .woken := by
  unfold Receiver.wake
  split
  · rename_i waits
    exact .inr ⟨waits, rfl⟩
  · exact .inl rfl

theorem wake_kept {history : History T} {sender : Sender T} (kept : Kept history)
    (free : history.channel.shared.waitForChange = none) :
    Kept ⟨{ history.channel with
      sender
      receivers := fun number => (history.channel.receivers number).map Receiver.wake },
      history.published, history.records⟩ := by
  -- the sender takes the mutex, so no receiver stands between its check and its wait
  have unlocked (number : Nat) (receiver : Receiver T)
      (present : history.channel.receivers number = some receiver) :
      receiver.place.holdsMutex = false := by
    by_contra locked
    have owned := kept.holds number receiver present (by simpa using locked)
    rw [free] at owned
    cases owned
  constructor
  · exact kept.id
  · exact kept.value
  · intro number woken present
    obtain ⟨receiver, before, rfl⟩ := Option.map_eq_some_iff.mp present
    have record := kept.record number receiver before
    rcases wake_place receiver with same | ⟨waits, _⟩
    · rw [same]
      exact record
    · exact record.resting (by rw [waits]; rfl) (by simp [Receiver.wake, waits])
  · intro number woken present holds
    obtain ⟨receiver, before, rfl⟩ := Option.map_eq_some_iff.mp present
    rcases wake_place receiver with same | ⟨_, wakes⟩
    · rw [same, unlocked number receiver before] at holds
      cases holds
    · rw [wakes] at holds
      cases holds
  · intro number woken present
    obtain ⟨receiver, before, rfl⟩ := Option.map_eq_some_iff.mp present
    have waits := wake_waits receiver
    rcases wake_place receiver with same | ⟨_, wakes⟩
    · rw [same] at waits ⊢
      have unlocked := unlocked number receiver before
      refine noted_elsewhere ?_ ?_ waits
      · rintro compares
        rw [compares] at unlocked
        cases unlocked
      · rintro parks
        rw [parks] at unlocked
        cases unlocked
    · apply noted_elsewhere <;> simp [wakes]

theorem publishes_nothing {channel : Channel T} (notifies : Notifies channel.sender) :
    publishes channel .sender = [] := by
  simp only [publishes]
  rcases notifies with waking | closing
  · rw [waking]
  · rw [closing]

theorem sender_kept {history : History T} {channel : Channel T} (kept : Kept history)
    (moved : channelStep history.channel .sender = some channel) :
    Kept ⟨channel, history.published ++ publishes history.channel .sender, history.records⟩ := by
  cases sender_advance moved with
  | replaced value place =>
      simp only [publishes, place]
      refine kept.withSender [value] ?_ (by simp) rfl
        fun number receiver present => noted_notifies (.inl rfl)
      simp [kept.id]
  | notified sender place free =>
      rw [publishes_nothing place, List.append_nil]
      exact wake_kept kept free

theorem history_step_kept {history after : History T} {label : Label T} (kept : Kept history)
    (stepped : historyStep history label = some after) : Kept after := by
  obtain ⟨channel, moved, rfl⟩ := Option.map_eq_some_iff.mp stepped
  have quiet (other : Kept ⟨channel, history.published, history.records⟩) :
      Kept ⟨channel, history.published ++ [], history.records⟩ := by
    rw [List.append_nil]
    exact other
  cases label with
  | send value => exact send_kept kept moved
  | dropSender => exact drop_sender_kept kept moved
  | sender => exact sender_kept kept moved
  | getChanged number =>
      obtain ⟨receiver, rests, rfl⟩ := Option.map_eq_some_iff.mp moved
      exact quiet (begin_kept kept rests rfl)
  | waitForChange number =>
      obtain ⟨receiver, rests, rfl⟩ := Option.map_eq_some_iff.mp moved
      exact quiet (begin_kept kept rests rfl)
  | receiver number =>
      simp only [publishes, List.append_nil]
      exact receiver_kept kept moved
  | spurious number => exact quiet (spurious_kept kept moved)
  | clone number copy =>
      simp only [publishes, List.append_nil]
      exact clone_kept kept moved
  | dropReceiver number => exact quiet (drop_receiver_kept kept moved)

theorem run_kept {init : T} {labels : List (Label T)} {last : History T}
    (ran : runFrom historyStep (History.opened init) labels = some last) : Kept last :=
  invariant_end Kept (fun _ _ _ kept stepped _ => history_step_kept kept stepped) labels _ last
    (opened_kept init) (every_step_trivial labels _) ran

/-! What the channel keeps. -/

/-- What a receiver has seen is less than a full turn of the counter behind. -/
def WithinTurn (history : History T) (number : Nat) : Prop :=
  history.published.length < (history.records number).observed + 2 ^ 64

structure LosesNothing (history : History T) (number : Nat) (receiver : Receiver T) : Prop where
  forward : (history.records number).given.Pairwise fun first second =>
    first.version ≤ second.version
  published : ∀ delivery ∈ (history.records number).given,
    delivery.version ≠ 0 ∧ history.published[delivery.version - 1]? = some delivery.value
  latest : receiver.place.clones = false → WithinTurn history number →
    receiver.lastObserved = history.channel.shared.id →
      ∃ delivery, (history.records number).given.getLast? = some delivery ∧
        history.published.getLast? = some delivery.value
  awake : receiver.place = .waiting →
    (WithinTurn history number ∧ (history.records number).observed < history.published.length ∨
      history.channel.shared.senderAlive = false) → Notifies history.channel.sender

theorem version_of_id {observed length : Nat} (behind : observed ≤ length)
    (within : length < observed + 2 ^ 64)
    (same : UInt64.ofNat observed = UInt64.ofNat length) : observed = length := by
  have words := congrArg UInt64.toNat same
  simp only [UInt64.toNat_ofNat'] at words
  omega

theorem watch_loses_nothing {init : T} {labels : List (Label T)} {last : History T}
    (ran : runFrom historyStep (History.opened init) labels = some last) {number : Nat}
    {receiver : Receiver T} (present : last.channel.receivers number = some receiver) :
    LosesNothing last number receiver := by
  have kept := run_kept ran
  have record := kept.record number receiver present
  constructor
  · exact record.forward
  · exact record.written
  · intro still within same
    have seen : (last.records number).observed = last.published.length :=
      version_of_id record.behind within (by rw [← record.id, same, kept.id])
    obtain ⟨short, _⟩ := List.getElem?_eq_some_iff.mp kept.value
    rcases record.latest with clones | unseen | ⟨delivery, given, ahead⟩
    · exact absurd (still.symm.trans clones) Bool.false_ne_true
    · omega
    · obtain ⟨_, written⟩ := record.written delivery (List.mem_of_getLast? given)
      have bound := record.bounded (List.mem_of_getLast? given)
      have version : delivery.version = last.published.length := by omega
      exact ⟨delivery, given, by rw [List.getLast?_eq_getElem?, ← version, written]⟩
  · intro waits missed
    rcases (kept.noted number receiver present).same (.inr waits) with notifies | ⟨same, alive⟩
    · exact notifies
    · rcases missed with ⟨within, unseen⟩ | gone
      · have seen := version_of_id record.behind within (by rw [← record.id, same, kept.id])
        omega
      · exact absurd (gone.symm.trans alive) Bool.false_ne_true

/-- The notification leaves no receiver in its wait. -/
theorem notification_wakes {history after : History T} (notifies : Notifies history.channel.sender)
    (stepped : historyStep history .sender = some after) (number : Nat) (receiver : Receiver T)
    (present : after.channel.receivers number = some receiver) : receiver.place ≠ .waiting := by
  obtain ⟨channel, moved, rfl⟩ := Option.map_eq_some_iff.mp stepped
  cases sender_advance moved with
  | replaced value place =>
      rcases notifies with waking | closing
      · exact absurd (place.symm.trans waking) nofun
      · exact absurd (place.symm.trans closing) nofun
  | notified sender place free =>
      obtain ⟨before, _, rfl⟩ := Option.map_eq_some_iff.mp present
      exact wake_waits before

/-! A receiver that waits for the notification of a value, and receivers whose id says
nothing of what they were given. -/

def waitingLabels : List (Label String) :=
  [.waitForChange 0, .receiver 0, .receiver 0, .receiver 0, .waitForChange 0, .receiver 0,
    .receiver 0, .receiver 0, .receiver 0, .receiver 0, .receiver 0, .send "Two", .sender]

theorem watch_loses_nothing_waiting : ∃ last receiver,
    runFrom historyStep (History.opened "One") waitingLabels = some last ∧
      last.channel.receivers 0 = some receiver ∧ receiver.place = .waiting ∧
      LosesNothing last 0 receiver :=
  ⟨_, _, rfl, rfl, rfl, watch_loses_nothing
    (show runFrom historyStep (History.opened "One") waitingLabels = some _ from rfl) rfl⟩

def sends (value : T) (count : Nat) : List (Label T) :=
  (List.replicate count [.send value, .sender, .sender]).flatten

/-- Between sends to receivers that do not wait. -/
structure Quiet (history : History T) : Prop where
  idle : history.channel.sender.place = .idle
  counted : history.channel.shared.receiversCount ≠ 0
  free : history.channel.shared.waitForChange = none
  awake : (fun number => (history.channel.receivers number).map Receiver.wake) =
    history.channel.receivers

theorem send_once {history : History T} (quiet : Quiet history) (value : T) : ∃ next,
    runFrom historyStep history [.send value, .sender, .sender] = some next ∧ Quiet next ∧
      next.channel.shared.id = history.channel.shared.id + 1 ∧
      next.channel.receivers = history.channel.receivers ∧ next.records = history.records := by
  obtain ⟨idle, counted, free, awake⟩ := quiet
  simp only [runFrom, historyStep, channelStep, send, idle, counted, if_false, advanceSender,
    wakeUpThreads, free, if_true, awake, Option.map_some, Option.bind_some]
  exact ⟨_, rfl, ⟨rfl, counted, rfl, awake⟩, rfl, rfl, rfl⟩

theorem send_often (value : T) (count : Nat) {history : History T} (quiet : Quiet history) :
    ∃ last, runFrom historyStep history (sends value count) = some last ∧ Quiet last ∧
      last.channel.shared.id = history.channel.shared.id + UInt64.ofNat count ∧
      last.channel.receivers = history.channel.receivers ∧ last.records = history.records := by
  induction count generalizing history with
  | zero => exact ⟨history, rfl, quiet, by simp, rfl, rfl⟩
  | succ count ih =>
      obtain ⟨next, sent, nextQuiet, nextId, nextReceivers, nextRecords⟩ := send_once quiet value
      obtain ⟨last, ran, lastQuiet, lastId, lastReceivers, lastRecords⟩ := ih nextQuiet
      refine ⟨last, ?_, lastQuiet, ?_, lastReceivers.trans nextReceivers,
        lastRecords.trans nextRecords⟩
      · have first : sends value (count + 1) = [.send value, .sender, .sender] ++ sends value count :=
          rfl
        rw [first, run_from_append, sent]
        exact ran
      · rw [lastId, nextId, UInt64.ofNat_add, UInt64.add_assoc, UInt64.add_comm (UInt64.ofNat count)]
        rfl

theorem opened_quiet (init : T) : Quiet (History.opened init) where
  idle := rfl
  counted := (by decide : (1 : UInt64) ≠ 0)
  free := rfl
  awake := by
    funext number
    cases present : (History.opened init).channel.receivers number with
    | none => rfl
    | some receiver =>
        obtain rfl := opened_receiver init present
        rfl

/-- Between sends the first receiver's last observed id is the shared one, and it was not
given the last value. -/
def LatestLost (labels : List (Label String)) (place : Place) : Prop :=
  ∃ last receiver, runFrom historyStep (History.opened "One") labels = some last ∧
    last.channel.receivers 0 = some receiver ∧ receiver.place = place ∧
    last.channel.sender.place = .idle ∧ receiver.lastObserved = last.channel.shared.id ∧
    ¬ ∃ delivery, (last.records 0).given.getLast? = some delivery ∧
      last.published.getLast? = some delivery.value

/-- A full turn of the counter behind, and between the store of the id and the copy of
the value. -/
theorem latest_lost : LatestLost (sends "Two" (2 ^ 64 - 1)) .idle ∧
    LatestLost [.getChanged 0, .receiver 0, .receiver 0] (.cloning .getChanged) := by
  constructor
  · obtain ⟨last, ran, quiet, id, receivers, records⟩ :=
      send_often "Two" (2 ^ 64 - 1) (opened_quiet "One")
    refine ⟨last, ⟨0, .idle, []⟩, ran, by rw [receivers]; rfl, rfl, quiet.idle, ?_, ?_⟩
    · rw [id]
      decide
    · rintro ⟨delivery, given, _⟩
      rw [records] at given
      cases given
  · refine ⟨_, _, rfl, rfl, rfl, rfl, rfl, ?_⟩
    rintro ⟨delivery, given, _⟩
    cases given

end KeryxMiner.WatchHistory
