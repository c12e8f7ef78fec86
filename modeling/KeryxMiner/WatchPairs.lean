import KeryxMiner.WatchHistory

/-!
The pairs of a value and its version that a watch channel gives to its receivers.
-/

namespace KeryxMiner.WatchPairs

open TransitionRuns WatchChannel WatchHistory

variable {T : Type}

/-- Each receiver's values are those of the versions it has observed, and no version is
given twice. -/
def Paired (history : History T) : Prop :=
  ∀ number receiver, history.channel.receivers number = some receiver →
    (∀ delivery ∈ (history.records number).given, delivery.version = delivery.observed) ∧
      ((history.records number).given.map Delivery.version).Nodup

/-- No value is replaced while a receiver stands between the id it has stored and the
value, and a receiver that reads the id after its wait finds a new one. -/
def Undisturbed (before : History T) : Label T → Prop
  | .sender => (∃ value, before.channel.sender.place = .sending value) →
      ∀ number receiver, before.channel.receivers number = some receiver →
        receiver.place.clones = false
  | .receiver number => ∀ receiver, before.channel.receivers number = some receiver →
      receiver.place = .comparing .afterWait →
        receiver.lastObserved ≠ before.channel.shared.id
  | _ => True

structure RecordPaired (published : List T) (receiver : Receiver T) (record : Record T) :
    Prop where
  own : ∀ delivery ∈ record.given, delivery.version = delivery.observed
  once : (record.given.map Delivery.version).Nodup
  seen : ∀ delivery ∈ record.given, delivery.version ≤ record.observed
  fresh : receiver.place.clones = true → record.observed = published.length ∧
    ∀ delivery ∈ record.given, delivery.version < record.observed

structure Sound (history : History T) : Prop where
  kept : Kept history
  paired : ∀ number receiver, history.channel.receivers number = some receiver →
    RecordPaired history.published receiver (history.records number)

theorem opened_sound (init : T) : Sound (History.opened init) where
  kept := opened_kept init
  paired := by
    intro number receiver present
    obtain rfl := opened_receiver init present
    exact ⟨by simp [History.opened], .nil, by simp [History.opened], nofun⟩

theorem RecordPaired.resting {published published' : List T} {receiver receiver' : Receiver T}
    {record : Record T} (paired : RecordPaired published receiver record)
    (still : receiver'.place.clones = false) : RecordPaired published' receiver' record where
  own := paired.own
  once := paired.once
  seen := paired.seen
  fresh clones := absurd (still.symm.trans clones) Bool.false_ne_true

/-- A new id is ahead of all that was given. -/
theorem RecordPaired.store {published : List T} {receiver receiver' : Receiver T}
    {record : Record T} (paired : RecordPaired published receiver record)
    (kept : RecordKept published receiver record) {id : UInt64}
    (current : id = UInt64.ofNat published.length) (changed : receiver.lastObserved ≠ id) :
    RecordPaired published receiver' { record with observed := published.length } where
  own := paired.own
  once := paired.once
  seen delivery given := Nat.le_trans (paired.seen delivery given) kept.behind
  fresh := by
    have moved : record.observed ≠ published.length := by
      intro same
      rw [kept.id, current, same] at changed
      exact changed rfl
    have behind := kept.behind
    refine fun _ => ⟨rfl, fun delivery given => ?_⟩
    have seen := paired.seen delivery given
    dsimp only
    omega

theorem RecordPaired.give {published : List T} {receiver receiver' : Receiver T}
    {record : Record T} (paired : RecordPaired published receiver record)
    (clones : receiver.place.clones = true) (rests : receiver'.place.clones = false) (value : T) :
    RecordPaired published receiver'
      { record with given := record.given ++ [⟨record.observed, published.length, value⟩] } := by
  obtain ⟨current, fresh⟩ := paired.fresh clones
  constructor
  · intro delivery given
    rcases List.mem_append.mp given with old | new
    · exact paired.own delivery old
    · obtain rfl := List.mem_singleton.mp new
      exact current.symm
  · rw [List.map_append]
    refine List.nodup_append.mpr ⟨paired.once, by simp, ?_⟩
    rintro _ old _ new rfl
    obtain ⟨delivery, given, version⟩ := List.mem_map.mp old
    have before := fresh delivery given
    have last : delivery.version = published.length := by simpa [version] using new
    omega
  · intro delivery given
    rcases List.mem_append.mp given with old | new
    · exact paired.seen delivery old
    · obtain rfl := List.mem_singleton.mp new
      exact Nat.le_of_eq current.symm
  · exact fun clones => absurd (rests.symm.trans clones) Bool.false_ne_true

/-! Steps. -/

def AllPaired (receivers : Nat → Option (Receiver T)) (published : List T)
    (records : Nat → Record T) : Prop :=
  ∀ number receiver, receivers number = some receiver →
    RecordPaired published receiver (records number)

theorem AllPaired.update {receivers : Nat → Option (Receiver T)} {published : List T}
    {records records' : Nat → Record T} (paired : AllPaired receivers published records)
    {number : Nat} {receiver : Option (Receiver T)}
    (others : ∀ other ≠ number, records' other = records other)
    (own : ∀ changed, receiver = some changed →
      RecordPaired published changed (records' number)) :
    AllPaired (Function.update receivers number receiver) published records' := by
  intro other changed present
  by_cases same : other = number
  · subst same
    exact own changed (by simpa using present)
  · rw [Function.update_of_ne same] at present
    rw [others other same]
    exact paired other changed present

theorem AllPaired.wake {receivers : Nat → Option (Receiver T)} {published : List T}
    {records : Nat → Record T} (paired : AllPaired receivers published records) :
    AllPaired (fun number => (receivers number).map Receiver.wake) published records := by
  intro number woken present
  obtain ⟨receiver, before, rfl⟩ := Option.map_eq_some_iff.mp present
  rcases wake_place receiver with same | ⟨_, wakes⟩
  · rw [same]
    exact paired number receiver before
  · exact (paired number receiver before).resting (by rw [wakes]; rfl)

theorem Advance.paired {number : Nat} {shared shared' : Shared T} {receiver receiver' : Receiver T}
    (advance : Advance number shared receiver shared' receiver') {published : List T}
    {record : Record T} (id : shared.id = UInt64.ofNat published.length)
    (kept : RecordKept published receiver record)
    (calm : receiver.place = .comparing .afterWait → receiver.lastObserved ≠ shared.id)
    (paired : RecordPaired published receiver record) :
    RecordPaired published receiver' (noteReceiver shared published receiver record) := by
  unfold noteReceiver
  cases advance with
  | alive reading place alive =>
      rw [place]
      exact paired.resting rfl
  | closed reading place =>
      rw [place]
      exact paired.resting rfl
  | same reading place compared same =>
      simp only [place, if_pos (And.intro compared same)]
      cases reading <;> exact paired.resting rfl
  | stored reading place changed =>
      simp only [place, if_neg changed]
      apply paired.store kept id
      intro same
      -- after a wait the id is stored without a comparison
      by_cases waited : reading = .afterWait
      · exact calm (waited ▸ place) same
      · exact changed ⟨waited, same⟩
  | cloned reading place =>
      simp only [place]
      exact paired.give (by rw [place]; rfl) rfl shared.value
  | locked reading place free =>
      rcases place with place | place <;> rw [place] <;> exact paired.resting rfl
  | parked place =>
      rw [place]
      exact paired.resting rfl

theorem send_receivers {before after : Channel T} {value : T}
    (moved : channelStep before (.send value) = some after) :
    after.receivers = before.receivers := by
  simp only [channelStep, send] at moved
  split at moved
  · split at moved <;> obtain rfl := Option.some.inj moved <;> rfl
  · cases moved

theorem drop_sender_receivers {before after : Channel T}
    (moved : channelStep before .dropSender = some after) :
    after.receivers = before.receivers := by
  simp only [channelStep, dropSender] at moved
  split at moved
  · obtain rfl := Option.some.inj moved
    rfl
  · cases moved

theorem sender_paired {history : History T} {channel : Channel T}
    (paired : AllPaired history.channel.receivers history.published history.records)
    (undisturbed : Undisturbed history .sender)
    (moved : channelStep history.channel .sender = some channel) :
    AllPaired channel.receivers (history.published ++ publishes history.channel .sender)
      history.records := by
  cases sender_advance moved with
  | replaced value place =>
      simp only [publishes, place]
      intro number receiver present
      exact (paired number receiver present).resting
        (undisturbed ⟨value, place⟩ number receiver present)
  | notified sender place free =>
      rw [publishes_nothing place, List.append_nil]
      exact paired.wake

theorem receiver_paired {history : History T} {channel : Channel T} {number : Nat}
    (sound : Sound history) (undisturbed : Undisturbed history (.receiver number))
    (moved : channelStep history.channel (.receiver number) = some channel) :
    AllPaired channel.receivers history.published (noteRecords history (.receiver number)) := by
  obtain ⟨receiver, present, moved⟩ := Option.bind_eq_some_iff.mp moved
  obtain ⟨⟨shared, receiver'⟩, advances, rfl⟩ := Option.map_eq_some_iff.mp moved
  have noting : noteRecords history (.receiver number) = Function.update history.records number
      (noteReceiver history.channel.shared history.published receiver (history.records number)) := by
    simp only [noteRecords, present]
  rw [noting]
  apply AllPaired.update sound.paired
  · exact fun other distinct => Function.update_of_ne distinct ..
  · intro changed own
    obtain rfl := Option.some.inj own
    rw [Function.update_self]
    exact Advance.paired (advance_receiver advances) sound.kept.id
      (sound.kept.record number receiver present) (undisturbed receiver present)
      (sound.paired number receiver present)

theorem begin_paired {history : History T} {number : Nat} {receiver : Receiver T}
    (paired : AllPaired history.channel.receivers history.published history.records)
    (present : history.channel.receivers number = some receiver) {place : Place}
    (rests : place.clones = false) :
    AllPaired (history.channel.withReceiver number (some (receiver.at place))).receivers
      history.published history.records := by
  apply paired.update (fun _ _ => rfl)
  intro changed own
  obtain rfl := Option.some.inj own
  exact (paired number receiver present).resting rests

theorem clone_paired {history : History T} {channel : Channel T} {number copy : Nat}
    (paired : AllPaired history.channel.receivers history.published history.records)
    (moved : channelStep history.channel (.clone number copy) = some channel) :
    AllPaired channel.receivers history.published
      (noteRecords history (.clone number copy)) := by
  obtain ⟨receiver, rests, moved⟩ := Option.bind_eq_some_iff.mp moved
  obtain ⟨present, idle⟩ := resting_some rests
  split at moved
  · cases moved
  · obtain rfl := Option.some.inj moved
    apply paired.update
    · exact fun other distinct => Function.update_of_ne distinct ..
    · intro changed own
      obtain rfl := Option.some.inj own
      simp only [noteRecords, Function.update_self]
      exact (paired number receiver present).resting (by rw [idle]; rfl)

theorem step_sound {history after : History T} {label : Label T} (sound : Sound history)
    (undisturbed : Undisturbed history label)
    (stepped : historyStep history label = some after) : Sound after := by
  refine ⟨history_step_kept sound.kept stepped, ?_⟩
  obtain ⟨channel, moved, rfl⟩ := Option.map_eq_some_iff.mp stepped
  have paired : AllPaired history.channel.receivers history.published history.records :=
    sound.paired
  change AllPaired channel.receivers (history.published ++ publishes history.channel label)
    (noteRecords history label)
  cases label with
  | send value =>
      simp only [publishes, List.append_nil]
      rw [send_receivers moved]
      exact paired
  | dropSender =>
      simp only [publishes, List.append_nil]
      rw [drop_sender_receivers moved]
      exact paired
  | sender => exact sender_paired paired undisturbed moved
  | getChanged number =>
      obtain ⟨receiver, rests, rfl⟩ := Option.map_eq_some_iff.mp moved
      simp only [publishes, List.append_nil]
      exact begin_paired paired (resting_some rests).1 rfl
  | waitForChange number =>
      obtain ⟨receiver, rests, rfl⟩ := Option.map_eq_some_iff.mp moved
      simp only [publishes, List.append_nil]
      exact begin_paired paired (resting_some rests).1 rfl
  | receiver number =>
      simp only [publishes, List.append_nil]
      exact receiver_paired sound undisturbed moved
  | spurious number =>
      obtain ⟨receiver, present, moved⟩ := Option.bind_eq_some_iff.mp moved
      split at moved
      · obtain rfl := Option.some.inj moved
        simp only [publishes, List.append_nil]
        exact begin_paired paired present rfl
      · cases moved
  | clone number copy =>
      simp only [publishes, List.append_nil]
      exact clone_paired paired moved
  | dropReceiver number =>
      obtain ⟨receiver, rests, rfl⟩ := Option.map_eq_some_iff.mp moved
      simp only [publishes, List.append_nil]
      exact paired.update (fun _ _ => rfl)
        fun receiver absent => absurd absent.symm (Option.some_ne_none receiver)

theorem watch_pairs_undisturbed (init : T) (labels : List (Label T))
    (undisturbed : EveryStep historyStep (fun before label _ => Undisturbed before label)
      (History.opened init) labels) :
    EveryStep historyStep (fun _ _ after => Paired after) (History.opened init) labels := by
  have keeps (before : History T) (label : Label T) (after : History T) (sound : Sound before)
      (stepped : historyStep before label = some after) (calm : Undisturbed before label) :
      Sound after := step_sound sound calm stepped
  refine every_step_of_invariant Sound keeps ?_ labels _ (opened_sound init) undisturbed
  intro before label after sound stepped calm number receiver present
  have paired := (keeps before label after sound stepped calm).paired number receiver present
  exact ⟨paired.own, paired.once⟩

/-! A value that is sent and then read. -/

def sentThenRead : List (Label String) :=
  [.send "Two", .sender, .sender, .getChanged 0, .receiver 0, .receiver 0, .receiver 0]

theorem watch_pairs_sent_then_read :
    EveryStep historyStep (fun _ _ after => Paired after) (History.opened "One") sentThenRead := by
  apply watch_pairs_undisturbed
  have present {own receiver : Receiver String} (same : some own = some receiver)
      (waited : receiver.place = .comparing .afterWait)
      (place : own.place ≠ .comparing .afterWait) : False :=
    place (Option.some.inj same ▸ waited)
  refine every_step_cons rfl trivial (every_step_cons rfl ?_ (every_step_cons rfl ?_
    (every_step_cons rfl trivial (every_step_cons rfl ?_ (every_step_cons rfl ?_
      (every_step_cons rfl ?_ trivial))))))
  · intro _ number receiver present
    obtain rfl := opened_receiver "One" present
    rfl
  · rintro ⟨value, sending⟩
    cases sending
  · exact fun receiver own waited => (present own waited nofun).elim
  · exact fun receiver own waited => (present own waited nofun).elim
  · exact fun receiver own waited => (present own waited nofun).elim

/-! A value that is replaced under its reader, and a notification of a value that was
read before it. -/

def torn : List (Label String) :=
  [.getChanged 0, .receiver 0, .send "Two", .receiver 0, .sender, .receiver 0]

def lateNotice : List (Label String) :=
  [.send "Two", .sender, .getChanged 0, .receiver 0, .receiver 0, .receiver 0, .waitForChange 0,
    .receiver 0, .receiver 0, .receiver 0, .receiver 0, .receiver 0, .receiver 0, .sender,
    .receiver 0, .receiver 0, .receiver 0, .receiver 0]

theorem pairs_torn :
    (∃ last, runFrom historyStep (History.opened "One") torn = some last ∧ ¬ Paired last) ∧
      ∃ last, runFrom historyStep (History.opened "One") lateNotice = some last ∧
        ¬ Paired last := by
  constructor
  · exact ⟨_, rfl, fun paired => absurd (paired 0 _ rfl).1 (by decide)⟩
  · exact ⟨_, rfl, fun paired => absurd (paired 0 _ rfl).2 (by decide)⟩

/-! The condition is exact: what disturbs a receiver makes its next value a wrong one. -/

theorem clone_step {history : History T} {number : Nat} {receiver : Receiver T}
    (present : history.channel.receivers number = some receiver)
    (clones : receiver.place.clones = true) : ∃ after receiver',
      historyStep history (.receiver number) = some after ∧
      after.channel.receivers number = some receiver' ∧
      (after.records number).given = (history.records number).given ++
        [⟨(history.records number).observed, history.published.length,
          history.channel.shared.value⟩] := by
  obtain ⟨lastObserved, place, results⟩ := receiver
  cases place with
  | cloning reading =>
      simp only [historyStep, channelStep, present, advanceReceiver, Option.bind_some,
        Option.map_some]
      refine ⟨_, _, rfl, Function.update_self .., ?_⟩
      simp only [noteRecords, present, Function.update_self, noteReceiver]
  | _ => cases clones

theorem replace_step {history after : History T} {value : T}
    (sending : history.channel.sender.place = .sending value)
    (stepped : historyStep history .sender = some after) :
    after.channel.receivers = history.channel.receivers ∧
      after.published = history.published ++ [value] ∧ after.records = history.records := by
  obtain ⟨channel, moved, rfl⟩ := Option.map_eq_some_iff.mp stepped
  simp only [channelStep, advanceSender, sending] at moved
  obtain rfl := Option.some.inj moved
  exact ⟨rfl, by simp [publishes, sending], rfl⟩

theorem store_step {history after : History T} {number : Nat} {receiver : Receiver T}
    (present : history.channel.receivers number = some receiver)
    (waited : receiver.place = .comparing .afterWait)
    (stepped : historyStep history (.receiver number) = some after) :
    ∃ stored, after.channel.receivers number = some stored ∧ stored.place.clones = true ∧
      after.published = history.published ∧
      (after.records number).given = (history.records number).given := by
  obtain ⟨channel, moved, rfl⟩ := Option.map_eq_some_iff.mp stepped
  simp only [channelStep, present, advanceReceiver, waited, Option.bind_some] at moved
  obtain rfl := Option.some.inj moved
  refine ⟨_, Function.update_self .., rfl, List.append_nil _, ?_⟩
  simp [noteRecords, present, noteReceiver, waited]

/-- A value replaced under a receiver is given to it with the id of the one before. -/
theorem replaced_unpaired {history after : History T} (sound : Sound history) {number : Nat}
    {receiver : Receiver T} (present : history.channel.receivers number = some receiver)
    (clones : receiver.place.clones = true) {value : T}
    (sending : history.channel.sender.place = .sending value)
    (stepped : historyStep history .sender = some after) :
    ∃ last, historyStep after (.receiver number) = some last ∧ ¬ Paired last := by
  have stored := ((sound.paired number receiver present).fresh clones).1
  obtain ⟨receivers, published, records⟩ := replace_step sending stepped
  obtain ⟨last, receiver', given, lastPresent, lastGiven⟩ :=
    clone_step ((congrFun receivers number).trans present) clones
  refine ⟨last, given, fun paired => ?_⟩
  have own := (paired number receiver' lastPresent).1 _
    (by rw [lastGiven]; exact List.mem_concat_self)
  simp [records, published, stored] at own

/-- A receiver that its wait leaves with the id it had is given the same version again. -/
theorem reread_unpaired {history after : History T} (sound : Sound history) {number : Nat}
    {receiver : Receiver T} (present : history.channel.receivers number = some receiver)
    (waited : receiver.place = .comparing .afterWait)
    (same : receiver.lastObserved = history.channel.shared.id) (within : WithinTurn history number)
    (stepped : historyStep history (.receiver number) = some after) :
    ∃ last, historyStep after (.receiver number) = some last ∧ ¬ Paired last := by
  have record := sound.kept.record number receiver present
  have paired := sound.paired number receiver present
  have seen : (history.records number).observed = history.published.length :=
    version_of_id record.behind within (by rw [← record.id, same, sound.kept.id])
  obtain ⟨short, _⟩ := List.getElem?_eq_some_iff.mp sound.kept.value
  obtain ⟨stored, storedPresent, clones, published, records⟩ :=
    store_step present waited stepped
  obtain ⟨last, receiver', given, lastPresent, lastGiven⟩ := clone_step storedPresent clones
  refine ⟨last, given, fun unique => ?_⟩
  have once := (unique number receiver' lastPresent).2
  rw [lastGiven, records, published, List.map_append] at once
  rcases record.latest with cloning | unseen | ⟨delivery, latest, ahead⟩
  · rw [waited] at cloning
    cases cloning
  · omega
  · have earlier := List.mem_of_getLast? latest
    have version : delivery.version = history.published.length :=
      Nat.le_antisymm (record.bounded earlier) (seen ▸ ahead)
    exact (List.nodup_append.mp once).2.2 delivery.version (List.mem_map_of_mem earlier)
      history.published.length (by simp) version

end KeryxMiner.WatchPairs
