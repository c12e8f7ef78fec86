import KeryxMiner.TransitionRuns
import Mathlib.Algebra.Group.Nat.Defs
import Mathlib.Logic.Function.Basic

/-!
The watch channel of `src/watch.rs`. A step is one atomic access, one section under the
lock of the value, or one operation on the mutex or the condition variable; between them
the sender and the receivers interleave in any order.
-/

namespace KeryxMiner.WatchChannel

variable {T : Type}

/-- `value`, `id`, `receivers_count` and `sender_alive`; `wait_for_change` holds the
receiver that has locked the mutex. -/
structure Shared (T : Type) where
  value : T
  id : UInt64
  waitForChange : Option Nat
  receiversCount : UInt64
  senderAlive : Bool

inductive ChannelClosed where
  | channelClosed

/-- Where the sender stands: `sending` before `replace_value`, `waking` before the
`wake_up_threads` of a send and `closing` before that of its drop. -/
inductive SenderPlace (T : Type) where
  | idle
  | sending (value : T)
  | waking
  | closing
  | dropped

structure Sender (T : Type) where
  place : SenderPlace T
  results : List (Except ChannelClosed Unit)

/-- The readings of the value: `get_changed`, the two checks of `wait_for_change` and
what follows its wait. -/
inductive Reading where
  | getChanged
  | beforeLock
  | underLock
  | afterWait
  deriving DecidableEq

def Reading.locked : Reading → Bool
  | .getChanged => false
  | .beforeLock => false
  | .underLock => true
  | .afterWait => true

/-- Where a receiver stands: before the load of `sender_alive`, before that of `id`,
before `clone_value`, before the lock, before the wait with the mutex held, in the wait,
and woken but without the mutex. -/
inductive Place where
  | idle
  | checking (reading : Reading)
  | comparing (reading : Reading)
  | cloning (reading : Reading)
  | locking
  | parking
  | waiting
  | woken
  deriving DecidableEq

def Place.holdsMutex : Place → Bool
  | .checking reading => reading.locked
  | .comparing reading => reading.locked
  | .cloning reading => reading.locked
  | .parking => true
  | _ => false

def Place.clones : Place → Bool
  | .cloning _ => true
  | _ => false

structure Receiver (T : Type) where
  lastObserved : UInt64
  place : Place
  results : List (Except ChannelClosed (Option T))

structure Channel (T : Type) where
  shared : Shared T
  sender : Sender T
  receivers : Nat → Option (Receiver T)

/-- `channel`; its receiver is number 0. -/
def Channel.opened (init : T) : Channel T where
  shared := {
    value := init
    id := 1
    waitForChange := none
    receiversCount := 1
    senderAlive := true }
  sender := ⟨.idle, []⟩
  receivers := Function.update (fun _ => none) 0 (some ⟨0, .idle, []⟩)

/-! The sender. -/

def Sender.answer (sender : Sender T) (result : Except ChannelClosed Unit) : Sender T :=
  ⟨.idle, sender.results ++ [result]⟩

def Receiver.wake (receiver : Receiver T) : Receiver T :=
  if receiver.place = .waiting then { receiver with place := .woken } else receiver

/-- `send` up to its load of the count. -/
def send (value : T) (channel : Channel T) : Option (Channel T) :=
  match channel.sender.place with
  | .idle =>
      if channel.shared.receiversCount = 0 then
        some { channel with sender := channel.sender.answer (.error .channelClosed) }
      else some { channel with sender := { channel.sender with place := .sending value } }
  | _ => none

def dropSender (channel : Channel T) : Option (Channel T) :=
  match channel.sender.place with
  | .idle => some { channel with
      shared := { channel.shared with senderAlive := false }
      sender := { channel.sender with place := .closing } }
  | _ => none

/-- No receiver holds the mutex during `wake_up_threads`. -/
def wakeUpThreads (sender : Sender T) (channel : Channel T) : Option (Channel T) :=
  if channel.shared.waitForChange = none then
    some { channel with
      sender
      receivers := fun receiver => (channel.receivers receiver).map Receiver.wake }
  else none

def advanceSender (channel : Channel T) : Option (Channel T) :=
  match channel.sender.place with
  | .idle => none
  | .sending value => some { channel with
      shared := { channel.shared with value := value, id := channel.shared.id + 1 }
      sender := { channel.sender with place := .waking } }
  | .waking => wakeUpThreads (channel.sender.answer (.ok ())) channel
  | .closing => wakeUpThreads { channel.sender with place := .dropped } channel
  | .dropped => none

/-! The receivers. -/

def Receiver.at (receiver : Receiver T) (place : Place) : Receiver T :=
  { receiver with place }

/-- The end of a call. -/
def Receiver.answer (receiver : Receiver T) (result : Except ChannelClosed (Option T)) :
    Receiver T :=
  { receiver with place := .idle, results := receiver.results ++ [result] }

/-- The guard of the mutex goes with the call that holds it. -/
def Shared.leave (shared : Shared T) (reading : Reading) : Shared T :=
  if reading.locked then { shared with waitForChange := none } else shared

def lock (number : Nat) (reading : Reading) (shared : Shared T) (receiver : Receiver T) :
    Option (Shared T × Receiver T) :=
  if shared.waitForChange = none then
    some ({ shared with waitForChange := some number }, receiver.at (.checking reading))
  else none

/-- What `get_changed_internal` found no new id for. -/
def unchanged (receiver : Receiver T) : Reading → Receiver T
  | .getChanged => receiver.answer (.ok none)
  | .beforeLock => receiver.at .locking
  | _ => receiver.at .parking

def advanceReceiver (number : Nat) (shared : Shared T) (receiver : Receiver T) :
    Option (Shared T × Receiver T) :=
  match receiver.place with
  | .idle => none
  | .checking reading =>
      if shared.senderAlive then some (shared, receiver.at (.comparing reading))
      else some (shared.leave reading, receiver.answer (.error .channelClosed))
  | .comparing reading =>
      -- after the wait the id is not compared
      if reading ≠ .afterWait ∧ receiver.lastObserved = shared.id then
        some (shared, unchanged receiver reading)
      else some (shared, { receiver with lastObserved := shared.id, place := .cloning reading })
  | .cloning reading => some (shared.leave reading, receiver.answer (.ok (some shared.value)))
  | .locking => lock number .underLock shared receiver
  | .parking => some ({ shared with waitForChange := none }, receiver.at .waiting)
  | .waiting => none
  | .woken => lock number .afterWait shared receiver

def Channel.withReceiver (channel : Channel T) (number : Nat) (receiver : Option (Receiver T)) :
    Channel T :=
  { channel with receivers := Function.update channel.receivers number receiver }

/-- A receiver that is not in a call. -/
def resting (channel : Channel T) (number : Nat) : Option (Receiver T) :=
  (channel.receivers number).filter fun receiver => receiver.place = .idle

inductive Label (T : Type) where
  | send (value : T)
  | dropSender
  | sender
  | getChanged (number : Nat)
  | waitForChange (number : Nat)
  | receiver (number : Nat)
  | spurious (number : Nat)
  | clone (number copy : Nat)
  | dropReceiver (number : Nat)

def channelStep (channel : Channel T) : Label T → Option (Channel T)
  | .send value => send value channel
  | .dropSender => dropSender channel
  | .sender => advanceSender channel
  | .getChanged number => (resting channel number).map fun receiver =>
      channel.withReceiver number (some (receiver.at (.checking .getChanged)))
  | .waitForChange number => (resting channel number).map fun receiver =>
      channel.withReceiver number (some (receiver.at (.checking .beforeLock)))
  | .receiver number => (channel.receivers number).bind fun receiver =>
      (advanceReceiver number channel.shared receiver).map fun (shared, receiver) =>
        { channel with shared }.withReceiver number (some receiver)
  | .spurious number => (channel.receivers number).bind fun receiver =>
      if receiver.place = .waiting then
        some (channel.withReceiver number (some (receiver.at .woken)))
      else none
  | .clone number copy => (resting channel number).bind fun receiver =>
      if (channel.receivers copy).isSome then none
      else some ({ channel with shared := { channel.shared with
          receiversCount := channel.shared.receiversCount + 1 } }.withReceiver copy
            (some { receiver with results := [] }))
  | .dropReceiver number => (resting channel number).map fun _ =>
      { channel with shared := { channel.shared with
        receiversCount := channel.shared.receiversCount - 1 } }.withReceiver number none

/-! What a step of the sender can be. -/

inductive SenderAdvance (channel : Channel T) : Channel T → Prop where
  | replaced (value : T) (place : channel.sender.place = .sending value) :
      SenderAdvance channel { channel with
        shared := { channel.shared with value := value, id := channel.shared.id + 1 }
        sender := { channel.sender with place := .waking } }
  | notified (sender : Sender T)
      (place : channel.sender.place = .waking ∨ channel.sender.place = .closing)
      (free : channel.shared.waitForChange = none) :
      SenderAdvance channel { channel with
        sender
        receivers := fun number => (channel.receivers number).map Receiver.wake }

theorem wake_advance {channel after : Channel T} {sender : Sender T}
    (place : channel.sender.place = .waking ∨ channel.sender.place = .closing)
    (wakes : wakeUpThreads sender channel = some after) : SenderAdvance channel after := by
  unfold wakeUpThreads at wakes
  split at wakes
  · rename_i free
    cases wakes
    exact .notified sender place free
  · cases wakes

theorem sender_advance {channel after : Channel T} (advances : advanceSender channel = some after) :
    SenderAdvance channel after := by
  unfold advanceSender at advances
  split at advances
  · cases advances
  · rename_i value place
    cases advances
    exact .replaced value place
  · rename_i place
    exact wake_advance (.inl place) advances
  · rename_i place
    exact wake_advance (.inr place) advances
  · cases advances

/-! What a step of a receiver can be. -/

inductive Advance (number : Nat) (shared : Shared T) (receiver : Receiver T) :
    Shared T → Receiver T → Prop where
  | alive (reading : Reading) (place : receiver.place = .checking reading)
      (alive : shared.senderAlive = true) :
      Advance number shared receiver shared (receiver.at (.comparing reading))
  | closed (reading : Reading) (place : receiver.place = .checking reading) :
      Advance number shared receiver (shared.leave reading)
        (receiver.answer (.error .channelClosed))
  | same (reading : Reading) (place : receiver.place = .comparing reading)
      (compared : reading ≠ .afterWait) (same : receiver.lastObserved = shared.id) :
      Advance number shared receiver shared (unchanged receiver reading)
  | stored (reading : Reading) (place : receiver.place = .comparing reading)
      (changed : ¬ (reading ≠ .afterWait ∧ receiver.lastObserved = shared.id)) :
      Advance number shared receiver shared
        { receiver with lastObserved := shared.id, place := .cloning reading }
  | cloned (reading : Reading) (place : receiver.place = .cloning reading) :
      Advance number shared receiver (shared.leave reading)
        (receiver.answer (.ok (some shared.value)))
  | locked (reading : Reading) (place : receiver.place = .locking ∨ receiver.place = .woken)
      (free : shared.waitForChange = none) :
      Advance number shared receiver { shared with waitForChange := some number }
        (receiver.at (.checking reading))
  | parked (place : receiver.place = .parking) :
      Advance number shared receiver { shared with waitForChange := none }
        (receiver.at .waiting)

theorem lock_advance {number : Nat} {reading : Reading} {shared shared' : Shared T}
    {receiver receiver' : Receiver T} (place : receiver.place = .locking ∨ receiver.place = .woken)
    (locks : lock number reading shared receiver = some (shared', receiver')) :
    Advance number shared receiver shared' receiver' := by
  unfold lock at locks
  split at locks
  · rename_i free
    cases locks
    exact .locked reading place free
  · cases locks

theorem advance_receiver {number : Nat} {shared shared' : Shared T}
    {receiver receiver' : Receiver T}
    (advances : advanceReceiver number shared receiver = some (shared', receiver')) :
    Advance number shared receiver shared' receiver' := by
  unfold advanceReceiver at advances
  split at advances
  · cases advances
  · rename_i reading place
    split at advances
    · rename_i alive
      cases advances
      exact .alive reading place alive
    · cases advances
      exact .closed reading place
  · rename_i reading place
    split at advances
    · rename_i same
      cases advances
      exact .same reading place same.1 same.2
    · rename_i changed
      cases advances
      exact .stored reading place changed
  · rename_i reading place
    cases advances
    exact .cloned reading place
  · rename_i place
    exact lock_advance (.inl place) advances
  · rename_i place
    cases advances
    exact .parked place
  · cases advances
  · rename_i place
    exact lock_advance (.inr place) advances

/-- The receivers alone change neither the value nor its id. -/
theorem Advance.shared {number : Nat} {shared shared' : Shared T} {receiver receiver' : Receiver T}
    (advance : Advance number shared receiver shared' receiver') :
    ∃ holder, shared' = { shared with waitForChange := holder } := by
  have left (reading : Reading) :
      ∃ holder, shared.leave reading = { shared with waitForChange := holder } := by
    unfold Shared.leave
    split
    · exact ⟨none, rfl⟩
    · exact ⟨shared.waitForChange, rfl⟩
  cases advance with
  | alive reading place alive => exact ⟨_, rfl⟩
  | closed reading place => exact left reading
  | same reading place compared same => exact ⟨_, rfl⟩
  | stored reading place changed => exact ⟨_, rfl⟩
  | cloned reading place => exact left reading
  | locked reading place free => exact ⟨_, rfl⟩
  | parked place => exact ⟨_, rfl⟩

/-- A receiver holds the mutex when its place says so, and takes it from no other. -/
theorem Advance.holder {number : Nat} {shared shared' : Shared T} {receiver receiver' : Receiver T}
    (advance : Advance number shared receiver shared' receiver')
    (holds : receiver.place.holdsMutex = true → shared.waitForChange = some number) :
    (receiver'.place.holdsMutex = true → shared'.waitForChange = some number) ∧
      ∀ other ≠ number, shared.waitForChange = some other →
        shared'.waitForChange = some other := by
  have left (reading : Reading) (held : receiver.place.holdsMutex = reading.locked) :
      ∀ other ≠ number, shared.waitForChange = some other →
        (shared.leave reading).waitForChange = some other := by
    intro other distinct owned
    unfold Shared.leave
    split
    · rename_i locked
      rw [holds (held.trans locked)] at owned
      exact absurd (Option.some.inj owned).symm distinct
    · exact owned
  cases advance with
  | alive reading place alive =>
      rw [place] at holds
      exact ⟨holds, fun other _ owned => owned⟩
  | closed reading place =>
      exact ⟨fun idle => absurd idle Bool.false_ne_true, left reading (by rw [place]; rfl)⟩
  | same reading place compared same =>
      rw [place] at holds
      refine ⟨?_, fun other _ owned => owned⟩
      cases reading with
      | getChanged => exact fun idle => absurd idle Bool.false_ne_true
      | beforeLock => exact fun idle => absurd idle Bool.false_ne_true
      | underLock => exact holds
      | afterWait => exact holds
  | stored reading place changed =>
      rw [place] at holds
      exact ⟨holds, fun other _ owned => owned⟩
  | cloned reading place =>
      exact ⟨fun idle => absurd idle Bool.false_ne_true, left reading (by rw [place]; rfl)⟩
  | locked reading place free =>
      refine ⟨fun _ => rfl, fun other _ owned => ?_⟩
      rw [free] at owned
      cases owned
  | parked place =>
      refine ⟨fun idle => absurd idle Bool.false_ne_true, fun other distinct owned => ?_⟩
      rw [holds (by rw [place]; rfl)] at owned
      exact absurd (Option.some.inj owned).symm distinct

end KeryxMiner.WatchChannel
