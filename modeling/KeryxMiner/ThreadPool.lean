import KeryxMiner.TransitionRuns
import Mathlib.Data.List.Basic

/-!
Threads that take turns. In a turn one thread accesses what all of them share, and goes on to its
next place; threads begin at any time and keep their numbers.
-/

namespace KeryxMiner.ThreadPool

open TransitionRuns

variable {Shared Place Label : Type}

structure Pool (Shared Place : Type) where
  shared : Shared
  threads : List Place

inductive Event (Place Label : Type) where
  | turn (thread : Nat) (label : Label)
  | begin (place : Place)

section Steps
variable (turn : Nat → Shared → Place → Label → Option (Shared × Place)) (starts : Place → Bool)

def poolStep (pool : Pool Shared Place) : Event Place Label → Option (Pool Shared Place)
  | .turn thread label => do
      let place ← pool.threads[thread]?
      let after ← turn thread pool.shared place label
      return ⟨after.1, pool.threads.set thread after.2⟩
  | .begin place => if starts place then some ⟨pool.shared, pool.threads ++ [place]⟩ else none

variable {turn starts}

/-- Everything that a step can be. -/
theorem pool_step_cases {pool after : Pool Shared Place} {event : Event Place Label}
    (stepped : poolStep turn starts pool event = some after) :
    (∃ thread label place shared next, event = .turn thread label ∧
        pool.threads[thread]? = some place ∧
        turn thread pool.shared place label = some (shared, next) ∧
        after = ⟨shared, pool.threads.set thread next⟩) ∨
      ∃ place, event = .begin place ∧ starts place = true ∧
        after = ⟨pool.shared, pool.threads ++ [place]⟩ := by
  cases event with
  | turn thread label =>
      obtain ⟨place, here, rest⟩ := Option.bind_eq_some_iff.mp stepped
      obtain ⟨⟨shared, next⟩, turned, same⟩ := Option.bind_eq_some_iff.mp rest
      exact .inl ⟨thread, label, place, shared, next, rfl, here, turned,
        (Option.some.inj same).symm⟩
  | begin place =>
      rw [poolStep] at stepped
      split at stepped
      · rename_i start
        exact .inr ⟨place, rfl, start, (Option.some.inj stepped).symm⟩
      · cases stepped

/-- What every turn keeps of what is shared, a run keeps. -/
theorem run_keeps (kept : Shared → Prop)
    (keeps : ∀ thread shared place label after next,
      turn thread shared place label = some (after, next) → kept shared → kept after)
    {pool last : Pool Shared Place} {events : List (Event Place Label)} (start : kept pool.shared)
    (ran : runFrom (poolStep turn starts) pool events = some last) : kept last.shared := by
  refine invariant_end (fun pool => kept pool.shared) ?_ events pool last start
    (every_step_trivial events pool) ran
  intro before event after held stepped _
  obtain ⟨thread, label, place, shared, next, -, -, turned, rfl⟩ | ⟨place, -, -, rfl⟩ :=
    pool_step_cases stepped
  · exact keeps thread _ place label _ _ turned held
  · exact held

/-! What every thread relies on. -/

/-- Each turn keeps the invariant, what its own thread asserts and what the others assert. -/
structure Proven (turn : Nat → Shared → Place → Label → Option (Shared × Place))
    (starts : Place → Bool) (invariant : Shared → Prop)
    (asserted : Shared → Nat → Place → Prop) : Prop where
  start : ∀ shared thread place, starts place = true → asserted shared thread place
  own : ∀ thread shared place label after next, invariant shared → asserted shared thread place →
    turn thread shared place label = some (after, next) →
      invariant after ∧ asserted after thread next
  other : ∀ thread shared place label after next, invariant shared →
    asserted shared thread place → turn thread shared place label = some (after, next) →
      ∀ bystander standing, bystander ≠ thread → asserted shared bystander standing →
        asserted after bystander standing

def Holds (invariant : Shared → Prop) (asserted : Shared → Nat → Place → Prop)
    (pool : Pool Shared Place) : Prop :=
  invariant pool.shared ∧
    ∀ thread place, pool.threads[thread]? = some place → asserted pool.shared thread place

variable {invariant : Shared → Prop} {asserted : Shared → Nat → Place → Prop}

theorem Proven.step (proven : Proven turn starts invariant asserted)
    {pool after : Pool Shared Place} {event : Event Place Label}
    (sound : Holds invariant asserted pool)
    (stepped : poolStep turn starts pool event = some after) :
    Holds invariant asserted after := by
  obtain ⟨kept, all⟩ := sound
  obtain ⟨thread, label, place, shared, next, rfl, here, turned, rfl⟩ |
    ⟨place, rfl, start, rfl⟩ := pool_step_cases stepped
  · obtain ⟨after, own⟩ := proven.own thread _ place label _ _ kept (all thread place here) turned
    refine ⟨after, fun bystander standing found => ?_⟩
    by_cases same : thread = bystander
    · subst same
      rw [List.getElem?_set_self (List.getElem?_eq_some_iff.mp here).1] at found
      exact Option.some.inj found ▸ own
    · rw [List.getElem?_set_ne same] at found
      exact proven.other thread _ place label _ _ kept (all thread place here) turned bystander
        standing (Ne.symm same) (all bystander standing found)
  · refine ⟨kept, fun bystander standing found => ?_⟩
    rw [List.getElem?_append] at found
    split at found
    · exact all bystander standing found
    · have begun : starts standing = true := by
        obtain ⟨_, rfl⟩ := List.getElem?_eq_some_iff.mp found
        simpa using start
      exact proven.start _ bystander standing begun

theorem Proven.run (proven : Proven turn starts invariant asserted)
    {pool last : Pool Shared Place} {events : List (Event Place Label)}
    (sound : Holds invariant asserted pool)
    (ran : runFrom (poolStep turn starts) pool events = some last) :
    Holds invariant asserted last :=
  invariant_end (Holds invariant asserted)
    (fun _ _ _ sound stepped _ => proven.step sound stepped) events pool last sound
    (every_step_trivial events pool) ran

/-! Counters. -/

/-- A turn changes the counter as it changes whether its own thread is counted. -/
structure Counts (turn : Nat → Shared → Place → Label → Option (Shared × Place))
    (starts : Place → Bool) (counter : Shared → Nat) (counted : Place → Bool) : Prop where
  start : ∀ place, starts place = true → counted place = false
  step : ∀ thread shared place label after next, (counted place).toNat ≤ counter shared →
    turn thread shared place label = some (after, next) →
      counter after + (counted place).toNat = counter shared + (counted next).toNat

def Counted (counter : Shared → Nat) (counted : Place → Bool) (pool : Pool Shared Place) : Prop :=
  counter pool.shared = pool.threads.countP counted

variable {counter : Shared → Nat} {counted : Place → Bool}

theorem counted_le {threads : List Place} {thread : Nat} {place : Place}
    (here : threads[thread]? = some place) : (counted place).toNat ≤ threads.countP counted := by
  cases found : counted place
  · exact Nat.zero_le _
  · exact List.countP_pos_iff.mpr ⟨place, List.mem_of_getElem? here, found⟩

theorem Counts.step_counted (counts : Counts turn starts counter counted)
    {pool after : Pool Shared Place} {event : Event Place Label}
    (sound : Counted counter counted pool)
    (stepped : poolStep turn starts pool event = some after) : Counted counter counted after := by
  obtain ⟨thread, label, place, shared, next, rfl, here, turned, rfl⟩ |
    ⟨place, rfl, start, rfl⟩ := pool_step_cases stepped
  · obtain ⟨inside, same⟩ := List.getElem?_eq_some_iff.mp here
    have before : (counted place).toNat ≤ pool.threads.countP counted := counted_le here
    have changed := counts.step thread _ place label _ _ (sound ▸ before) turned
    rw [Counted] at sound ⊢
    rw [List.countP_set inside, same]
    have first : (if counted place = true then 1 else 0) = (counted place).toNat := by
      cases counted place <;> rfl
    have second : (if counted next = true then 1 else 0) = (counted next).toNat := by
      cases counted next <;> rfl
    rw [first, second]
    change counter shared = _
    omega
  · rw [Counted, List.countP_append, List.countP_singleton, counts.start place start]
    exact sound

theorem Counts.run (counts : Counts turn starts counter counted)
    {pool last : Pool Shared Place} {events : List (Event Place Label)}
    (sound : Counted counter counted pool)
    (ran : runFrom (poolStep turn starts) pool events = some last) :
    Counted counter counted last :=
  invariant_end (Counted counter counted)
    (fun _ _ _ sound stepped _ => counts.step_counted sound stepped) events pool last sound
    (every_step_trivial events pool) ran

/-! Owners. -/

/-- A turn gives the lock to its own thread only, and keeps it only where a holder stands. -/
def LockTurn (thread : Nat) (lock after : Option Nat) (standing next : Bool) : Prop :=
  (lock = some thread → standing = true) →
    (after = some thread → next = true) ∧
      ∀ owner, owner ≠ thread → after = some owner → lock = some owner

theorem LockTurn.same {thread : Nat} {lock after : Option Nat} {standing next : Bool}
    (same : after = lock) (apart : standing = false) :
    LockTurn thread lock after standing next := by
  subst same
  exact fun held => ⟨fun own => absurd (held own) (by simp [apart]), fun _ _ other => other⟩

theorem LockTurn.kept {thread : Nat} {lock : Option Nat} {standing next : Bool}
    (on : standing = true → next = true) : LockTurn thread lock lock standing next :=
  fun held => ⟨fun own => on (held own), fun _ _ theirs => theirs⟩

theorem LockTurn.taken {thread : Nat} {lock : Option Nat} {standing : Bool} :
    LockTurn thread lock (some thread) standing true :=
  fun _ => ⟨fun _ => rfl, fun _ other theirs => absurd (Option.some.inj theirs).symm other⟩

theorem LockTurn.dropped {thread : Nat} {lock : Option Nat} {standing next : Bool} :
    LockTurn thread lock none standing next := by
  intro _
  constructor
  · intro own
    cases own
  · intro _ _ theirs
    cases theirs

def Owns (turn : Nat → Shared → Place → Label → Option (Shared × Place))
    (lock : Shared → Option Nat) (holds : Place → Bool) : Prop :=
  ∀ thread shared place label after next, turn thread shared place label = some (after, next) →
    LockTurn thread (lock shared) (lock after) (holds place) (holds next)

def Owned (lock : Shared → Option Nat) (holds : Place → Bool) (pool : Pool Shared Place) : Prop :=
  ∀ owner, lock pool.shared = some owner →
    ∃ place, pool.threads[owner]? = some place ∧ holds place = true

variable {lock : Shared → Option Nat} {holds : Place → Bool}

theorem Owns.step_owned (owns : Owns turn lock holds) {pool after : Pool Shared Place}
    {event : Event Place Label} (sound : Owned lock holds pool)
    (stepped : poolStep turn starts pool event = some after) : Owned lock holds after := by
  intro owner held
  obtain ⟨thread, label, place, shared, next, rfl, here, turned, rfl⟩ |
    ⟨place, rfl, -, rfl⟩ := pool_step_cases stepped
  · have before : lock pool.shared = some thread → holds place = true := by
      intro own
      obtain ⟨standing, found, holding⟩ := sound thread own
      cases here.symm.trans found
      exact holding
    obtain ⟨own, others⟩ := owns thread _ place label _ _ turned before
    by_cases same : owner = thread
    · subst same
      exact ⟨next, List.getElem?_set_self (List.getElem?_eq_some_iff.mp here).1, own held⟩
    · obtain ⟨standing, found, holding⟩ := sound owner (others owner same held)
      exact ⟨standing, (List.getElem?_set_ne (Ne.symm same)).trans found, holding⟩
  · obtain ⟨standing, found, holding⟩ := sound owner held
    exact ⟨standing, List.getElem?_append_left (List.getElem?_eq_some_iff.mp found).1 ▸ found,
      holding⟩

theorem Owns.run (owns : Owns turn lock holds) {pool last : Pool Shared Place}
    {events : List (Event Place Label)} (sound : Owned lock holds pool)
    (ran : runFrom (poolStep turn starts) pool events = some last) : Owned lock holds last :=
  invariant_end (Owned lock holds)
    (fun _ _ _ sound stepped _ => owns.step_owned sound stepped) events pool last sound
    (every_step_trivial events pool) ran

/-! How a thread came where it is. -/

variable (turn starts) in
/-- A turn of the run with which the thread came inside. -/
structure Entered (inside : Place → Bool) (pool : Pool Shared Place)
    (events : List (Event Place Label)) (thread : Nat) (before : Pool Shared Place) (label : Label)
    (place : Place) (shared : Shared) (next : Place) : Prop where
  reached : ∃ first second, events = first ++ .turn thread label :: second ∧
    runFrom (poolStep turn starts) pool first = some before
  here : before.threads[thread]? = some place
  turned : turn thread before.shared place label = some (shared, next)
  outside : inside place = false
  within : inside next = true

variable {inside : Place → Bool}

def Inside (inside : Place → Bool) (pool : Pool Shared Place) (thread : Nat) : Prop :=
  ∃ place, pool.threads[thread]? = some place ∧ inside place = true

theorem step_entered (start : ∀ place, starts place = true → inside place = false)
    {pool after : Pool Shared Place} {event : Event Place Label} {thread : Nat}
    (stepped : poolStep turn starts pool event = some after) (within : Inside inside after thread)
    (rest : List (Event Place Label)) :
    Inside inside pool thread ∨ ∃ before label place shared next,
      Entered turn starts inside pool (event :: rest) thread before label place shared next := by
  obtain ⟨place, found, entered⟩ := within
  obtain ⟨mover, label, standing, shared, next, rfl, here, turned, rfl⟩ |
    ⟨begun, rfl, started, rfl⟩ := pool_step_cases stepped
  · by_cases same : mover = thread
    · subst same
      rw [List.getElem?_set_self (List.getElem?_eq_some_iff.mp here).1] at found
      cases found
      cases standing_inside : inside standing
      · exact .inr ⟨pool, label, standing, shared, place, ⟨[], rest, rfl, rfl⟩, here, turned,
          standing_inside, entered⟩
      · exact .inl ⟨standing, here, standing_inside⟩
    · rw [List.getElem?_set_ne same] at found
      exact .inl ⟨place, found, entered⟩
  · rw [List.getElem?_append] at found
    split at found
    · exact .inl ⟨place, found, entered⟩
    · have outside := start begun started
      obtain ⟨_, rfl⟩ := List.getElem?_eq_some_iff.mp found
      simp [outside] at entered

/-- A thread that is inside was so at the start or came inside with a turn of its own. -/
theorem run_entered (start : ∀ place, starts place = true → inside place = false)
    {events : List (Event Place Label)} :
    ∀ {pool last : Pool Shared Place}, runFrom (poolStep turn starts) pool events = some last →
      ∀ thread, Inside inside last thread → Inside inside pool thread ∨
        ∃ before label place shared next,
          Entered turn starts inside pool events thread before label place shared next := by
  induction events with
  | nil =>
      intro pool last ran thread within
      cases ran
      exact .inl within
  | cons event rest ih =>
      intro pool last ran thread within
      obtain ⟨next, stepped, continues⟩ := Option.bind_eq_some_iff.mp ran
      obtain later | ⟨before, label, place, shared, arrived, entered⟩ := ih continues thread within
      · exact step_entered start stepped later rest
      · obtain ⟨first, second, rfl, there⟩ := entered.reached
        refine .inr ⟨before, label, place, shared, arrived, { entered with
          reached := ⟨event :: first, second, rfl, ?_⟩ }⟩
        exact Option.bind_eq_some_iff.mpr ⟨next, stepped, there⟩

/-! Threads at their ends. -/

theorem step_stays {pool after : Pool Shared Place} {event : Event Place Label} {thread : Nat}
    {place : Place} (stuck : ∀ shared label, turn thread shared place label = none)
    (here : pool.threads[thread]? = some place)
    (stepped : poolStep turn starts pool event = some after) :
    after.threads[thread]? = some place := by
  obtain ⟨mover, label, standing, shared, next, rfl, found, turned, rfl⟩ |
    ⟨begun, rfl, -, rfl⟩ := pool_step_cases stepped
  · refine (List.getElem?_set_ne ?_).trans here
    rintro rfl
    cases here.symm.trans found
    cases (stuck _ label).symm.trans turned
  · exact (List.getElem?_append_left (List.getElem?_eq_some_iff.mp here).1).trans here

/-- A thread that can take no turn stays where it is. -/
theorem run_stays {pool last : Pool Shared Place} {events : List (Event Place Label)} {thread : Nat}
    {place : Place} (stuck : ∀ shared label, turn thread shared place label = none)
    (here : pool.threads[thread]? = some place)
    (ran : runFrom (poolStep turn starts) pool events = some last) :
    last.threads[thread]? = some place :=
  invariant_end (fun pool => pool.threads[thread]? = some place)
    (fun _ _ _ here stepped _ => step_stays stuck here stepped) events pool last here
    (every_step_trivial events pool) ran

end Steps

end KeryxMiner.ThreadPool
