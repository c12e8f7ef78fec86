import KeryxMiner.ThreadPool

/-!
Locks in an order. A thread that stands where it holds a lock waits for locks below it only, so
whoever waits comes to a thread that can move.
-/

namespace KeryxMiner.LockOrder

open ThreadPool TransitionRuns

variable {Shared Place Label Lock : Type}

def CanMove (turn : Nat → Shared → Place → Label → Option (Shared × Place))
    (starts : Place → Bool) (pool : Pool Shared Place) (thread : Nat) : Prop :=
  ∃ label after, poolStep turn starts pool (.turn thread label) = some after

section Waiting
variable (holder : Shared → Lock → Option Nat) (wants : Place → Option Lock)
  (holds : Lock → Place → Bool)

/-- The thread wants a lock that the other holds. -/
def WaitsFor (pool : Pool Shared Place) (thread other : Nat) : Prop :=
  ∃ place lock standing, pool.threads[thread]? = some place ∧ wants place = some lock ∧
    holder pool.shared lock = some other ∧ pool.threads[other]? = some standing ∧
    holds lock standing = true

inductive WaitPath (pool : Pool Shared Place) : Nat → Nat → Nat → Prop where
  | nil (thread : Nat) : WaitPath pool 0 thread thread
  | cons {length thread next last : Nat} (waits : WaitsFor holder wants holds pool thread next)
      (rest : WaitPath pool length next last) : WaitPath pool (length + 1) thread last

structure Ordered (turn : Nat → Shared → Place → Label → Option (Shared × Place))
    (finished : Place → Bool) (rank : Lock → Nat) : Prop where
  owns : ∀ lock, Owns turn (fun shared => holder shared lock) (holds lock)
  moves : ∀ thread shared place, finished place = false →
    (∀ lock, wants place = some lock → holder shared lock = none) →
      ∃ label after, turn thread shared place label = some after
  busy : ∀ lock place, holds lock place = true → finished place = false
  down : ∀ lock place wanted, holds lock place = true → wants place = some wanted →
    rank wanted < rank lock

variable {holder wants holds} {turn : Nat → Shared → Place → Label → Option (Shared × Place)}
  {starts finished : Place → Bool} {rank : Lock → Nat}

theorem Ordered.can_move (ordered : Ordered holder wants holds turn finished rank)
    {pool : Pool Shared Place} {thread : Nat} {place : Place}
    (here : pool.threads[thread]? = some place) (unfinished : finished place = false)
    (free : ∀ lock, wants place = some lock → holder pool.shared lock = none) :
    CanMove turn starts pool thread := by
  obtain ⟨label, after, turned⟩ := ordered.moves thread pool.shared place unfinished free
  refine ⟨label, ⟨after.1, pool.threads.set thread after.2⟩, ?_⟩
  rw [poolStep, here]
  exact congrArg (Option.bind · _) turned

/-- A thread that is not finished can move, or waits for one that does; the path falls in rank. -/
theorem Ordered.progress (ordered : Ordered holder wants holds turn finished rank)
    {pool : Pool Shared Place}
    (owned : ∀ lock, Owned (fun shared => holder shared lock) (holds lock) pool) (bound : Nat) :
    ∀ thread place, pool.threads[thread]? = some place → finished place = false →
      (∀ lock, wants place = some lock → rank lock < bound) →
      ∃ length last, length ≤ bound ∧ WaitPath holder wants holds pool length thread last ∧
        CanMove turn starts pool last := by
  induction bound with
  | zero =>
      intro thread place here unfinished below
      refine ⟨0, thread, Nat.le_refl 0, .nil thread, ordered.can_move here unfinished ?_⟩
      intro lock wanted
      exact absurd (below lock wanted) (Nat.not_lt_zero _)
  | succ bound ih =>
      intro thread place here unfinished below
      by_cases free : ∀ lock, wants place = some lock → holder pool.shared lock = none
      · exact ⟨0, thread, Nat.zero_le _, .nil thread, ordered.can_move here unfinished free⟩
      · obtain ⟨lock, blocked⟩ := Classical.not_forall.mp free
        obtain ⟨wanted, held⟩ := Classical.not_imp.mp blocked
        obtain ⟨other, same⟩ := Option.ne_none_iff_exists'.mp held
        obtain ⟨standing, found, holding⟩ := owned lock other same
        -- what the holder wants is below the lock it holds
        obtain ⟨length, last, short, path, moves⟩ := ih other standing found
          (ordered.busy lock standing holding) fun next asked =>
            Nat.lt_of_lt_of_le (ordered.down lock standing next holding asked)
              (Nat.le_of_lt_succ (below lock wanted))
        exact ⟨length + 1, last, Nat.succ_le_succ short,
          .cons ⟨place, lock, standing, here, wanted, same, found, holding⟩ path, moves⟩

end Waiting

end KeryxMiner.LockOrder
