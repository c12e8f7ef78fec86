import Mathlib.Algebra.Group.Nat.Defs
import Mathlib.Tactic.Common

/-!
Bisection over a predicate on indexes that holds exactly on an initial part.
`partitionPoint` is the counting form used by a library search; `halvings` is
the fixed number of branch-free steps used where a loop is unrolled.
-/

namespace KeryxMiner.Bisection

/-- The predicate never holds again once it has failed. -/
def Falling (holds : Nat → Bool) : Prop :=
  ∀ low high, low ≤ high → holds high = true → holds low = true

def partitionLoop (holds : Nat → Bool) (low high : Nat) : Nat :=
  if low < high then
    let middle := low + (high - low) / 2
    if holds middle then partitionLoop holds (middle + 1) high
    else partitionLoop holds low middle
  else low
termination_by high - low

def partitionPoint (holds : Nat → Bool) (count : Nat) : Nat := partitionLoop holds 0 count

theorem partition_loop_spec (holds : Nat → Bool) (falling : Falling holds) (low high : Nat)
    (ordered : low ≤ high) (below : ∀ index < low, holds index = true)
    (above : ∀ index, high ≤ index → holds index = false) :
    (∀ index < partitionLoop holds low high, holds index = true) ∧
      ∀ index, partitionLoop holds low high ≤ index → holds index = false := by
  induction low, high using partitionLoop.induct holds with
  | case1 low high inside middle hit ih =>
      rw [partitionLoop, if_pos inside]
      simp only [middle] at hit ih
      simp only [hit, ↓reduceIte]
      apply ih
      · omega
      · intro index earlier
        exact falling index _ (Nat.le_of_lt_succ earlier) hit
      · exact above
  | case2 low high inside middle miss ih =>
      rw [partitionLoop, if_pos inside]
      simp only [middle] at miss ih
      simp only [miss, Bool.false_eq_true, ↓reduceIte]
      apply ih
      · omega
      · exact below
      · intro index later
        by_contra holds_later
        exact miss (falling _ index later (by simpa using holds_later))
  | case3 low high outside =>
      rw [partitionLoop, if_neg outside]
      exact ⟨below, fun index later => above index (by omega)⟩

theorem partition_point_spec (holds : Nat → Bool) (falling : Falling holds) (count : Nat)
    (beyond : ∀ index, count ≤ index → holds index = false) (index : Nat) :
    holds index = true ↔ index < partitionPoint holds count := by
  obtain ⟨inside, outside⟩ :=
    partition_loop_spec holds falling 0 count (Nat.zero_le _) (by omega) beyond
  constructor
  · intro hit
    by_contra later
    have missed := outside index (Nat.le_of_not_lt later)
    rw [hit] at missed
    contradiction
  · exact inside index

/-! Unrolled halving. The window always keeps a holding lower end and a failing
upper end, so once it has width one it is the boundary. -/

def halve (holds : Nat → Bool) (window : Nat × Nat) : Nat × Nat :=
  let middle := (window.1 + window.2) / 2
  if holds middle then (middle, window.2) else (window.1, middle)

def halvings (holds : Nat → Bool) : Nat → Nat × Nat → Nat × Nat
  | 0, window => window
  | steps + 1, window => halvings holds steps (halve holds window)

def Brackets (holds : Nat → Bool) (window : Nat × Nat) : Prop :=
  window.1 < window.2 ∧ holds window.1 = true ∧ holds window.2 = false

theorem halve_hit (holds : Nat → Bool) (window : Nat × Nat)
    (hit : holds ((window.1 + window.2) / 2) = true) :
    halve holds window = ((window.1 + window.2) / 2, window.2) := by
  simp [halve, hit]

theorem halve_miss (holds : Nat → Bool) (window : Nat × Nat)
    (miss : holds ((window.1 + window.2) / 2) = false) :
    halve holds window = (window.1, (window.1 + window.2) / 2) := by
  simp [halve, miss]

theorem halve_brackets (holds : Nat → Bool) (window : Nat × Nat)
    (brackets : Brackets holds window) : Brackets holds (halve holds window) := by
  obtain ⟨ordered, lower, upper⟩ := brackets
  cases middle : holds ((window.1 + window.2) / 2) with
  | true =>
      have different : (window.1 + window.2) / 2 ≠ window.2 := by
        intro same
        rw [same, upper] at middle
        contradiction
      rw [halve_hit holds window middle]
      exact ⟨by dsimp only; omega, middle, upper⟩
  | false =>
      have different : (window.1 + window.2) / 2 ≠ window.1 := by
        intro same
        rw [same, lower] at middle
        contradiction
      rw [halve_miss holds window middle]
      exact ⟨by dsimp only; omega, lower, middle⟩

theorem halve_inside (holds : Nat → Bool) (window : Nat × Nat) (ordered : window.1 < window.2) :
    window.1 ≤ (halve holds window).1 ∧ (halve holds window).2 ≤ window.2 ∧
      2 * ((halve holds window).2 - (halve holds window).1) ≤ window.2 - window.1 + 1 := by
  cases middle : holds ((window.1 + window.2) / 2) with
  | true =>
      rw [halve_hit holds window middle]
      dsimp only
      omega
  | false =>
      rw [halve_miss holds window middle]
      dsimp only
      omega

theorem halvings_spec (holds : Nat → Bool) (steps : Nat) (window : Nat × Nat)
    (brackets : Brackets holds window) (narrow : window.2 - window.1 ≤ 2 ^ steps) :
    Brackets holds (halvings holds steps window) ∧
      window.1 ≤ (halvings holds steps window).1 ∧
      (halvings holds steps window).2 ≤ window.2 ∧
      (halvings holds steps window).2 = (halvings holds steps window).1 + 1 := by
  induction steps generalizing window with
  | zero =>
      have ordered := brackets.1
      exact ⟨brackets, Nat.le_refl _, Nat.le_refl _, by simp [halvings] at *; omega⟩
  | succ steps ih =>
      obtain ⟨lower, upper, halved⟩ := halve_inside holds window brackets.1
      have next := halve_brackets holds window brackets
      have narrower : (halve holds window).2 - (halve holds window).1 ≤ 2 ^ steps := by
        rw [Nat.pow_succ] at narrow
        omega
      obtain ⟨kept, low, high, boundary⟩ := ih (halve holds window) next narrower
      exact ⟨kept, Nat.le_trans lower low, Nat.le_trans high upper, boundary⟩

end KeryxMiner.Bisection
