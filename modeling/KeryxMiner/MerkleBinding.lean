import KeryxMiner.MerkleLevels
import Mathlib.Data.List.Basic
import Mathlib.Data.List.Induction
import Mathlib.Logic.Function.Basic

/-!
What an authentication path binds when the combining function is injective and
never produces a leaf digest. A path recomputation consumes one index bit for
each sibling, so two openings of one index are comparable only when their paths
have the same length. Trees whose leaves all sit at one depth fix that length;
an arbitrary committed root does not.
-/

namespace KeryxMiner.MerkleBinding

open MerkleLevels

variable {Node : Type} (combine : Node → Node → Node) (IsLeaf : Node → Prop)

/-- Both children of a combined digest are determined, and no combined digest
is a leaf digest. -/
structure Separated : Prop where
  faithful : Function.Injective2 combine
  apart : ∀ left right, ¬ IsLeaf (combine left right)

def Uniform : Nat → Node → Prop
  | 0, node => IsLeaf node
  | depth + 1, node =>
      ∃ left right, node = combine left right ∧ Uniform depth left ∧ Uniform depth right

theorem climb_last (node : Node) (index : Nat) (steps : List Node) (other : Node) :
    climb combine node index (steps ++ [other]) =
      if index / 2 ^ steps.length % 2 = 0 then combine (climb combine node index steps) other
      else combine other (climb combine node index steps) := by
  rw [climb_append]
  rfl

theorem climb_injective (faithful : Function.Injective2 combine)
    (first second : Node) (index : Nat) (left right : List Node)
    (lengths : left.length = right.length)
    (same : climb combine first index left = climb combine second index right) :
    first = second := by
  induction left generalizing first second index right with
  | nil =>
      obtain rfl : right = [] := by simpa using lengths.symm
      simpa [climb] using same
  | cons other rest ih =>
      cases right with
      | nil => simp at lengths
      | cons another tail =>
          have above := ih _ _ _ tail (by simpa using lengths) same
          split at above
          · exact (faithful above).1
          · exact (faithful above).2

theorem mem_parents {nodes : List Node} {node : Node} (member : node ∈ parents combine nodes) :
    ∃ left ∈ nodes, ∃ right ∈ nodes, node = combine left right := by
  induction nodes using parents.induct with
  | case1 => simp [parents] at member
  | case2 single =>
      obtain rfl : node = combine single single := by simpa [parents] using member
      exact ⟨single, by simp, single, by simp, rfl⟩
  | case3 first second rest ih =>
      simp only [parents, List.mem_cons] at member
      rcases member with rfl | later
      · exact ⟨first, by simp, second, by simp, rfl⟩
      · obtain ⟨left, leftMember, right, rightMember, same⟩ := ih later
        exact ⟨left, by simp [leftMember], right, by simp [rightMember], same⟩

theorem level_uniform {nodes : List Node} (leaves : ∀ node ∈ nodes, IsLeaf node)
    (depth : Nat) : ∀ node ∈ level combine nodes depth, Uniform combine IsLeaf depth node := by
  induction depth with
  | zero => exact leaves
  | succ depth ih =>
      intro node member
      rw [level_succ] at member
      obtain ⟨left, leftMember, right, rightMember, same⟩ := mem_parents combine member
      exact ⟨left, right, same, ih left leftMember, ih right rightMember⟩

variable {combine IsLeaf}

/-- Every path from a leaf digest to the root of a uniform tree has the length
of that tree's depth, whatever index it claims. -/
theorem climb_uniform (separated : Separated combine IsLeaf) {depth : Nat} {top leaf : Node}
    (uniform : Uniform combine IsLeaf depth top) (isLeaf : IsLeaf leaf) (index : Nat)
    (steps : List Node) (opened : climb combine leaf index steps = top) :
    steps.length = depth := by
  induction steps using List.reverseRecOn generalizing depth top with
  | nil =>
      cases depth with
      | zero => rfl
      | succ depth =>
          obtain ⟨left, right, same, _, _⟩ := uniform
          rw [← opened, climb] at same
          rw [same] at isLeaf
          exact absurd isLeaf (separated.apart left right)
  | append_singleton rest other ih =>
      rw [climb_last] at opened
      cases depth with
      | zero =>
          rw [Uniform, ← opened] at uniform
          split at uniform <;> exact absurd uniform (separated.apart _ _)
      | succ depth =>
          obtain ⟨left, right, same, leftUniform, rightUniform⟩ := uniform
          rw [same] at opened
          split at opened
          · simp [ih leftUniform (separated.faithful opened).1]
          · simp [ih rightUniform (separated.faithful opened).2]

/-- A root over leaf digests binds every index of the committed list: an
accepted opening shows the leaf that stands there. -/
theorem opened_leaf (separated : Separated combine IsLeaf) {nodes : List Node}
    (leaves : ∀ node ∈ nodes, IsLeaf node) {top leaf : Node}
    (rooted : root combine nodes = some top) (isLeaf : IsLeaf leaf) {index : Nat}
    (inside : index < nodes.length) (steps : List Node)
    (opened : climb combine leaf index steps = top) :
    nodes[index]? = some leaf := by
  have nonempty : nodes ≠ [] := by
    intro empty
    simp [empty] at inside
  obtain ⟨single, alone, found⟩ := root_eq combine nodes nonempty
  obtain rfl : single = top := by simpa [found] using rooted
  have uniform : Uniform combine IsLeaf (Nat.clog 2 nodes.length) single :=
    level_uniform combine IsLeaf leaves _ single (by simp [alone])
  obtain ⟨honest, path, honestLength⟩ :=
    path_present combine (Nat.clog 2 nodes.length) nodes index inside
  have present : nodes[index]? = some nodes[index] := List.getElem?_eq_getElem inside
  have climbed := climb_root combine nodes index nodes[index] honest present path
  have length := climb_uniform separated uniform isLeaf index steps opened
  have same : climb combine leaf index steps = climb combine nodes[index] index honest := by
    rw [opened]
    simpa [found] using climbed
  rw [present, climb_injective combine separated.faithful leaf nodes[index] index steps honest
    (length.trans honestLength.symm) same]

/-- Index zero always descends to the left, so there the path length is bound
by the committed tree itself. -/
theorem leftmost_unique (separated : Separated combine IsLeaf) {first second : Node}
    (firstLeaf : IsLeaf first) (secondLeaf : IsLeaf second) (left right : List Node)
    (same : climb combine first 0 left = climb combine second 0 right) :
    first = second := by
  induction left using List.reverseRecOn generalizing right with
  | nil =>
      rcases List.eq_nil_or_concat' right with rfl | ⟨rest, other, rfl⟩
      · simpa [climb] using same
      · rw [climb_last, climb] at same
        simp only [Nat.zero_div, Nat.zero_mod, ↓reduceIte] at same
        rw [same] at firstLeaf
        exact absurd firstLeaf (separated.apart _ _)
  | append_singleton rest other ih =>
      rw [climb_last] at same
      simp only [Nat.zero_div, Nat.zero_mod, ↓reduceIte] at same
      rcases List.eq_nil_or_concat' right with rfl | ⟨tail, another, rfl⟩
      · rw [climb] at same
        rw [← same] at secondLeaf
        exact absurd secondLeaf (separated.apart _ _)
      · rw [climb_last] at same
        simp only [Nat.zero_div, Nat.zero_mod, ↓reduceIte] at same
        exact ih tail (separated.faithful same).1

end KeryxMiner.MerkleBinding
