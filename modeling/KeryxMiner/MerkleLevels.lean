import Mathlib.Data.Nat.Log
import Mathlib.Logic.Function.Iterate
import Mathlib.Tactic.Ring

/-!
Binary hash trees over a list of leaves, built level by level. A level with an
odd number of nodes pairs its last node with itself, so every level is the list
of parents of the level below and no padding node is ever materialized. The
operations and rules here are about an arbitrary combining function.
-/

namespace KeryxMiner.MerkleLevels

variable {Node : Type} (combine : Node → Node → Node)

def parents : List Node → List Node
  | [] => []
  | [single] => [combine single single]
  | left :: right :: rest => combine left right :: parents rest

def level (nodes : List Node) (height : Nat) : List Node :=
  (parents combine)^[height] nodes

def width (count : Nat) : Nat → Nat
  | 0 => count
  | height + 1 => (width count height + 1) / 2

theorem parents_length (nodes : List Node) :
    (parents combine nodes).length = (nodes.length + 1) / 2 := by
  induction nodes using parents.induct with
  | case1 => simp [parents]
  | case2 single => simp [parents]
  | case3 left right rest ih =>
      simp only [parents, List.length_cons, ih]
      omega

theorem parents_get (nodes : List Node) (index : Nat) :
    (parents combine nodes)[index]? =
      nodes[2 * index]?.map fun left => combine left (nodes[2 * index + 1]?.getD left) := by
  induction nodes using parents.induct generalizing index with
  | case1 => simp [parents]
  | case2 single => cases index <;> simp [parents, Nat.mul_add]
  | case3 left right rest ih =>
      cases index with
      | zero => simp [parents]
      | succ index => simp [parents, ih, Nat.mul_add]

theorem parents_drop (nodes : List Node) (index : Nat) :
    parents combine (nodes.drop (2 * index)) = (parents combine nodes).drop index := by
  apply List.ext_getElem?
  intro position
  simp only [parents_get, List.getElem?_drop, Nat.mul_add, Nat.add_assoc]

theorem parents_take (nodes : List Node) (count : Nat) :
    parents combine (nodes.take (2 * count)) = (parents combine nodes).take count := by
  apply List.ext_getElem?
  intro position
  by_cases inside : position < count
  · have first : 2 * position < 2 * count := by omega
    have second : 2 * position + 1 < 2 * count := by omega
    simp only [parents_get, List.getElem?_take_of_lt, inside, first, second]
  · have first : ¬ 2 * position < 2 * count := by omega
    simp [parents_get, List.getElem?_take, inside, first]

@[simp]
theorem level_zero (nodes : List Node) : level combine nodes 0 = nodes := rfl

theorem level_succ (nodes : List Node) (height : Nat) :
    level combine nodes (height + 1) = parents combine (level combine nodes height) :=
  Function.iterate_succ_apply' _ _ _

theorem level_parents (nodes : List Node) (height : Nat) :
    level combine (parents combine nodes) height = level combine nodes (height + 1) :=
  (Function.iterate_succ_apply _ _ _).symm

theorem level_add (nodes : List Node) (low high : Nat) :
    level combine (level combine nodes low) high = level combine nodes (low + high) := by
  rw [Nat.add_comm]
  exact (Function.iterate_add_apply _ _ _ _).symm

theorem level_length (nodes : List Node) (height : Nat) :
    (level combine nodes height).length = width nodes.length height := by
  induction height with
  | zero => rfl
  | succ height ih => rw [level_succ, parents_length, ih, width]

theorem level_drop (nodes : List Node) (height index : Nat) :
    level combine (nodes.drop (index * 2 ^ height)) height =
      (level combine nodes height).drop index := by
  induction height generalizing index with
  | zero => simp
  | succ height ih =>
      have doubled : index * 2 ^ (height + 1) = 2 * index * 2 ^ height := by ring
      rw [level_succ, level_succ, doubled, ih, parents_drop]

theorem level_take (nodes : List Node) (height count : Nat) :
    level combine (nodes.take (count * 2 ^ height)) height =
      (level combine nodes height).take count := by
  induction height generalizing count with
  | zero => simp
  | succ height ih =>
      have doubled : count * 2 ^ (height + 1) = 2 * count * 2 ^ height := by ring
      rw [level_succ, level_succ, doubled, ih, parents_take]

/-- A node depends only on its own aligned window of leaves. This is what lets
a tree be built batch by batch and rebuilt subtree by subtree. -/
theorem level_window (nodes : List Node) (height index : Nat) :
    level combine ((nodes.drop (index * 2 ^ height)).take (2 ^ height)) height =
      ((level combine nodes height).drop index).take 1 := by
  have window := level_take combine (nodes.drop (index * 2 ^ height)) height 1
  rwa [Nat.one_mul, level_drop] at window

/-! Widths. Every bound on an index at some level is a bound on the leaf count. -/

theorem lt_width (count height index : Nat) :
    index < width count height ↔ index * 2 ^ height < count := by
  induction height generalizing index with
  | zero => simp [width]
  | succ height ih =>
      have doubled : index * 2 ^ (height + 1) = 2 * index * 2 ^ height := by ring
      rw [width, doubled, ← ih]
      omega

theorem width_pos {count : Nat} (nonempty : 0 < count) (height : Nat) :
    0 < width count height := by
  rw [lt_width]
  simpa using nonempty

theorem width_add (count low high : Nat) :
    width (width count low) high = width count (low + high) := by
  induction high with
  | zero => rfl
  | succ high ih => rw [width, ih, ← Nat.add_assoc, width]

theorem one_lt_width (count height : Nat) :
    1 < width count height ↔ height < Nat.clog 2 count := by
  rw [lt_width, Nat.one_mul, Nat.lt_clog_iff_pow_lt Nat.one_lt_two]

theorem width_top {count : Nat} (nonempty : 0 < count) :
    width count (Nat.clog 2 count) = 1 := by
  have positive := width_pos nonempty (Nat.clog 2 count)
  have bound := (one_lt_width count (Nat.clog 2 count)).not.mpr (Nat.lt_irrefl _)
  omega

theorem top_index {count index : Nat} (inside : index < count) :
    index / 2 ^ Nat.clog 2 count = 0 := by
  apply Nat.div_eq_of_lt
  exact Nat.lt_of_lt_of_le inside (Nat.le_pow_clog Nat.one_lt_two count)

theorem level_node (nodes : List Node) {height index : Nat}
    (inside : index < width nodes.length height) :
    ∃ node, (level combine nodes height)[index]? = some node := by
  rw [← level_length combine] at inside
  exact ⟨_, List.getElem?_eq_getElem inside⟩

/-- The single node of the lowest level that has only one. -/
def root (nodes : List Node) : Option Node :=
  (level combine nodes (Nat.clog 2 nodes.length))[0]?

theorem root_eq (nodes : List Node) (nonempty : nodes ≠ []) :
    ∃ top, level combine nodes (Nat.clog 2 nodes.length) = [top] ∧
      root combine nodes = some top := by
  have positive : 0 < nodes.length := List.length_pos_iff.mpr nonempty
  have single : (level combine nodes (Nat.clog 2 nodes.length)).length = 1 := by
    rw [level_length, width_top positive]
  obtain ⟨top, alone⟩ := List.length_eq_one_iff.mp single
  exact ⟨top, alone, by simp [root, alone]⟩

theorem clog_parents {count : Nat} (several : 1 < count) :
    Nat.clog 2 count = Nat.clog 2 ((count + 1) / 2) + 1 :=
  Nat.clog_of_two_le (Nat.le_refl 2) several

theorem root_parents (nodes : List Node) (several : 1 < nodes.length) :
    root combine (parents combine nodes) = root combine nodes := by
  rw [root, root, parents_length, level_parents, ← clog_parents several]

/-! Authentication paths. -/

/-- The node paired with `index`; a node without a partner is its own. -/
def sibling (nodes : List Node) (index : Nat) : Option Node :=
  match nodes[if index % 2 = 0 then index + 1 else index - 1]? with
  | some node => some node
  | none => nodes[index]?

def path : Nat → List Node → Nat → Option (List Node)
  | 0, _, _ => some []
  | height + 1, nodes, index => do
      let node ← sibling nodes index
      let rest ← path height (parents combine nodes) (index / 2)
      some (node :: rest)

/-- Recompute the ancestor of a node from one sibling for each level. -/
def climb : Node → Nat → List Node → Node
  | node, _, [] => node
  | node, index, other :: rest =>
      climb (if index % 2 = 0 then combine node other else combine other node) (index / 2) rest

theorem sibling_present {nodes : List Node} {index : Nat} (inside : index < nodes.length) :
    ∃ node, sibling nodes index = some node := by
  unfold sibling
  split
  · exact ⟨_, rfl⟩
  · exact ⟨nodes[index], List.getElem?_eq_getElem inside⟩

theorem climb_sibling {nodes : List Node} {index : Nat} {node other : Node}
    (present : nodes[index]? = some node) (paired : sibling nodes index = some other) :
    (parents combine nodes)[index / 2]? =
      some (if index % 2 = 0 then combine node other else combine other node) := by
  rw [parents_get]
  rcases Nat.mod_two_eq_zero_or_one index with even | odd
  · have same : 2 * (index / 2) = index := by omega
    simp only [sibling, even, ↓reduceIte] at paired
    rw [same, present]
    cases right : nodes[index + 1]? with
    | none =>
        have own : other = node := by simpa [right, present] using paired.symm
        simp [even, own]
    | some partner =>
        have own : other = partner := by simpa [right] using paired.symm
        simp [even, own]
  · have before : 2 * (index / 2) = index - 1 := by omega
    have after : index - 1 + 1 = index := by omega
    obtain ⟨inside, _⟩ := List.getElem?_eq_some_iff.mp present
    have left : nodes[index - 1]? = some other := by
      have exists_left : index - 1 < nodes.length := by omega
      simp only [sibling, odd, Nat.one_ne_zero, ↓reduceIte,
        List.getElem?_eq_getElem exists_left] at paired
      rw [List.getElem?_eq_getElem exists_left, paired]
    rw [before, left, after, present]
    simp [odd]

theorem path_present (height : Nat) (nodes : List Node) (index : Nat)
    (inside : index < nodes.length) :
    ∃ steps, path combine height nodes index = some steps ∧ steps.length = height := by
  induction height generalizing nodes index with
  | zero => exact ⟨[], rfl, rfl⟩
  | succ height ih =>
      obtain ⟨node, found⟩ := sibling_present inside
      have above : index / 2 < (parents combine nodes).length := by
        rw [parents_length]
        omega
      obtain ⟨rest, climbed, length⟩ := ih (parents combine nodes) (index / 2) above
      exact ⟨node :: rest, by simp [path, found, climbed], by simp [length]⟩

theorem climb_path (height : Nat) (nodes : List Node) (index : Nat) (node : Node)
    (steps : List Node) (present : nodes[index]? = some node)
    (opened : path combine height nodes index = some steps) :
    (level combine nodes height)[index / 2 ^ height]? =
      some (climb combine node index steps) := by
  induction height generalizing nodes index node steps with
  | zero =>
      obtain rfl : steps = [] := by simpa [path] using opened.symm
      simpa [climb] using present
  | succ height ih =>
      simp only [path, Option.bind_eq_bind, Option.bind_eq_some_iff, Option.some.injEq] at opened
      obtain ⟨other, paired, rest, climbed, rfl⟩ := opened
      have above := climb_sibling combine present paired
      have tail := ih (parents combine nodes) (index / 2) _ rest above climbed
      rw [level_parents, Nat.div_div_eq_div_mul, ← Nat.pow_succ'] at tail
      exact tail

/-- An honest path recomputes the root. -/
theorem climb_root (nodes : List Node) (index : Nat) (node : Node) (steps : List Node)
    (present : nodes[index]? = some node)
    (opened : path combine (Nat.clog 2 nodes.length) nodes index = some steps) :
    root combine nodes = some (climb combine node index steps) := by
  obtain ⟨inside, _⟩ := List.getElem?_eq_some_iff.mp present
  have climbed := climb_path combine _ nodes index node steps present opened
  rwa [top_index inside] at climbed

theorem climb_append (node : Node) (index : Nat) (low high : List Node) :
    climb combine node index (low ++ high) =
      climb combine (climb combine node index low) (index / 2 ^ low.length) high := by
  induction low generalizing node index with
  | nil => simp [climb]
  | cons other rest ih =>
      simp only [List.cons_append, climb, ih, List.length_cons, Nat.pow_succ',
        Nat.div_div_eq_div_mul]

end KeryxMiner.MerkleLevels
