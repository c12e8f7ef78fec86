import Mathlib.Data.List.Basic

/-!
Layers that read a sequence causally: the output for a row depends on the row, its position and
what the layer kept of the rows up to it. A sequence can be run in pieces, each continuing from
what the layers kept, and gives what one run over all of it gives.
-/

namespace KeryxMiner.CausalLayers

variable {Row Entry : Type}

structure Layer (Row Entry : Type) where
  entry : Nat → Row → Entry
  output : Nat → Row → List Entry → Row

/-! One layer. -/

def Layer.run (layer : Layer Row Entry) : List Entry → List Row → List Row × List Entry
  | kept, [] => ([], kept)
  | kept, row :: rows =>
      let more := kept ++ [layer.entry kept.length row]
      let rest := layer.run more rows
      (layer.output kept.length row more :: rest.1, rest.2)

theorem run_append (layer : Layer Row Entry) (kept : List Entry) (rows more : List Row) :
    layer.run kept (rows ++ more) =
      ((layer.run kept rows).1 ++ (layer.run (layer.run kept rows).2 more).1,
        (layer.run (layer.run kept rows).2 more).2) := by
  induction rows generalizing kept with
  | nil => rfl
  | cons row rows ih =>
      rw [List.cons_append, Layer.run, Layer.run, ih]
      rfl

/-- What is kept of rows that start at a position. -/
def Layer.entries (layer : Layer Row Entry) (start : Nat) (rows : List Row) : List Entry :=
  rows.mapIdx fun i row => layer.entry (start + i) row

theorem entries_cons (layer : Layer Row Entry) (start : Nat) (row : Row) (rows : List Row) :
    layer.entries start (row :: rows) =
      layer.entry start row :: layer.entries (start + 1) rows := by
  rw [Layer.entries, List.mapIdx_cons, Layer.entries]
  simp only [Nat.add_zero, Nat.add_assoc, Nat.add_comm 1]

theorem entries_length (layer : Layer Row Entry) (start : Nat) (rows : List Row) :
    (layer.entries start rows).length = rows.length := List.length_mapIdx

theorem run_kept (layer : Layer Row Entry) (kept : List Entry) (rows : List Row) :
    (layer.run kept rows).2 = kept ++ layer.entries kept.length rows := by
  induction rows generalizing kept with
  | nil => exact (List.append_nil kept).symm
  | cons row rows ih =>
      rw [Layer.run]
      dsimp only
      rw [ih, entries_cons, List.length_append, List.length_singleton, List.append_assoc,
        List.singleton_append]

/-- All rows at once: row `i` reads the entries up to its own. -/
theorem run_outputs (layer : Layer Row Entry) (kept : List Entry) (rows : List Row) :
    (layer.run kept rows).1 = rows.mapIdx fun i row =>
      layer.output (kept.length + i) row
        (kept ++ (layer.entries kept.length rows).take (i + 1)) := by
  induction rows generalizing kept with
  | nil => rfl
  | cons row rows ih =>
      rw [Layer.run, entries_cons, List.mapIdx_cons]
      dsimp only
      rw [ih, List.length_append, List.length_singleton]
      congr 1
      apply List.ext_getElem
      · simp only [List.length_mapIdx]
      · intro i inside _
        simp only [List.getElem_mapIdx, List.take_succ_cons, List.append_assoc,
          List.singleton_append, Nat.add_assoc, Nat.add_comm 1]

theorem run_length (layer : Layer Row Entry) (kept : List Entry) (rows : List Row) :
    (layer.run kept rows).1.length = rows.length := by
  rw [run_outputs, List.length_mapIdx]

/-! A stack of layers, each with what it kept. -/

def runStack : List (Layer Row Entry) → List (List Entry) → List Row →
    List Row × List (List Entry)
  | [], _, rows => (rows, [])
  | layer :: layers, kepts, rows =>
      let first := layer.run (kepts.headD []) rows
      let rest := runStack layers kepts.tail first.1
      (rest.1, first.2 :: rest.2)

theorem stack_append (layers : List (Layer Row Entry)) (kepts : List (List Entry))
    (rows more : List Row) :
    runStack layers kepts (rows ++ more) =
      ((runStack layers kepts rows).1 ++
          (runStack layers (runStack layers kepts rows).2 more).1,
        (runStack layers (runStack layers kepts rows).2 more).2) := by
  induction layers generalizing kepts rows more with
  | nil => rfl
  | cons layer layers ih =>
      rw [runStack, run_append]
      dsimp only
      rw [ih]
      rfl

theorem stack_length (layers : List (Layer Row Entry)) (kepts : List (List Entry))
    (rows : List Row) : (runStack layers kepts rows).1.length = rows.length := by
  induction layers generalizing kepts rows with
  | nil => rfl
  | cons layer layers ih =>
      rw [runStack]
      dsimp only
      rw [ih, run_length]

/-- What is kept after rows that started at a position has grown by their number. -/
theorem stack_kept (layers : List (Layer Row Entry)) (kepts : List (List Entry)) (start : Nat)
    (even : ∀ i < layers.length, (kepts.getD i []).length = start) (rows : List Row) :
    (runStack layers kepts rows).2.length = layers.length ∧
      ∀ kept ∈ (runStack layers kepts rows).2, kept.length = start + rows.length := by
  induction layers generalizing kepts rows with
  | nil => exact ⟨rfl, by simp [runStack]⟩
  | cons layer layers ih =>
      have head : (kepts.headD []).length = start := by
        have first := even 0 (Nat.zero_lt_succ _)
        cases kepts with
        | nil => exact first
        | cons kept kepts => exact first
      have tails : ∀ i < layers.length, (kepts.tail.getD i []).length = start := by
        intro i inside
        have next := even (i + 1) (Nat.succ_lt_succ inside)
        cases kepts with
        | nil => exact next
        | cons kept kepts => exact next
      obtain ⟨count, lengths⟩ := ih kepts.tail tails (layer.run (kepts.headD []) rows).1
      rw [run_length] at lengths
      rw [runStack]
      dsimp only
      refine ⟨by rw [List.length_cons, count, List.length_cons], ?_⟩
      intro kept member
      obtain rfl | later := List.mem_cons.mp member
      · rw [run_kept, List.length_append, entries_length, head]
      · exact lengths kept later

theorem stack_fresh (layers : List (Layer Row Entry)) {kepts : List (List Entry)}
    (empty : ∀ kept ∈ kepts, kept = []) (rows : List Row) :
    runStack layers kepts rows = runStack layers [] rows := by
  induction layers generalizing kepts rows with
  | nil => rfl
  | cons layer layers ih =>
      cases kepts with
      | nil => rfl
      | cons kept kepts =>
          obtain rfl := empty kept (List.mem_cons_self ..)
          rw [runStack, runStack]
          dsimp only [List.headD_cons, List.tail_cons, List.headD_nil, List.tail_nil]
          rw [ih fun other member => empty other (List.mem_cons_of_mem _ member)]

/-- The last row of a sequence, run after what the rows before it left. -/
theorem stack_last (layers : List (Layer Row Entry)) (kepts : List (List Entry))
    (rows : List Row) (row : Row) :
    (runStack layers kepts (rows ++ [row])).1.getLast? =
      (runStack layers (runStack layers kepts rows).2 [row]).1.getLast? := by
  have single := stack_length layers (runStack layers kepts rows).2 [row]
  rw [stack_append]
  dsimp only
  rw [List.getLast?_append]
  cases last : (runStack layers (runStack layers kepts rows).2 [row]).1 with
  | nil =>
      rw [last] at single
      cases single
  | cons output outputs => rw [List.getLast?_cons, Option.some_or]

end KeryxMiner.CausalLayers
