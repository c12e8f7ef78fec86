import Mathlib.Data.List.Basic

/-!
The places of a pattern in a list, the first of them, and slices by their bounds.
-/

namespace KeryxMiner.ByteSearch

variable {Item : Type}

structure Stands (pattern items : List Item) (place : Nat) : Prop where
  inside : place + pattern.length ≤ items.length
  reads : (items.drop place).take pattern.length = pattern

theorem Stands.item {pattern items : List Item} {place : Nat} (stands : Stands pattern items place)
    (index : Nat) (inside : index < pattern.length) : items[place + index]? = pattern[index]? := by
  have read := congrArg (fun list : List Item => list[index]?) stands.reads
  rwa [List.getElem?_take_of_lt inside, List.getElem?_drop] at read

theorem Stands.split {pattern items : List Item} {place : Nat}
    (stands : Stands pattern items place) :
    items = items.take place ++ pattern ++ items.drop (place + pattern.length) := by
  conv_lhs => rw [← List.take_append_drop place items]
  rw [List.append_assoc]
  congr 1
  conv_lhs => rw [← List.take_append_drop pattern.length (items.drop place)]
  rw [stands.reads, List.drop_drop]

theorem stands_append (left pattern right : List Item) :
    Stands pattern (left ++ pattern ++ right) left.length where
  inside := by
    simp only [List.length_append]
    omega
  reads := by rw [List.append_assoc, List.drop_left, List.take_left]

theorem stands_left {pattern left right : List Item} {place : Nat}
    (inside : place + pattern.length ≤ left.length) :
    Stands pattern (left ++ right) place ↔ Stands pattern left place := by
  have within : ((left ++ right).drop place).take pattern.length =
      (left.drop place).take pattern.length := by
    rw [List.drop_append_of_le_length (by omega), List.take_append_of_le_length]
    rw [List.length_drop]
    omega
  constructor
  · intro stands
    exact ⟨inside, within ▸ stands.reads⟩
  · intro stands
    refine ⟨?_, within.trans stands.reads⟩
    rw [List.length_append]
    omega

theorem stands_drop {pattern items : List Item} {start place : Nat}
    (inside : start ≤ items.length) :
    Stands pattern (items.drop start) place ↔ Stands pattern items (start + place) := by
  constructor
  · rintro ⟨bound, reads⟩
    rw [List.drop_drop] at reads
    rw [List.length_drop] at bound
    exact ⟨by omega, reads⟩
  · rintro ⟨bound, reads⟩
    refine ⟨?_, ?_⟩
    · rw [List.length_drop]
      omega
    · rw [List.drop_drop]
      exact reads

/-- `items[start..stop]`; `none` is out of bounds. -/
def slice (items : List Item) (start stop : Nat) : Option (List Item) :=
  if start ≤ stop ∧ stop ≤ items.length then some ((items.drop start).take (stop - start)) else none

theorem slice_inside {items : List Item} {start stop : Nat} (order : start ≤ stop)
    (inside : stop ≤ items.length) :
    slice items start stop = some ((items.drop start).take (stop - start)) :=
  if_pos ⟨order, inside⟩

/-- What a slice is, within its list. -/
structure Sliced (items : List Item) (start stop : Nat) (middle : List Item) : Prop where
  length : start + middle.length = stop
  inside : stop ≤ items.length
  before : items.take stop = items.take start ++ middle
  after : items.drop start = middle ++ items.drop stop

theorem slice_some {items middle : List Item} {start stop : Nat}
    (found : slice items start stop = some middle) : Sliced items start stop middle := by
  obtain ⟨⟨order, inside⟩, same⟩ := Option.ite_none_right_eq_some.mp found
  obtain rfl := Option.some.inj same
  have distance : start + (stop - start) = stop := by omega
  refine ⟨?_, inside, ?_, ?_⟩
  · rw [List.length_take, List.length_drop]
    omega
  · rw [← List.take_add, distance]
  · conv_lhs => rw [← List.take_append_drop (stop - start) (items.drop start)]
    rw [List.drop_drop, distance]

theorem slice_middle (left middle right : List Item) {start stop : Nat} (starts : start = left.length)
    (stops : stop = left.length + middle.length) :
    slice (left ++ middle ++ right) start stop = some middle := by
  subst starts stops
  rw [slice_inside, Nat.add_sub_cancel_left, List.append_assoc, List.drop_left, List.take_left]
  · omega
  · simp only [List.length_append]
    omega

/-! The first place. -/

def windows (items : List Item) (size : Nat) : List (List Item) :=
  (List.range (items.length + 1 - size)).map fun start => (items.drop start).take size

theorem windows_length (items : List Item) (size : Nat) :
    (windows items size).length = items.length + 1 - size := by
  rw [windows, List.length_map, List.length_range]

theorem window_get (items : List Item) (size : Nat) {start : Nat}
    (inside : start < (windows items size).length) :
    (windows items size)[start] = (items.drop start).take size := by
  simp [windows]

variable [DecidableEq Item]

/-- `windows(pattern.len()).position(|w| w == pattern)`. -/
def position (pattern items : List Item) : Option Nat :=
  (windows items pattern.length).findIdx? (· = pattern)

theorem position_iff {pattern items : List Item} (present : pattern ≠ []) {place : Nat} :
    position pattern items = some place ↔
      Stands pattern items place ∧ ∀ earlier < place, ¬ Stands pattern items earlier := by
  have size := List.length_pos_of_ne_nil present
  have bounds (start : Nat) : start < (windows items pattern.length).length ↔
      start + pattern.length ≤ items.length := by
    rw [windows_length]
    omega
  rw [position, List.findIdx?_eq_some_iff_getElem]
  constructor
  · rintro ⟨inside, reads, first⟩
    rw [window_get, decide_eq_true_iff] at reads
    refine ⟨⟨(bounds place).mp inside, reads⟩, ?_⟩
    intro earlier before stands
    apply first earlier before
    rw [window_get, decide_eq_true_iff]
    exact stands.reads
  · rintro ⟨stands, first⟩
    refine ⟨(bounds place).mpr stands.inside, ?_, ?_⟩
    · rw [window_get, decide_eq_true_iff]
      exact stands.reads
    · intro earlier before reads
      rw [window_get, decide_eq_true_iff] at reads
      have inside := stands.inside
      exact first earlier before ⟨by omega, reads⟩

end KeryxMiner.ByteSearch
