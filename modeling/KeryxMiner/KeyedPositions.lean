import Mathlib.Data.List.Sigma
import Mathlib.Tactic.Common

/-!
The positions of the items with one key in a list that grows at its end, and
what an update at those positions does to the list.
-/

namespace KeryxMiner.KeyedPositions

section Positions
variable {Item Key : Type} [DecidableEq Key] (keyOf : Item → Key)

def positions (key : Key) (items : List Item) : List Nat :=
  (items.zipIdx.filter fun item => keyOf item.1 = key).map Prod.snd

theorem mem_positions (key : Key) (items : List Item) (i : Nat) :
    i ∈ positions keyOf key items ↔ ∃ item, items[i]? = some item ∧ keyOf item = key := by
  simp only [positions, List.mem_map, List.mem_filter, decide_eq_true_eq, Prod.exists,
    List.mem_zipIdx_iff_getElem?]
  constructor
  · rintro ⟨item, _, ⟨found, keyed⟩, rfl⟩
    exact ⟨item, found, keyed⟩
  · rintro ⟨item, found, keyed⟩
    exact ⟨item, i, ⟨found, keyed⟩, rfl⟩

theorem positions_nodup (key : Key) (items : List Item) : (positions keyOf key items).Nodup :=
  (List.nodup_zipIdx_map_snd items).sublist (List.filter_sublist.map Prod.snd)

theorem positions_snoc (key : Key) (items : List Item) (item : Item) :
    positions keyOf key (items ++ [item]) =
      positions keyOf key items ++ if keyOf item = key then [items.length] else [] := by
  by_cases keyed : keyOf item = key
  · simp [positions, List.zipIdx_append, List.filter_append, keyed]
  · simp [positions, List.zipIdx_append, List.filter_append, keyed]

/-- Positions depend on the keys alone. -/
theorem positions_eq_of_keys (key : Key) {before after : List Item}
    (same : after.map keyOf = before.map keyOf) :
    positions keyOf key after = positions keyOf key before := by
  have by_keys : ∀ items : List Item,
      positions keyOf key items = positions id key (items.map keyOf) := by
    intro items
    simp only [positions, List.zipIdx_map, List.filter_map, List.map_map]
    rfl
  rw [by_keys, by_keys, same]

end Positions

section Updates
variable {Item : Type} (update : Item → Item)

theorem modify_spots_get (spots : List Nat) (unique : spots.Nodup) (items : List Item) (i : Nat) :
    (spots.foldl (fun changed spot => changed.modify spot update) items)[i]? =
      if i ∈ spots then items[i]?.map update else items[i]? := by
  induction spots generalizing items with
  | nil => simp
  | cons spot rest ih =>
      obtain ⟨fresh, later⟩ := List.nodup_cons.mp unique
      rw [List.foldl_cons, ih later, List.getElem?_modify]
      by_cases here : spot = i
      · subst here
        simp [fresh]
      · have elsewhere : i ≠ spot := fun same => here same.symm
        cases items[i]? <;> simp [here, elsewhere]

theorem modify_positions {Key : Type} [DecidableEq Key] (keyOf : Item → Key) (key : Key)
    (items : List Item) :
    (positions keyOf key items).foldl (fun changed spot => changed.modify spot update) items =
      items.map fun item => if keyOf item = key then update item else item := by
  apply List.ext_getElem?
  intro i
  rw [modify_spots_get update _ (positions_nodup keyOf key items), List.getElem?_map]
  cases found : items[i]? with
  | none => simp
  | some item =>
      by_cases keyed : keyOf item = key
      · have listed := (mem_positions keyOf key items i).mpr ⟨item, found, keyed⟩
        simp [listed, keyed]
      · have unlisted : i ∉ positions keyOf key items := by
          intro listed
          obtain ⟨other, same, keyed_other⟩ := (mem_positions keyOf key items i).mp listed
          obtain rfl := Option.some.inj (found.symm.trans same)
          exact keyed keyed_other
        simp [unlisted, keyed]

end Updates

end KeryxMiner.KeyedPositions
