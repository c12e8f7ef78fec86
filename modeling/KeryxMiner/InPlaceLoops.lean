import Mathlib.Data.List.Nodup

/-!
Loops that change an array in place: steps that own the cells they write, and walks that move
every item to the next position of a path.
-/

namespace KeryxMiner.InPlaceLoops

variable {α : Type} [Inhabited α] {n : Nat}

theorem get_set (cells : Vector α n) (i : Nat) (item : α) {place : Nat} (inside : place < n) :
    (cells.set! i item)[place]! = if i = place then item else cells[place]! := by
  rw [getElem!_pos (cells.set! i item) place inside, getElem!_pos cells place inside,
    Vector.getElem_set!]

theorem cells_ext {cells others : Vector α n}
    (same : ∀ place < n, cells[place]! = others[place]!) : cells = others := by
  apply Vector.ext
  intro place inside
  have equal := same place inside
  rwa [getElem!_pos cells place inside, getElem!_pos others place inside] at equal

/-! Owned cells. -/

section Owned
variable {Key : Type} [DecidableEq Key]

/-- The step of a key writes the cells of that key, each from cells of that key. -/
structure Owned (keys : List Key) (owner : Nat → Key) (step : Vector α n → Key → Vector α n)
    (value : Vector α n → Nat → α) : Prop where
  writes : ∀ cells, ∀ key ∈ keys, ∀ place < n,
    (step cells key)[place]! = if owner place = key then value cells place else cells[place]!
  reads : ∀ cells others, ∀ place < n,
    (∀ other < n, owner other = owner place → cells[other]! = others[other]!) →
      value cells place = value others place

theorem Owned.tail {key : Key} {keys : List Key} {owner : Nat → Key}
    {step : Vector α n → Key → Vector α n} {value : Vector α n → Nat → α}
    (owned : Owned (key :: keys) owner step value) : Owned keys owner step value :=
  ⟨fun cells key member => owned.writes cells key (List.mem_cons_of_mem _ member), owned.reads⟩

theorem foldl_owned {keys : List Key} {owner : Nat → Key} {step : Vector α n → Key → Vector α n}
    {value : Vector α n → Nat → α} (owned : Owned keys owner step value) (distinct : keys.Nodup)
    (cells : Vector α n) {place : Nat} (inside : place < n) :
    (keys.foldl step cells)[place]! =
      if owner place ∈ keys then value cells place else cells[place]! := by
  induction keys generalizing cells with
  | nil => simp
  | cons key rest ih =>
      obtain ⟨fresh, others⟩ := List.nodup_cons.mp distinct
      have written := owned.writes cells key List.mem_cons_self
      rw [List.foldl_cons, ih owned.tail others (step cells key)]
      by_cases later : owner place ∈ rest
      · -- the cells of a later key are still as they were
        have kept : value (step cells key) place = value cells place := by
          apply owned.reads _ _ place inside
          intro other bound same
          rw [written other bound, if_neg]
          rintro rfl
          exact fresh (same ▸ later)
        rw [if_pos later, if_pos (List.mem_cons_of_mem _ later), kept]
      · rw [if_neg later, written place inside]
        by_cases now : owner place = key
        · rw [if_pos now, if_pos (now ▸ List.mem_cons_self)]
        · rw [if_neg now, if_neg (by simp [now, later])]

theorem nested_foldl {Outer Inner State : Type} (outer : List Outer) (inner : List Inner)
    (step : State → Outer × Inner → State) (state : State) :
    outer.foldl (fun state x => inner.foldl (fun state y => step state (x, y)) state) state =
      (outer.flatMap fun x => inner.map fun y => (x, y)).foldl step state := by
  induction outer generalizing state with
  | nil => rfl
  | cons x rest ih => rw [List.foldl_cons, ih, List.flatMap_cons, List.foldl_append, List.foldl_map]

end Owned

/-! Walks along a path of positions. -/

section Walks
variable (position : Nat → Nat) (turn : Nat → α → α)

/-- The item carried is put down where the next one is picked up. -/
def carryStep (state : Vector α n × α) (x : Nat) : Vector α n × α :=
  (state.1.set! (position x) (turn x state.2), state.1[position x]!)

def carry (count : Nat) (state : Vector α n × α) : Vector α n × α :=
  (List.range count).foldl (carryStep position turn) state

/-- The last item first, each from the position before it. -/
def pull : Nat → Vector α n → Vector α n
  | 0, cells => cells
  | x + 1, cells => pull x (cells.set! (position (x + 1)) (turn (x + 1) cells[position x]!))

/-- What comes to a position. -/
def arriving (cells : Vector α n) (carried : α) : Nat → α
  | 0 => carried
  | x + 1 => cells[position x]!

variable {position}

theorem carry_spec {count : Nat} (distinct : ∀ i < count, ∀ j < i, position j ≠ position i)
    (inside : ∀ i < count, position i < n) (cells : Vector α n) (carried : α) :
    let out := carry position turn count (cells, carried)
    (∀ i < count, out.1[position i]! = turn i (arriving position cells carried i)) ∧
      (∀ place < n, (∀ i < count, position i ≠ place) → out.1[place]! = cells[place]!) ∧
      out.2 = arriving position cells carried count := by
  induction count with
  | zero => exact ⟨fun i below => absurd below (Nat.not_lt_zero i), fun _ _ _ => rfl, rfl⟩
  | succ count ih =>
      obtain ⟨moved, kept, held⟩ := ih (fun i below => distinct i (Nat.lt_succ_of_lt below))
        (fun i below => inside i (Nat.lt_succ_of_lt below))
      have bound := inside count (Nat.lt_succ_self count)
      have unrolled : carry position turn (count + 1) (cells, carried) =
          carryStep position turn (carry position turn count (cells, carried)) count := by
        rw [carry, List.range_succ, List.foldl_append]
        rfl
      rw [unrolled]
      refine ⟨fun i below => ?_, fun place within other => ?_, ?_⟩
      · rw [carryStep, get_set _ _ _ (inside i below)]
        rcases Nat.lt_succ_iff_lt_or_eq.mp below with before | rfl
        · rw [if_neg (Ne.symm (distinct count (Nat.lt_succ_self count) i before)), moved i before]
        · rw [if_pos rfl, held]
      · rw [carryStep, get_set _ _ _ within, if_neg (other count (Nat.lt_succ_self count))]
        exact kept place within fun i below => other i (Nat.lt_succ_of_lt below)
      · exact kept _ bound fun i below => distinct count (Nat.lt_succ_self count) i below

theorem pull_spec {count : Nat} (distinct : ∀ i < count + 1, ∀ j < i, position j ≠ position i)
    (inside : ∀ i < count + 1, position i < n) (cells : Vector α n) :
    (∀ i < count, (pull position turn count cells)[position (i + 1)]! =
        turn (i + 1) cells[position i]!) ∧
      ∀ place < n, (∀ i < count, position (i + 1) ≠ place) →
        (pull position turn count cells)[place]! = cells[place]! := by
  induction count generalizing cells with
  | zero => exact ⟨fun i below => absurd below (Nat.not_lt_zero i), fun _ _ _ => rfl⟩
  | succ count ih =>
      let written := cells.set! (position (count + 1)) (turn (count + 1) cells[position count]!)
      obtain ⟨moved, kept⟩ := ih (fun i below => distinct i (Nat.lt_succ_of_lt below))
        (fun i below => inside i (Nat.lt_succ_of_lt below)) written
      have untouched (i : Nat) (below : i < count + 1) :
          written[position i]! = cells[position i]! := by
        rw [get_set _ _ _ (inside i (Nat.lt_succ_of_lt below)),
          if_neg (Ne.symm (distinct (count + 1) (Nat.lt_succ_self _) i below))]
      refine ⟨fun i below => ?_, fun place within other => ?_⟩
      · rcases Nat.lt_succ_iff_lt_or_eq.mp below with before | rfl
        · rw [pull, moved i before, untouched i (Nat.lt_succ_of_lt before)]
        · -- the steps that follow write earlier positions
          rw [pull, kept _ (inside _ (Nat.lt_succ_self _)) fun j before =>
            distinct (i + 1) (Nat.lt_succ_self _) (j + 1) (Nat.succ_lt_succ before)]
          rw [get_set _ _ _ (inside _ (Nat.lt_succ_self _)), if_pos rfl]
      · rw [pull, kept place within fun i below => other i (Nat.lt_succ_of_lt below),
          get_set _ _ _ within, if_neg (other count (Nat.lt_succ_self count))]

end Walks

/-! Long runs on words, computed one state at a time. -/

section Strict
variable {Result : Type}

/-- The word is a number before `next` is computed. -/
def afterWord (word : UInt64) (next : UInt64 → Result) : Result :=
  match word.toNat with
  | 0 => next 0
  | number + 1 => next (UInt64.ofNat (number + 1))

def afterWords : List UInt64 → (List UInt64 → Result) → Result
  | [], next => next []
  | word :: rest, next => afterWord word fun word => afterWords rest fun rest => next (word :: rest)

def afterSteps {n : Nat} : List (Vector UInt64 n → Vector UInt64 n) → Vector UInt64 n →
    (Vector UInt64 n → Result) → Result
  | [], cells, next => next cells
  | step :: rest, cells, next => afterWords (step cells).toList fun words =>
      afterSteps rest (Vector.ofFn fun k => words[k.val]!) next

theorem after_word (word : UInt64) (next : UInt64 → Result) : afterWord word next = next word := by
  unfold afterWord
  have whole : UInt64.ofNat word.toNat = word := UInt64.ofNat_toNat
  split
  · rename_i same
    rw [same] at whole
    exact congrArg next whole
  · rename_i number same
    rw [same] at whole
    exact congrArg next whole

theorem after_words (words : List UInt64) (next : List UInt64 → Result) :
    afterWords words next = next words := by
  induction words generalizing next with
  | nil => rfl
  | cons word rest ih => rw [afterWords, after_word, ih]

theorem after_steps {n : Nat} (steps : List (Vector UInt64 n → Vector UInt64 n))
    (cells : Vector UInt64 n) (next : Vector UInt64 n → Result) :
    afterSteps steps cells next = next (steps.foldl (fun cells step => step cells) cells) := by
  induction steps generalizing cells with
  | nil => rfl
  | cons step rest ih =>
      have again : (Vector.ofFn fun k : Fin n => (step cells).toList[k.val]!) = step cells := by
        apply Vector.ext
        intro k bound
        rw [Vector.getElem_ofFn, getElem!_pos _ _ (by simpa using bound), Vector.getElem_toList]
      rw [afterSteps, after_words, again, ih, List.foldl_cons]

end Strict

end KeryxMiner.InPlaceLoops
