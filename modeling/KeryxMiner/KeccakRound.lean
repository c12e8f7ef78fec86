import KeryxMiner.KeccakLanes
import KeryxMiner.KeccakPermutation

/-!
One pass over the loop of `keccakf1600_x86-64.s` is a round. Six lanes are kept complemented, so
the additions of half of the columns are complemented as well.
-/

namespace KeryxMiner.KeccakRound

open Keccak KeccakLanes KeccakListing X86

/-! What each part of the pass does, read off its instructions. -/

/-- The last lane of a column is in a register. -/
def column (lanes : LaneCore) (last : Register) (x : Nat) : UInt64 :=
  lanes.registers last ^^^ lanes.source x ^^^ lanes.source (5 + x) ^^^ lanes.source (10 + x) ^^^
    lanes.source (15 + x)

/-- `rbx`, `rcx`, `rdx`, `rbp` and `rax` hold what `theta` adds to the columns. -/
theorem parities_run (lanes : LaneCore) :
    (lanes.run parities).registers .rbx =
        rotl (column lanes .rbx 1) 1 ^^^ column lanes .rbp 4 ∧
      (lanes.run parities).registers .rcx =
        rotl (column lanes .rcx 2) 1 ^^^ column lanes .rax 0 ∧
      (lanes.run parities).registers .rdx =
        rotl (column lanes .rdx 3) 1 ^^^ column lanes .rbx 1 ∧
      (lanes.run parities).registers .rbp =
        rotl (column lanes .rbp 4) 1 ^^^ column lanes .rcx 2 ∧
      (lanes.run parities).registers .rax =
        rotl (column lanes .rax 0) 1 ^^^ column lanes .rdx 3 := ⟨rfl, rfl, rfl, rfl, rfl⟩

/-- What a part of the pass leaves for the parts after it. -/
structure Keeps (before after : LaneCore) : Prop where
  source : after.source = before.source
  constants : after.constants = before.constants
  added : after.registers .rbx = before.registers .rbx ∧
    after.registers .rcx = before.registers .rcx ∧ after.registers .rdx = before.registers .rdx ∧
    after.registers .rbp = before.registers .rbp ∧ after.registers .rax = before.registers .rax

theorem plane0_keeps (lanes : LaneCore) : Keeps lanes (lanes.run plane0) :=
  ⟨rfl, rfl, rfl, rfl, rfl, rfl, rfl⟩

theorem plane1_keeps (lanes : LaneCore) : Keeps lanes (lanes.run plane1) :=
  ⟨rfl, rfl, rfl, rfl, rfl, rfl, rfl⟩

theorem plane2_keeps (lanes : LaneCore) : Keeps lanes (lanes.run plane2) :=
  ⟨rfl, rfl, rfl, rfl, rfl, rfl, rfl⟩

theorem plane3_keeps (lanes : LaneCore) : Keeps lanes (lanes.run plane3) :=
  ⟨rfl, rfl, rfl, rfl, rfl, rfl, rfl⟩

/-- Row `y` of an array. -/
def row (words : Nat → UInt64) (y : Nat) (w0 w1 w2 w3 w4 : UInt64) : Nat → UInt64 :=
  put (put (put (put (put words (5 * y) w0) (5 * y + 1) w1) (5 * y + 2) w2) (5 * y + 3) w3)
    (5 * y + 4) w4

def turned (lanes : LaneCore) (name added : Register) (count : Nat) : UInt64 :=
  rotl (lanes.registers name ^^^ lanes.registers added) count

theorem plane0_run (lanes : LaneCore) :
    let b0 := lanes.registers .r8 ^^^ lanes.registers .rbx
    let b1 := turned lanes .r9 .rcx 44
    let b2 := turned lanes .r10 .rdx 43
    let b3 := turned lanes .r11 .rbp 21
    let b4 := turned lanes .r12 .rax 14
    (lanes.run plane0).target = row lanes.target 0
      ((b1 ||| b2) ^^^ b0 ^^^ lanes.constants lanes.index) ((~~~b2 ||| b3) ^^^ b1)
      ((b4 &&& b3) ^^^ b2) ((b4 ||| b0) ^^^ b3) ((b1 &&& b0) ^^^ b4) := by
  intro b0 b1 b2 b3 b4
  have order : (lanes.run plane0).target = put (put (put (put (put lanes.target
      0 ((b1 ||| b2) ^^^ b0 ^^^ lanes.constants lanes.index)) 2 ((b4 &&& b3) ^^^ b2))
      1 ((~~~b2 ||| b3) ^^^ b1)) 4 ((b1 &&& b0) ^^^ b4)) 3 ((b4 ||| b0) ^^^ b3) := rfl
  funext k
  simp only [order, row, put]
  grind

theorem plane1_run (lanes : LaneCore) :
    let b0 := turned lanes .r8 .rbp 28
    let b1 := turned lanes .r9 .rax 20
    let b2 := turned lanes .r10 .rbx 3
    let b3 := turned lanes .r11 .rcx 45
    let b4 := turned lanes .r12 .rdx 61
    (lanes.run plane1).target = row lanes.target 1 ((b1 ||| b2) ^^^ b0) ((b3 &&& b2) ^^^ b1)
      ((~~~b4 ||| b3) ^^^ b2) ((b0 ||| b4) ^^^ b3) ((b1 &&& b0) ^^^ b4) := by
  intro b0 b1 b2 b3 b4
  have order : (lanes.run plane1).target =
      put (put (put (put (put lanes.target 8 ((b0 ||| b4) ^^^ b3)) 9 ((b1 &&& b0) ^^^ b4))
        7 ((~~~b4 ||| b3) ^^^ b2)) 6 ((b3 &&& b2) ^^^ b1)) 5 ((b1 ||| b2) ^^^ b0) := rfl
  funext k
  simp only [order, row, put]
  grind

theorem plane2_run (lanes : LaneCore) :
    let b0 := turned lanes .r8 .rcx 1
    let b1 := turned lanes .r9 .rdx 6
    let b2 := turned lanes .r10 .rbp 25
    let b3 := turned lanes .r11 .rax 8
    let b4 := turned lanes .r12 .rbx 18
    (lanes.run plane2).target = row lanes.target 2 ((b2 ||| b1) ^^^ b0) ((b2 &&& b3) ^^^ b1)
      ((b4 &&& ~~~b3) ^^^ b2) ((b4 ||| b0) ^^^ ~~~b3) ((b1 &&& b0) ^^^ b4) := by
  intro b0 b1 b2 b3 b4
  have order : (lanes.run plane2).target =
      put (put (put (put (put lanes.target 11 ((b2 &&& b3) ^^^ b1)) 12 ((b4 &&& ~~~b3) ^^^ b2))
        10 ((b2 ||| b1) ^^^ b0)) 14 ((b1 &&& b0) ^^^ b4)) 13 ((b4 ||| b0) ^^^ ~~~b3) := rfl
  funext k
  simp only [order, row, put]
  grind

theorem plane3_run (lanes : LaneCore) :
    let b0 := rotl (lanes.source 4 ^^^ lanes.registers .rax) 27
    let b1 := turned lanes .r9 .rbx 36
    let b2 := turned lanes .r10 .rcx 10
    let b3 := turned lanes .r11 .rdx 15
    let b4 := turned lanes .r12 .rbp 56
    (lanes.run plane3).target = row lanes.target 3 ((b2 &&& b1) ^^^ b0) ((b2 ||| b3) ^^^ b1)
      ((b4 ||| ~~~b3) ^^^ b2) ((b0 &&& b4) ^^^ ~~~b3) ((b1 ||| b0) ^^^ b4) := by
  intro b0 b1 b2 b3 b4
  have order : (lanes.run plane3).target =
      put (put (put (put (put lanes.target 16 ((b2 ||| b3) ^^^ b1)) 17 ((b4 ||| ~~~b3) ^^^ b2))
        15 ((b2 &&& b1) ^^^ b0)) 19 ((b1 ||| b0) ^^^ b4)) 18 ((b0 &&& b4) ^^^ ~~~b3) := rfl
  funext k
  simp only [order, row, put]
  grind

/-- The buffers change places in the middle of the last row, which stays in the registers. -/
theorem plane4_run (lanes : LaneCore) :
    let b0 := rotl (lanes.registers .rdx ^^^ lanes.source 2) 62
    let b1 := rotl (lanes.registers .rbp ^^^ lanes.source 8) 55
    let b2 := rotl (lanes.registers .rax ^^^ lanes.source 14) 39
    let b3 := rotl (lanes.registers .rbx ^^^ lanes.source 15) 41
    let b4 := rotl (lanes.registers .rcx ^^^ lanes.source 21) 2
    let after := lanes.run plane4
    after.source = row lanes.target 4 (after.registers .rax) (after.registers .rbx)
        (after.registers .rcx) (after.registers .rdx) (after.registers .rbp) ∧
      after.registers .rax = (b2 &&& ~~~b1) ^^^ b0 ∧
      after.registers .rbx = (b3 ||| b2) ^^^ ~~~b1 ∧ after.registers .rcx = (b4 &&& b3) ^^^ b2 ∧
      after.registers .rdx = (b0 ||| b4) ^^^ b3 ∧ after.registers .rbp = (b0 &&& b1) ^^^ b4 := by
  intro b0 b1 b2 b3 b4 after
  have rax : after.registers .rax = (b2 &&& ~~~b1) ^^^ b0 := rfl
  have rbx : after.registers .rbx = (b3 ||| b2) ^^^ ~~~b1 := rfl
  have rcx : after.registers .rcx = (b4 &&& b3) ^^^ b2 := rfl
  have rdx : after.registers .rdx = (b0 ||| b4) ^^^ b3 := rfl
  have rbp : after.registers .rbp = (b0 &&& b1) ^^^ b4 := rfl
  refine ⟨?_, rax, rbx, rcx, rdx, rbp⟩
  have order : after.source = put (put (put (put (put lanes.target 24 ((b0 &&& b1) ^^^ b4))
      20 ((b2 &&& ~~~b1) ^^^ b0)) 23 ((b0 ||| b4) ^^^ b3)) 22 ((b4 &&& b3) ^^^ b2))
      21 ((b3 ||| b2) ^^^ ~~~b1) := rfl
  rw [order, rax, rbx, rcx, rdx, rbp]
  funext k
  simp only [row, put]
  grind

/-- The registers that a part loads for the next one. -/
def Loaded (lanes : LaneCore) (k9 k10 k11 k12 : Nat) : Prop :=
  lanes.registers .r9 = lanes.source k9 ∧ lanes.registers .r10 = lanes.source k10 ∧
    lanes.registers .r11 = lanes.source k11 ∧ lanes.registers .r12 = lanes.source k12

theorem plane0_loads (lanes : LaneCore) :
    (lanes.run plane0).registers .r8 = (lanes.run plane0).source 3 ∧
      Loaded (lanes.run plane0) 9 10 16 22 := ⟨rfl, rfl, rfl, rfl, rfl⟩

theorem plane1_loads (lanes : LaneCore) :
    (lanes.run plane1).registers .r8 = (lanes.run plane1).source 1 ∧
      Loaded (lanes.run plane1) 7 13 19 20 := ⟨rfl, rfl, rfl, rfl, rfl⟩

theorem plane2_loads (lanes : LaneCore) : Loaded (lanes.run plane2) 5 11 17 23 :=
  ⟨rfl, rfl, rfl, rfl⟩

/-- The last row is in the registers when a pass begins. -/
def Entered (lanes : LaneCore) : Prop :=
  lanes.registers .rax = lanes.source 20 ∧ lanes.registers .rbx = lanes.source 21 ∧
    lanes.registers .rcx = lanes.source 22 ∧ lanes.registers .rdx = lanes.source 23 ∧
    lanes.registers .rbp = lanes.source 24

theorem parities_loads {lanes : LaneCore} (entered : Entered lanes) :
    (lanes.run parities).registers .r8 = (lanes.run parities).source 0 ∧
      Loaded (lanes.run parities) 6 12 18 24 :=
  ⟨rfl, rfl, rfl, rfl, entered.2.2.2.2⟩

theorem plane4_enters (lanes : LaneCore) : Entered (lanes.run plane4) := by
  rw [Entered, (plane4_run lanes).1]
  simp [row, put]

/-! Lanes that are complemented or not. -/

def flip (complemented : Bool) (word : UInt64) : UInt64 := if complemented then ~~~word else word

theorem flip_xor (a b : Bool) (v w : UInt64) : flip a v ^^^ flip b w = flip (a ^^ b) (v ^^^ w) := by
  apply bit_ext
  intro z inside
  cases a <;> cases b <;> simp [flip, bit_xor, bit_not _ inside]

theorem rotl_flip (a : Bool) (word : UInt64) (count : Nat) :
    rotl (flip a word) count = flip a (rotl word count) := by
  cases a
  · rfl
  · exact rotl_not word count

def complemented (k : Nat) : Bool := decide (k ∈ [1, 2, 8, 12, 17, 20])

/-- The array of a state, six lanes of it complemented. -/
def Stands (words : Nat → UInt64) (state : Keccak.State) : Prop :=
  ∀ x y : Fin 5, words (5 * y.val + x.val) =
    flip (complemented (5 * y.val + x.val)) (state x y)

def adder : Fin 5 → Register
  | 0 => .rbx
  | 1 => .rcx
  | 2 => .rdx
  | 3 => .rbp
  | 4 => .rax

/-- The additions whose parities are complemented once. -/
def odd (x : Fin 5) : Bool := decide (x.val = 0 ∨ x.val = 3)

/-- The state is in the buffer and its additions are in the registers. -/
structure Mixed (lanes : LaneCore) (state : Keccak.State) : Prop where
  stands : Stands lanes.source state
  added : ∀ x, lanes.registers (adder x) = flip (odd x) (addition state x)

theorem Mixed.kept {before after : LaneCore} {state : Keccak.State} (mixed : Mixed before state)
    (keeps : Keeps before after) : Mixed after state where
  stands := by
    rw [keeps.source]
    exact mixed.stands
  added x := by
    rw [← mixed.added x]
    obtain ⟨rbx, rcx, rdx, rbp, rax⟩ := keeps.added
    match x with
    | 0 => exact rbx
    | 1 => exact rcx
    | 2 => exact rdx
    | 3 => exact rbp
    | 4 => exact rax

theorem every_column {holds : Fin 5 → Prop} (zeroth : holds 0) (first : holds 1)
    (second : holds 2) (third : holds 3) (fourth : holds 4) (x : Fin 5) : holds x :=
  Fin.cases zeroth (Fin.cases first (Fin.cases second (Fin.cases third
    (Fin.cases fourth fun none => none.elim0)))) x

theorem parities_mixed {lanes : LaneCore} {state : Keccak.State}
    (stands : Stands lanes.source state) (entered : Entered lanes) :
    Mixed (lanes.run parities) state := by
  obtain ⟨rax, rbx, rcx, rdx, rbp⟩ := entered
  obtain ⟨d0, d1, d2, d3, d4⟩ := parities_run lanes
  have summed (x : Fin 5) (last : Register)
      (held : lanes.registers last = lanes.source (20 + x.val)) :
      column lanes last x.val = flip (decide (x ≠ 4)) (parity state x) := by
    have flags : ∀ x : Fin 5, (complemented (20 + x.val) ^^ complemented x.val ^^
        complemented (5 + x.val) ^^ complemented (10 + x.val) ^^ complemented (15 + x.val)) =
          decide (x ≠ 4) := by decide
    have row0 : lanes.source x.val = flip (complemented x.val) (state x 0) := by
      simpa using stands x 0
    rw [column, held, row0, show lanes.source (5 + x.val) = _ from stands x 1,
      show lanes.source (10 + x.val) = _ from stands x 2,
      show lanes.source (15 + x.val) = _ from stands x 3,
      show lanes.source (20 + x.val) = _ from stands x 4, flip_xor, flip_xor, flip_xor, flip_xor]
    refine congr (congrArg flip (flags x)) ?_
    rw [parity]
    ac_rfl
  have combined (x before after : Fin 5) (beside : before = x - 1 ∧ after = x + 1) :
      rotl (flip (decide (after ≠ 4)) (parity state after)) 1 ^^^
        flip (decide (before ≠ 4)) (parity state before) = flip (odd x) (addition state x) := by
    obtain ⟨rfl, rfl⟩ := beside
    have flags : ∀ x : Fin 5, (decide (x + 1 ≠ 4) ^^ decide (x - 1 ≠ 4)) = odd x := by decide
    rw [rotl_flip, flip_xor, flags, UInt64.xor_comm, addition]
  have c0 := summed 0 .rax rax
  have c1 := summed 1 .rbx rbx
  have c2 := summed 2 .rcx rcx
  have c3 := summed 3 .rdx rdx
  have c4 := summed 4 .rbp rbp
  refine ⟨stands, every_column ?_ ?_ ?_ ?_ ?_⟩
  · exact d0.trans (by rw [← combined 0 4 1 (by decide), ← c1, ← c4]; rfl)
  · exact d1.trans (by rw [← combined 1 0 2 (by decide), ← c2, ← c0]; rfl)
  · exact d2.trans (by rw [← combined 2 1 3 (by decide), ← c3, ← c1]; rfl)
  · exact d3.trans (by rw [← combined 3 2 4 (by decide), ← c4, ← c2]; rfl)
  · exact d4.trans (by rw [← combined 4 3 0 (by decide), ← c0, ← c3]; rfl)

/-- The lanes that come to row `y`, turned. -/
theorem Mixed.word {lanes : LaneCore} {state : Keccak.State} (mixed : Mixed lanes state)
    (x y : Fin 5) : rotl (lanes.source (5 * x.val + (x + 3 * y).val) ^^^
      lanes.registers (adder (x + 3 * y))) (offset (x + 3 * y) x) =
        flip (complemented (5 * x.val + (x + 3 * y).val) ^^ odd (x + 3 * y))
          (Keccak.pi (rho (theta state)) x y) := by
  rw [mixed.stands, mixed.added, flip_xor, rotl_flip]
  rfl

/-! The rows of a round. -/

def RowStands (words : Nat → UInt64) (state : Keccak.State) (y : Fin 5) : Prop :=
  ∀ x : Fin 5, words (5 * y.val + x.val) =
    flip (complemented (5 * y.val + x.val)) (state x y)

theorem row_stands {words : Nat → UInt64} {y : Fin 5} {w0 w1 w2 w3 w4 : UInt64}
    {state : Keccak.State}
    (stand : w0 = flip (complemented (5 * y.val)) (state 0 y) ∧
      w1 = flip (complemented (5 * y.val + 1)) (state 1 y) ∧
        w2 = flip (complemented (5 * y.val + 2)) (state 2 y) ∧
          w3 = flip (complemented (5 * y.val + 3)) (state 3 y) ∧
            w4 = flip (complemented (5 * y.val + 4)) (state 4 y)) :
    RowStands (row words y.val w0 w1 w2 w3 w4) state y := by
  obtain ⟨rfl, rfl, rfl, rfl, rfl⟩ := stand
  intro x
  match x with
  | 0 | 1 | 2 | 3 | 4 => simp [row, put]

theorem row_other {words : Nat → UInt64} {y k : Nat} {w0 w1 w2 w3 w4 : UInt64}
    (other : k / 5 ≠ y) : row words y w0 w1 w2 w3 w4 k = words k := by
  have apart : ∀ x < 5, k ≠ 5 * y + x := by omega
  have first : k ≠ 5 * y := apart 0 (by decide)
  simp only [row, put, first, apart 1 (by decide), apart 2 (by decide), apart 3 (by decide),
    apart 4 (by decide), if_false]

/-! A lane of `chi`, or its complement, from lanes of which some are complemented. -/

theorem chosen_and (a b c : UInt64) : (c &&& ~~~b) ^^^ a = a ^^^ (~~~b &&& c) := by
  rw [UInt64.xor_comm, UInt64.and_comm]

theorem chosen_or (a b c : UInt64) : (b ||| ~~~c) ^^^ ~~~a = a ^^^ (~~~b &&& c) := by
  apply bit_ext
  intro z inside
  simp only [bit_xor, bit_or, bit_and, bit_not _ inside]
  cases bit a z <;> cases bit b z <;> simp

theorem kept_and (a b c : UInt64) : (c &&& ~~~b) ^^^ ~~~a = ~~~(a ^^^ (~~~b &&& c)) := by
  rw [UInt64.xor_comm, UInt64.and_comm, UInt64.not_xor]

theorem kept_or (a b c : UInt64) : (b ||| ~~~c) ^^^ a = ~~~(a ^^^ (~~~b &&& c)) := by
  rw [← chosen_or, UInt64.xor_not, UInt64.not_not]

theorem Mixed.unturned {lanes : LaneCore} {state : Keccak.State} (mixed : Mixed lanes state) :
    lanes.source 0 ^^^ lanes.registers .rbx = ~~~Keccak.pi (rho (theta state)) 0 0 := by
  have lane : lanes.source 0 ^^^ lanes.registers .rbx = ~~~theta state 0 0 := by
    rw [show lanes.source 0 = _ from mixed.stands 0 0,
      show lanes.registers .rbx = _ from mixed.added 0, flip_xor]
    rfl
  rw [lane]
  exact congrArg (~~~·) (rotl_whole (theta state 0 0) 0).symm

theorem plane0_row {lanes : LaneCore} {state : Keccak.State}
    (mixed : Mixed lanes state) (first : lanes.registers .r8 = lanes.source 0)
    (loaded : Loaded lanes 6 12 18 24) :
    RowStands (lanes.run plane0).target (round (lanes.constants lanes.index) state) 0 := by
  obtain ⟨r9, r10, r11, r12⟩ := loaded
  let p (x : Fin 5) := Keccak.pi (rho (theta state)) x 0
  have b0 : lanes.registers .r8 ^^^ lanes.registers .rbx = ~~~p 0 := by
    rw [first]
    exact mixed.unturned
  have b1 : turned lanes .r9 .rcx 44 = p 1 := by rw [turned, r9]; exact mixed.word 1 0
  have b2 : turned lanes .r10 .rdx 43 = ~~~p 2 := by rw [turned, r10]; exact mixed.word 2 0
  have b3 : turned lanes .r11 .rbp 21 = ~~~p 3 := by rw [turned, r11]; exact mixed.word 3 0
  have b4 : turned lanes .r12 .rax 14 = p 4 := by rw [turned, r12]; exact mixed.word 4 0
  rw [plane0_run, b0, b1, b2, b3, b4]
  apply row_stands
  refine ⟨?_, ?_, ?_, ?_, ?_⟩
  · exact congrArg (· ^^^ lanes.constants lanes.index) (chosen_or (p 0) (p 1) (p 2))
  · rw [UInt64.not_not]; exact kept_or (p 1) (p 2) (p 3)
  · exact kept_and (p 2) (p 3) (p 4)
  · exact chosen_or (p 3) (p 4) (p 0)
  · exact chosen_and (p 4) (p 0) (p 1)

theorem plane1_row {lanes : LaneCore} {state : Keccak.State} (constant : UInt64)
    (mixed : Mixed lanes state) (first : lanes.registers .r8 = lanes.source 3)
    (loaded : Loaded lanes 9 10 16 22) :
    RowStands (lanes.run plane1).target (round constant state) 1 := by
  obtain ⟨r9, r10, r11, r12⟩ := loaded
  let p (x : Fin 5) := Keccak.pi (rho (theta state)) x 1
  have b0 : turned lanes .r8 .rbp 28 = ~~~p 0 := by rw [turned, first]; exact mixed.word 0 1
  have b1 : turned lanes .r9 .rax 20 = p 1 := by rw [turned, r9]; exact mixed.word 1 1
  have b2 : turned lanes .r10 .rbx 3 = ~~~p 2 := by rw [turned, r10]; exact mixed.word 2 1
  have b3 : turned lanes .r11 .rcx 45 = p 3 := by rw [turned, r11]; exact mixed.word 3 1
  have b4 : turned lanes .r12 .rdx 61 = p 4 := by rw [turned, r12]; exact mixed.word 4 1
  rw [plane1_run, b0, b1, b2, b3, b4]
  apply row_stands
  refine ⟨?_, ?_, ?_, ?_, ?_⟩
  · exact chosen_or (p 0) (p 1) (p 2)
  · exact chosen_and (p 1) (p 2) (p 3)
  · rw [UInt64.or_comm]; exact chosen_or (p 2) (p 3) (p 4)
  · rw [UInt64.or_comm]; exact kept_or (p 3) (p 4) (p 0)
  · exact chosen_and (p 4) (p 0) (p 1)

theorem plane2_row {lanes : LaneCore} {state : Keccak.State} (constant : UInt64)
    (mixed : Mixed lanes state) (first : lanes.registers .r8 = lanes.source 1)
    (loaded : Loaded lanes 7 13 19 20) :
    RowStands (lanes.run plane2).target (round constant state) 2 := by
  obtain ⟨r9, r10, r11, r12⟩ := loaded
  let p (x : Fin 5) := Keccak.pi (rho (theta state)) x 2
  have b0 : turned lanes .r8 .rcx 1 = ~~~p 0 := by rw [turned, first]; exact mixed.word 0 2
  have b1 : turned lanes .r9 .rdx 6 = p 1 := by rw [turned, r9]; exact mixed.word 1 2
  have b2 : turned lanes .r10 .rbp 25 = ~~~p 2 := by rw [turned, r10]; exact mixed.word 2 2
  have b3 : turned lanes .r11 .rax 8 = p 3 := by rw [turned, r11]; exact mixed.word 3 2
  have b4 : turned lanes .r12 .rbx 18 = p 4 := by rw [turned, r12]; exact mixed.word 4 2
  rw [plane2_run, b0, b1, b2, b3, b4]
  apply row_stands
  refine ⟨?_, ?_, ?_, ?_, ?_⟩
  · rw [UInt64.or_comm]; exact chosen_or (p 0) (p 1) (p 2)
  · rw [UInt64.and_comm]; exact chosen_and (p 1) (p 2) (p 3)
  · exact kept_and (p 2) (p 3) (p 4)
  · exact chosen_or (p 3) (p 4) (p 0)
  · exact chosen_and (p 4) (p 0) (p 1)

theorem plane3_row {lanes : LaneCore} {state : Keccak.State} (constant : UInt64)
    (mixed : Mixed lanes state)
    (loaded : Loaded lanes 5 11 17 23) :
    RowStands (lanes.run plane3).target (round constant state) 3 := by
  obtain ⟨r9, r10, r11, r12⟩ := loaded
  let p (x : Fin 5) := Keccak.pi (rho (theta state)) x 3
  have b0 : rotl (lanes.source 4 ^^^ lanes.registers .rax) 27 = p 0 := mixed.word 0 3
  have b1 : turned lanes .r9 .rbx 36 = ~~~p 1 := by rw [turned, r9]; exact mixed.word 1 3
  have b2 : turned lanes .r10 .rcx 10 = p 2 := by rw [turned, r10]; exact mixed.word 2 3
  have b3 : turned lanes .r11 .rdx 15 = ~~~p 3 := by rw [turned, r11]; exact mixed.word 3 3
  have b4 : turned lanes .r12 .rbp 56 = ~~~p 4 := by rw [turned, r12]; exact mixed.word 4 3
  rw [plane3_run, b0, b1, b2, b3, b4]
  apply row_stands
  refine ⟨?_, ?_, ?_, ?_, ?_⟩
  · exact chosen_and (p 0) (p 1) (p 2)
  · exact chosen_or (p 1) (p 2) (p 3)
  · rw [UInt64.not_not, UInt64.or_comm]; exact kept_or (p 2) (p 3) (p 4)
  · rw [UInt64.not_not]; exact chosen_and (p 3) (p 4) (p 0)
  · rw [UInt64.or_comm]; exact chosen_or (p 4) (p 0) (p 1)

theorem plane4_row {lanes : LaneCore} {state : Keccak.State} (constant : UInt64)
    (mixed : Mixed lanes state) :
    RowStands (lanes.run plane4).source (round constant state) 4 := by
  let p (x : Fin 5) := Keccak.pi (rho (theta state)) x 4
  obtain ⟨stored, rax, rbx, rcx, rdx, rbp⟩ := plane4_run lanes
  have b0 : rotl (lanes.registers .rdx ^^^ lanes.source 2) 62 = ~~~p 0 := by
    rw [UInt64.xor_comm]; exact mixed.word 0 4
  have b1 : rotl (lanes.registers .rbp ^^^ lanes.source 8) 55 = p 1 := by
    rw [UInt64.xor_comm]; exact mixed.word 1 4
  have b2 : rotl (lanes.registers .rax ^^^ lanes.source 14) 39 = p 2 := by
    rw [UInt64.xor_comm]; exact mixed.word 2 4
  have b3 : rotl (lanes.registers .rbx ^^^ lanes.source 15) 41 = ~~~p 3 := by
    rw [UInt64.xor_comm]; exact mixed.word 3 4
  have b4 : rotl (lanes.registers .rcx ^^^ lanes.source 21) 2 = p 4 := by
    rw [UInt64.xor_comm]; exact mixed.word 4 4
  rw [stored, rax, rbx, rcx, rdx, rbp, b0, b1, b2, b3, b4]
  apply row_stands
  refine ⟨?_, ?_, ?_, ?_, ?_⟩
  · exact kept_and (p 0) (p 1) (p 2)
  · rw [UInt64.or_comm]; exact chosen_or (p 1) (p 2) (p 3)
  · exact chosen_and (p 2) (p 3) (p 4)
  · rw [UInt64.or_comm]; exact chosen_or (p 3) (p 4) (p 0)
  · rw [UInt64.and_comm]; exact chosen_and (p 4) (p 0) (p 1)

/-! The whole pass. -/

theorem run_append (lanes : LaneCore) (first second : List Instruction) :
    lanes.run (first ++ second) = (lanes.run first).run second := List.foldl_append

theorem RowStands.kept {before after : Nat → UInt64} {state : Keccak.State} {y : Fin 5}
    {other : Nat} (stands : RowStands before state y) (apart : y.val ≠ other)
    (same : ∀ k, k / 5 ≠ other → after k = before k) : RowStands after state y := by
  intro x
  rw [same _ (by omega)]
  exact stands x

theorem plane1_other (lanes : LaneCore) (k : Nat) (other : k / 5 ≠ 1) :
    (lanes.run plane1).target k = lanes.target k := by
  rw [plane1_run]
  exact row_other other

theorem plane2_other (lanes : LaneCore) (k : Nat) (other : k / 5 ≠ 2) :
    (lanes.run plane2).target k = lanes.target k := by
  rw [plane2_run]
  exact row_other other

theorem plane3_other (lanes : LaneCore) (k : Nat) (other : k / 5 ≠ 3) :
    (lanes.run plane3).target k = lanes.target k := by
  rw [plane3_run]
  exact row_other other

theorem plane4_other (lanes : LaneCore) (k : Nat) (other : k / 5 ≠ 4) :
    (lanes.run plane4).source k = lanes.target k := by
  rw [(plane4_run lanes).1]
  exact row_other other

theorem body_round {lanes : LaneCore} {state : Keccak.State} (stands : Stands lanes.source state)
    (entered : Entered lanes) :
    Stands (lanes.run body).source (round (lanes.constants lanes.index) state) ∧
      Entered (lanes.run body) := by
  have parts : lanes.run body =
      (((((lanes.run parities).run plane0).run plane1).run plane2).run plane3).run plane4 := by
    simp only [body, run_append]
  rw [parts]
  have constant : (lanes.run parities).constants (lanes.run parities).index =
      lanes.constants lanes.index := rfl
  have mixed := parities_mixed stands entered
  have loads := parities_loads entered
  have row0 := plane0_row mixed loads.1 loads.2
  rw [constant] at row0
  clear constant loads
  generalize lanes.run parities = lanes0 at *
  have mixed0 := mixed.kept (plane0_keeps lanes0)
  have loads0 := plane0_loads lanes0
  generalize lanes0.run plane0 = lanes1 at *
  have row1 := plane1_row (lanes.constants lanes.index) mixed0 loads0.1 loads0.2
  have row0 := row0.kept (by decide) (plane1_other lanes1)
  have mixed1 := mixed0.kept (plane1_keeps lanes1)
  have loads1 := plane1_loads lanes1
  generalize lanes1.run plane1 = lanes2 at *
  have row2 := plane2_row (lanes.constants lanes.index) mixed1 loads1.1 loads1.2
  have row0 := row0.kept (by decide) (plane2_other lanes2)
  have row1 := row1.kept (by decide) (plane2_other lanes2)
  have mixed2 := mixed1.kept (plane2_keeps lanes2)
  have loads2 := plane2_loads lanes2
  generalize lanes2.run plane2 = lanes3 at *
  have row3 := plane3_row (lanes.constants lanes.index) mixed2 loads2
  have row0 := row0.kept (by decide) (plane3_other lanes3)
  have row1 := row1.kept (by decide) (plane3_other lanes3)
  have row2 := row2.kept (by decide) (plane3_other lanes3)
  have mixed3 := mixed2.kept (plane3_keeps lanes3)
  generalize lanes3.run plane3 = lanes4 at *
  refine ⟨fun x y => ?_, plane4_enters lanes4⟩
  match y with
  | 0 => exact row0.kept (by decide) (plane4_other lanes4) x
  | 1 => exact row1.kept (by decide) (plane4_other lanes4) x
  | 2 => exact row2.kept (by decide) (plane4_other lanes4) x
  | 3 => exact row3.kept (by decide) (plane4_other lanes4) x
  | 4 => exact plane4_row (lanes.constants lanes.index) mixed3 x

theorem body_index (lanes : LaneCore) : (lanes.run body).index = lanes.index + 1 := rfl

end KeryxMiner.KeccakRound
