import KeryxMiner.HashKernels
import KeryxMiner.InPlaceLoops
import KeryxMiner.KeccakPermutation

/-!
`keccakf` of the kernels: `keccak-tiny.c`, `keccak-tiny-unrolled.c` and `keryx-opencl.cl`. Their
arrays are the lanes row after row. A scratch array is written before it is read, so none is
kept from one loop to the next.
-/

namespace KeryxMiner.KeccakKernels

open HeavyHash InPlaceLoops

/-! The lanes of a state. -/

def stateOf (lanes : Lanes) : Keccak.State := fun x y => lanes[5 * y.val + x.val]!

def lanesOf (state : Keccak.State) : Lanes :=
  Vector.ofFn fun i => state (Keccak.around i.val) (Keccak.around (i.val / 5))

theorem state_of_lanes (state : Keccak.State) : stateOf (lanesOf state) = state := by
  funext x y
  have inside : 5 * y.val + x.val < 25 := by omega
  rw [stateOf, getElem!_pos (lanesOf state) _ inside, lanesOf, Vector.getElem_ofFn]
  congr 1
  · exact Fin.ext (by simp only [Keccak.around, Fin.ofNat]; omega)
  · exact Fin.ext (by simp only [Keccak.around, Fin.ofNat]; omega)

theorem lane_at (lanes : Lanes) {place : Nat} (inside : place < 25) :
    lanes[place]! = stateOf lanes ⟨place % 5, by omega⟩ ⟨place / 5, by omega⟩ := by
  rw [stateOf]
  congr 1
  simp only
  omega

theorem state_injective : Function.Injective stateOf := by
  intro a b same
  apply cells_ext
  intro place inside
  rw [lane_at a inside, lane_at b inside, same]

/-- The permutation on lanes. -/
def f1600 (lanes : Lanes) : Lanes := lanesOf (Keccak.permute (stateOf lanes))

/-! Tables and macros. -/

def rho : List Nat :=
  [1, 3, 6, 10, 15, 21, 28, 36, 45, 55, 2, 14, 27, 41, 56, 8, 25, 43, 62, 18, 39, 61, 20, 44]

def pi : List Nat :=
  [10, 7, 11, 17, 18, 3, 5, 16, 8, 21, 24, 4, 15, 23, 19, 13, 12, 2, 20, 14, 22, 9, 6, 1]

def RC : List UInt64 :=
  [1, 0x8082, 0x800000000000808a, 0x8000000080008000, 0x808b, 0x80000001, 0x8000000080008081,
    0x8000000000008009, 0x8a, 0x88, 0x80008009, 0x8000000a, 0x8000808b, 0x800000000000008b,
    0x8000000000008089, 0x8000000000008003, 0x8000000000008002, 0x8000000000000080, 0x800a,
    0x800000008000000a, 0x8000000080008081, 0x8000000000008080, 0x80000001, 0x8000000080008008]

def rol (x : UInt64) (s : Nat) : UInt64 := (x <<< UInt64.ofNat s) ||| (x >>> UInt64.ofNat (64 - s))

/-- The values of `v` in `FOR5(v, s, e)`. -/
def for5 (s : Nat) : List Nat := (List.range 5).map (s * ·)

theorem rol_eq (x : UInt64) {s : Nat} (positive : 0 < s) (bound : s < 64) :
    rol x s = Keccak.rotl x s := rotate_shifts x positive bound

theorem table_constants : ∀ i < 24, RC[i]! = Keccak.roundConstant i := by decide

theorem path_distinct : ∀ i < 24, ∀ j < i, pi[j]! ≠ pi[i]! := by decide

theorem path_inside : ∀ i < 24, pi[i]! < 25 := by decide

theorem path_turns : ∀ i < 24, 0 < rho[i]! ∧ rho[i]! < 64 := by decide

/-- The position before the `i`th. The path ends where it starts. -/
def previous (i : Nat) : Nat := if i = 0 then 1 else pi[i - 1]!

/-- Every lane but the first is on the path, after the lane that `rho` and `pi` move to it. -/
theorem path_steps : ∀ x y : Fin 5, 5 * y.val + x.val = 0 ∨ ∃ i < 24, pi[i]! = 5 * y.val + x.val ∧
    previous i = 5 * x.val + (x + 3 * y).val ∧ rho[i]! = Keccak.offset (x + 3 * y) x := by decide

theorem path_first : ∀ i < 24, pi[i]! ≠ 0 := by decide

theorem columns_beside : ∀ x : Fin 5, (x.val + 4) % 5 = (x - 1).val ∧
    (x.val + 1) % 5 = (x + 1).val ∧ (x.val + 2) % 5 = (x + 2).val := by decide

/-- The lanes as two loops meet them. -/
def grid : List (Nat × Nat) := (for5 1).flatMap fun x => (for5 5).map fun y => (x, y)

def owner (place : Nat) : Nat × Nat := (place % 5, place / 5 * 5)

theorem grid_distinct : grid.Nodup := by decide

theorem grid_meets : ∀ key ∈ grid, ∀ place < 25, key.2 + key.1 = place ↔ owner place = key := by
  decide

theorem grid_covers : ∀ place < 25, owner place ∈ grid := by decide

theorem rows_distinct : (for5 5).Nodup := by decide

theorem rows_cover : ∀ place < 25, place / 5 * 5 ∈ for5 5 := by decide

section Grid
variable {α : Type} [Inhabited α]

/-- Two loops over the lanes that change each from itself and its column. -/
theorem grid_written (added : Nat → α → α) (a : Vector α 25) {place : Nat} (inside : place < 25) :
    ((for5 1).foldl (fun a x => (for5 5).foldl (fun (a : Vector α 25) y =>
      a.set! (y + x) (added x a[y + x]!)) a) a)[place]! = added (place % 5) a[place]! := by
  let step (a : Vector α 25) (key : Nat × Nat) :=
    a.set! (key.2 + key.1) (added key.1 a[key.2 + key.1]!)
  have owned : Owned grid owner step (fun a place => added (place % 5) a[place]!) := by
    refine ⟨fun a key member place inside => ?_, fun a other place inside same => ?_⟩
    · have meets := grid_meets key member place inside
      simp only [step, get_set _ _ _ inside]
      by_cases here : owner place = key
      · have target := meets.mpr here
        rw [if_pos target, if_pos here, target, ← here]
        rfl
      · rw [if_neg (fun target => here (meets.mp target)), if_neg here]
    · simp only [same place inside rfl]
  have written := foldl_owned owned grid_distinct a inside
  rw [if_pos (grid_covers _ inside)] at written
  rw [← written]
  exact congrArg (·[place]!) (nested_foldl (for5 1) (for5 5) step a)

theorem row_meets : ∀ y ∈ for5 5, ∀ x ∈ for5 1, ∀ place < 25,
    y + x = place ↔ (if place / 5 * 5 = y then place % 5 else 5) = x := by decide

theorem row_covers : ∀ y ∈ for5 5, ∀ place < 25,
    (if place / 5 * 5 = y then place % 5 else 5) ∈ for5 1 ↔ place / 5 * 5 = y := by decide

theorem row_written {y : Nat} (member : y ∈ for5 5) (a : Vector α 25) (value : Nat → α)
    {place : Nat} (inside : place < 25) :
    ((for5 1).foldl (fun (a : Vector α 25) x => a.set! (y + x) (value x)) a)[place]! =
      if place / 5 * 5 = y then value (place % 5) else a[place]! := by
  have owned : Owned (for5 1) (fun place => if place / 5 * 5 = y then place % 5 else 5)
      (fun (a : Vector α 25) x => a.set! (y + x) (value x)) (fun _ place => value (place % 5)) := by
    refine ⟨fun a x column place inside => ?_, fun _ _ _ _ _ => rfl⟩
    have meets := row_meets y member x column place inside
    simp only [get_set _ _ _ inside, meets]
    refine ite_congr rfl (fun here => ?_) fun _ => rfl
    rw [← meets.mpr here]
    congr 1
    have : ∀ y ∈ for5 5, ∀ x ∈ for5 1, x = (y + x) % 5 := by decide
    exact this y member x column
  rw [foldl_owned owned (by decide) a inside]
  simp only [row_covers y member place inside]

end Grid

/-! Halves of a lane. -/

def bit32 (word : UInt32) (z : Nat) : Bool := word.toBitVec.getLsbD z

theorem bit32_xor (a b : UInt32) (z : Nat) : bit32 (a ^^^ b) z = (bit32 a z ^^ bit32 b z) := by
  simp [bit32]

theorem bit32_and (a b : UInt32) (z : Nat) : bit32 (a &&& b) z = (bit32 a z && bit32 b z) := by
  simp [bit32]

theorem bit32_or (a b : UInt32) (z : Nat) : bit32 (a ||| b) z = (bit32 a z || bit32 b z) := by
  simp [bit32]

theorem bit32_not (a : UInt32) {z : Nat} (inside : z < 32) : bit32 (~~~a) z = !bit32 a z := by
  simp [bit32, inside]

def low (a : UInt64) : UInt32 := a.toUInt32

def high (a : UInt64) : UInt32 := (a >>> 32).toUInt32

def joined (high low : UInt32) : UInt64 := (high.toUInt64 <<< 32) ||| low.toUInt64

theorem bit_low (a : UInt64) {z : Nat} (inside : z < 32) : bit32 (low a) z = Keccak.bit a z := by
  simp [bit32, low, Keccak.bit, inside]

theorem bit_high (a : UInt64) {z : Nat} (inside : z < 32) :
    bit32 (high a) z = Keccak.bit a (z + 32) := by
  simp [bit32, high, Keccak.bit, inside, Nat.add_comm]

theorem bit_joined (a b : UInt32) {z : Nat} (inside : z < 64) :
    Keccak.bit (joined a b) z = if z < 32 then bit32 b z else bit32 a (z - 32) := by
  rcases Nat.lt_or_ge z 32 with below | above
  · simp [Keccak.bit, joined, bit32, below, inside]
  · have past : b.toBitVec.getLsbD z = false := BitVec.getLsbD_of_ge _ _ above
    simp [Keccak.bit, joined, bit32, Nat.not_lt.mpr above, inside, past]

/-- An operation on each bit of the halves is the operation on each bit of the lanes. -/
theorem joined_bits {operation : UInt32 → UInt32 → UInt32 → UInt32}
    (gate : Bool → Bool → Bool → Bool) (bitwise : ∀ a b c, ∀ z < 32,
      bit32 (operation a b c) z = gate (bit32 a z) (bit32 b z) (bit32 c z))
    (a b c : UInt64) {z : Nat} (inside : z < 64) :
    Keccak.bit (joined (operation (high a) (high b) (high c))
      (operation (low a) (low b) (low c))) z =
      gate (Keccak.bit a z) (Keccak.bit b z) (Keccak.bit c z) := by
  rw [bit_joined _ _ inside]
  split
  · rename_i below
    simp only [bitwise _ _ _ z below, bit_low _ below]
  · rename_i above
    have within : z - 32 < 32 := by omega
    simp only [bitwise _ _ _ _ within, bit_high _ within, Nat.sub_add_cancel (Nat.not_lt.mp above)]

/-! The loops of `keccak-tiny.c`, whose two files differ in the macros below. -/

section Loops
variable (eor3 bcax : UInt64 → UInt64 → UInt64 → UInt64)

def parities (a : Lanes) : Vector UInt64 5 :=
  Vector.ofFn fun x => (for5 5).foldl (fun b y => b ^^^ a[x.val + y]!) 0

def theta (a : Lanes) : Lanes :=
  let b := parities a
  (for5 1).foldl (fun a x => (for5 5).foldl (fun a y =>
    a.set! (y + x) (eor3 a[y + x]! b[(x + 4) % 5]! (rol b[(x + 1) % 5]! 1))) a) a

def rhoPi (a : Lanes) : Lanes :=
  (carry (fun x => pi[x]!) (fun x t => rol t rho[x]!) 24 (a, a[1]!)).1

def chi (a : Lanes) : Lanes :=
  (for5 5).foldl (fun a y =>
    let b : Vector UInt64 5 := Vector.ofFn fun x => a[y + x.val]!
    (for5 1).foldl (fun a x =>
      a.set! (y + x) (bcax b[x]! b[(x + 1) % 5]! b[(x + 2) % 5]!)) a) a

def iota (i : Nat) (a : Lanes) : Lanes := a.set! 0 (a[0]! ^^^ RC[i]!)

/-- The body of the loop over `i`. -/
def roundBody (a : Lanes) (i : Nat) : Lanes := iota i (chi bcax (rhoPi (theta eor3 a)))

variable {eor3 bcax}

theorem parities_get (a : Lanes) (x : Fin 5) :
    (parities a)[x.val]! = Keccak.parity (stateOf a) x := by
  rw [getElem!_pos (parities a) _ x.isLt, parities, Vector.getElem_ofFn]
  have unrolled : (for5 5).foldl (fun b y => b ^^^ a[x.val + y]!) 0 =
      0 ^^^ a[x.val + 0]! ^^^ a[x.val + 5]! ^^^ a[x.val + 10]! ^^^ a[x.val + 15]! ^^^
        a[x.val + 20]! := rfl
  rw [unrolled, UInt64.zero_xor]
  simp only [Nat.add_comm x.val]
  rfl

theorem theta_state (sums : ∀ a b c, eor3 a b c = a ^^^ (b ^^^ c)) (a : Lanes) :
    stateOf (theta eor3 a) = Keccak.theta (stateOf a) := by
  funext x y
  have inside : 5 * y.val + x.val < 25 := by omega
  have column : (5 * y.val + x.val) % 5 = x.val := by omega
  have written := grid_written (fun x lane =>
    eor3 lane (parities a)[(x + 4) % 5]! (rol (parities a)[(x + 1) % 5]! 1)) a inside
  rw [column, (columns_beside x).1, (columns_beside x).2.1] at written
  refine written.trans ?_
  rw [parities_get, parities_get, sums, rol_eq _ (by decide) (by decide)]
  rfl

theorem arriving_previous (a : Lanes) (i : Nat) :
    arriving (fun x => pi[x]!) a a[1]! i = a[previous i]! := by
  cases i with
  | zero => rfl
  | succ i => rfl

theorem rho_pi_state (a : Lanes) : stateOf (rhoPi a) = Keccak.pi (Keccak.rho (stateOf a)) := by
  obtain ⟨moved, kept, _⟩ := carry_spec (fun x t => rol t rho[x]!) path_distinct path_inside a a[1]!
  funext x y
  rcases path_steps x y with first | ⟨i, below, here, before, turn⟩
  · -- the lane that stays
    have untouched := kept 0 (by decide) path_first
    obtain ⟨rfl, rfl⟩ : x = 0 ∧ y = 0 := ⟨Fin.ext (by omega), Fin.ext (by omega)⟩
    rw [stateOf, first]
    exact untouched.trans (Keccak.rotl_whole _ 0).symm
  · have turned := path_turns i below
    rw [stateOf, ← here]
    refine (moved i below).trans ?_
    rw [arriving_previous, before, rol_eq _ turned.1 turned.2, turn]
    rfl

theorem chi_state (selects : ∀ a b c, bcax a b c = a ^^^ (~~~b &&& c)) (a : Lanes) :
    stateOf (chi bcax a) = Keccak.chi (stateOf a) := by
  let row (a : Lanes) (y : Nat) : Vector UInt64 5 := Vector.ofFn fun x => a[y + x.val]!
  let mixed (a : Lanes) (y x : Nat) :=
    bcax (row a y)[x]! (row a y)[(x + 1) % 5]! (row a y)[(x + 2) % 5]!
  have owned : Owned (for5 5) (fun place => place / 5 * 5)
      (fun (a : Lanes) y => (for5 1).foldl (fun a' x => a'.set! (y + x) (mixed a y x)) a)
      (fun a place => mixed a (place / 5 * 5) (place % 5)) := by
    refine ⟨fun a y member place inside => ?_, fun a other place inside same => ?_⟩
    · rw [row_written member a (mixed a y) inside]
      refine ite_congr rfl (fun here => ?_) fun _ => rfl
      rw [here]
    · have rows : row a (place / 5 * 5) = row other (place / 5 * 5) := by
        apply Vector.ext
        intro x bound
        simp only [row, Vector.getElem_ofFn]
        exact same _ (by omega) (by omega)
      simp only [mixed, rows]
  have lane (x y : Fin 5) : (row a (5 * y.val))[x.val]! = stateOf a x y := by
    rw [getElem!_pos (row a (5 * y.val)) _ x.isLt, Vector.getElem_ofFn]
    rfl
  funext x y
  have inside : 5 * y.val + x.val < 25 := by omega
  have start : (5 * y.val + x.val) / 5 * 5 = 5 * y.val := by omega
  have column : (5 * y.val + x.val) % 5 = x.val := by omega
  have written := foldl_owned owned rows_distinct a inside
  rw [if_pos (rows_cover _ inside), start, column] at written
  refine written.trans ?_
  simp only [mixed, (columns_beside x).2.1, (columns_beside x).2.2, lane, selects]
  rfl

theorem iota_state (i : Nat) (below : i < 24) (a : Lanes) :
    stateOf (iota i a) = Keccak.iota (Keccak.roundConstant i) (stateOf a) := by
  funext x y
  have inside : 5 * y.val + x.val < 25 := by omega
  rw [stateOf, iota, get_set _ _ _ inside, table_constants i below, Keccak.iota]
  by_cases first : x = 0 ∧ y = 0
  · obtain ⟨rfl, rfl⟩ := first
    rw [if_pos (by decide), if_pos ⟨rfl, rfl⟩]
    rfl
  · rw [if_neg first, if_neg fun same => first ⟨Fin.ext (by omega), Fin.ext (by omega)⟩]
    rfl

theorem round_body_state (sums : ∀ a b c, eor3 a b c = a ^^^ (b ^^^ c))
    (selects : ∀ a b c, bcax a b c = a ^^^ (~~~b &&& c)) {i : Nat} (below : i < 24) (a : Lanes) :
    stateOf (roundBody eor3 bcax a i) = Keccak.round (Keccak.roundConstant i) (stateOf a) := by
  rw [roundBody, iota_state i below, chi_state selects, rho_pi_state, theta_state sums]
  rfl

theorem round_bodies_state (sums : ∀ a b c, eor3 a b c = a ^^^ (b ^^^ c))
    (selects : ∀ a b c, bcax a b c = a ^^^ (~~~b &&& c)) {count : Nat} (bound : count ≤ 24)
    (a : Lanes) : stateOf ((List.range count).foldl (roundBody eor3 bcax) a) =
      Keccak.rounds count (stateOf a) := by
  induction count with
  | zero => rfl
  | succ count ih =>
      rw [List.range_succ, List.foldl_append, Keccak.rounds_succ, ← ih (by omega)]
      exact round_body_state sums selects (by omega) _

end Loops

/-! `keccak-tiny.c`. -/

namespace Cuda

/-- A `lop3.b32` for each half. -/
def lop3Halves (table : Nat) (a b c : UInt64) : UInt64 :=
  let rl := HashKernels.Cuda.lop3 table (low a) (low b) (low c)
  let rh := HashKernels.Cuda.lop3 table (high a) (high b) (high c)
  joined rh rl

theorem lop3_eor3 (a b c : UInt32) : ∀ z < 32, bit32 (HashKernels.Cuda.lop3 0x96 a b c) z =
    (bit32 a z ^^ (bit32 b z ^^ bit32 c z)) := by
  intro z inside
  -- the entries 1, 2, 4 and 7 of the table
  have unfolded : HashKernels.Cuda.lop3 0x96 a b c =
      0 ||| (~~~a &&& ~~~b &&& c) ||| (~~~a &&& b &&& ~~~c) ||| (a &&& ~~~b &&& ~~~c) |||
        (a &&& b &&& c) := rfl
  rw [unfolded]
  simp [bit32, inside]
  cases a.toBitVec[z] <;> cases b.toBitVec[z] <;> cases c.toBitVec[z] <;> rfl

theorem lop3_bcax (a b c : UInt32) : ∀ z < 32, bit32 (HashKernels.Cuda.lop3 0xD2 a b c) z =
    (bit32 a z ^^ (!bit32 b z && bit32 c z)) := by
  intro z inside
  -- the entries 1, 4, 6 and 7
  have unfolded : HashKernels.Cuda.lop3 0xD2 a b c =
      0 ||| (~~~a &&& ~~~b &&& c) ||| (a &&& ~~~b &&& ~~~c) ||| (a &&& b &&& ~~~c) |||
        (a &&& b &&& c) := rfl
  rw [unfolded]
  simp [bit32, inside]
  cases a.toBitVec[z] <;> cases b.toBitVec[z] <;> cases c.toBitVec[z] <;> rfl

section Kernel
variable (device : Bool)

def eor3 (a b c : UInt64) : UInt64 := if device then lop3Halves 0x96 a b c else a ^^^ b ^^^ c

def bcax (a b c : UInt64) : UInt64 := if device then lop3Halves 0xD2 a b c else a ^^^ (~~~b &&& c)

def keccakf (a : Lanes) : Lanes := (List.range 24).foldl (roundBody (eor3 device) (bcax device)) a

theorem eor3_eq (a b c : UInt64) : eor3 device a b c = a ^^^ (b ^^^ c) := by
  unfold eor3
  split
  · apply Keccak.bit_ext
    intro z inside
    rw [lop3Halves, joined_bits (fun a b c => a ^^ (b ^^ c)) lop3_eor3 a b c inside,
      Keccak.bit_xor, Keccak.bit_xor]
  · exact UInt64.xor_assoc a b c

theorem bcax_eq (a b c : UInt64) : bcax device a b c = a ^^^ (~~~b &&& c) := by
  unfold bcax
  split
  · apply Keccak.bit_ext
    intro z inside
    rw [lop3Halves, joined_bits (fun a b c => a ^^ (!b && c)) lop3_bcax a b c inside,
      Keccak.bit_xor, Keccak.bit_and, Keccak.bit_not _ inside]
  · rfl

theorem keccakf_state (a : Lanes) : stateOf (keccakf device a) = Keccak.permute (stateOf a) :=
  round_bodies_state (eor3_eq device) (bcax_eq device) (Nat.le_refl 24) a

end Kernel

end Cuda

/-! `keccak-tiny-unrolled.c`. -/

namespace Unrolled

/-- What `REPEAT24` repeats. -/
def repeated (state : Lanes × Nat) : Lanes × Nat :=
  (roundBody (fun a b c => a ^^^ (b ^^^ c)) (fun a b c => a ^^^ (~~~b &&& c)) state.1 state.2,
    state.2 + 1)

def keccakf (a : Lanes) : Lanes := (repeated^[24] (a, 0)).1

theorem repeated_iterate (count : Nat) (a : Lanes) : repeated^[count] (a, 0) =
    ((List.range count).foldl (roundBody (fun a b c => a ^^^ (b ^^^ c))
      (fun a b c => a ^^^ (~~~b &&& c))) a, count) := by
  induction count with
  | zero => rfl
  | succ count ih =>
      rw [Function.iterate_succ_apply', ih, List.range_succ, List.foldl_append]
      rfl

theorem keccakf_state (a : Lanes) : stateOf (keccakf a) = Keccak.permute (stateOf a) := by
  rw [keccakf, repeated_iterate]
  exact round_bodies_state (fun _ _ _ => rfl) (fun _ _ _ => rfl) (Nat.le_refl 24) a

end Unrolled

/-- The loops of both files compute the permutation, with or without `lop3`. -/
theorem keccak_tiny_permutes (a : Lanes) :
    (∀ device, stateOf (Cuda.keccakf device a) = Keccak.permute (stateOf a)) ∧
      stateOf (Unrolled.keccakf a) = Keccak.permute (stateOf a) :=
  ⟨fun device => Cuda.keccakf_state device a, Unrolled.keccakf_state a⟩

end KeryxMiner.KeccakKernels
