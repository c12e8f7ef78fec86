import KeryxMiner.KeccakKernels

/-!
`keccakf` of `keryx-opencl.cl`. Its words are `ulong`, or pairs of `uint` on AMD platforms. The
last round computes only the lanes that are squeezed.
-/

namespace KeryxMiner.OpenClKeccak

open HeavyHash InPlaceLoops KeccakKernels

/-- `dataType` with the functions that `keccakf` calls on it, and the lane of each word. -/
structure DataType (Word : Type) where
  xor : Word → Word → Word
  rol : Word → Nat → Word
  bitselect : Word → Word → Word → Word
  asDataType : UInt64 → Word
  lane : Word → UInt64
  xor_lane : ∀ a b, lane (xor a b) = lane a ^^^ lane b
  rol_lane : ∀ a s, 0 < s → s < 64 → lane (rol a s) = Keccak.rotl (lane a) s
  bitselect_lane : ∀ a b c,
    lane (bitselect a b c) = (lane a &&& ~~~lane c) ||| (lane b &&& lane c)
  data_lane : ∀ word, lane (asDataType word) = word

theorem bitselect_chi {Word : Type} (data : DataType Word) (a b c : Word) :
    data.lane (data.bitselect (data.xor a c) a b) =
      data.lane a ^^^ (~~~data.lane b &&& data.lane c) := by
  rw [data.bitselect_lane, data.xor_lane]
  apply Keccak.bit_ext
  intro z inside
  simp only [Keccak.bit_xor, Keccak.bit_and, Keccak.bit_or, Keccak.bit_not _ inside]
  cases Keccak.bit (data.lane a) z <;> cases Keccak.bit (data.lane b) z <;> simp

section Kernel
variable {Word : Type} [Inhabited Word] (data : DataType Word)

def parities (a : Vector Word 25) : Vector Word 5 :=
  Vector.ofFn fun x => data.xor (data.xor (data.xor (data.xor a[x.val]! a[x.val + 5]!)
    a[x.val + 10]!) a[x.val + 15]!) a[x.val + 20]!

/-- `b` once the parities beside it are mixed in. -/
def columns (a : Vector Word 25) : Vector Word 5 :=
  let b := parities data a
  let v := b[4]!
  let t := b[0]!
  let b := b.set! 4 (data.xor b[4]! (data.rol b[1]! 1))
  let b := b.set! 0 (data.xor b[0]! (data.rol b[2]! 1))
  let b := b.set! 1 (data.xor b[1]! (data.rol b[3]! 1))
  let b := b.set! 2 (data.xor b[2]! (data.rol v 1))
  b.set! 3 (data.xor b[3]! (data.rol t 1))

def theta (a : Vector Word 25) : Vector Word 25 :=
  let b := columns data a
  (for5 1).foldl (fun a x => (for5 5).foldl (fun a y =>
    a.set! (y + x) (data.xor a[y + x]! b[(x + 4) % 5]!)) a) a

def rhoPi (a : Vector Word 25) : Vector Word 25 :=
  let t := a[1]!
  let a := pull (fun x => pi[x]!) (fun x word => data.rol word rho[x]!) 23 a
  a.set! pi[0]! (data.rol t rho[0]!)

def chiRow (a : Vector Word 25) (y : Nat) : Vector Word 25 :=
  let v := a[y]!
  let t := a[y + 1]!
  let a := a.set! y (data.bitselect (data.xor a[y]! a[y + 2]!) a[y]! a[y + 1]!)
  let a := a.set! (y + 1) (data.bitselect (data.xor a[y + 1]! a[y + 3]!) a[y + 1]! a[y + 2]!)
  let a := a.set! (y + 2) (data.bitselect (data.xor a[y + 2]! a[y + 4]!) a[y + 2]! a[y + 3]!)
  let a := a.set! (y + 3) (data.bitselect (data.xor a[y + 3]! v) a[y + 3]! a[y + 4]!)
  a.set! (y + 4) (data.bitselect (data.xor a[y + 4]! t) a[y + 4]! v)

def chi (a : Vector Word 25) : Vector Word 25 := (for5 5).foldl (chiRow data) a

def iota (i : Nat) (a : Vector Word 25) : Vector Word 25 :=
  a.set! 0 (data.xor a[0]! (data.asDataType RC[i]!))

/-- The body of the loop over `i`. -/
def roundBody (a : Vector Word 25) (i : Nat) : Vector Word 25 :=
  iota data i (chi data (rhoPi data (theta data a)))

/-- The lines after the loop. -/
def lastRound (a : Vector Word 25) : Vector Word 25 :=
  let b := columns data a
  let a := a.set! 0 (data.xor a[0]! b[4]!)
  let a := a.set! 1 (data.xor a[1]! b[0]!)
  let a := a.set! 6 (data.xor a[6]! b[0]!)
  let a := a.set! 2 (data.xor a[2]! b[1]!)
  let a := a.set! 12 (data.xor a[12]! b[1]!)
  let a := a.set! 3 (data.xor a[3]! b[2]!)
  let a := a.set! 18 (data.xor a[18]! b[2]!)
  let a := a.set! 4 (data.xor a[4]! b[3]!)
  let a := a.set! 24 (data.xor a[24]! b[3]!)
  let a := a.set! 1 (data.rol a[pi[22]!]! rho[23]!)
  let a := a.set! 2 (data.rol a[pi[16]!]! rho[17]!)
  let a := a.set! 4 (data.rol a[pi[10]!]! rho[11]!)
  let a := a.set! 3 (data.rol a[pi[4]!]! rho[5]!)
  let v := a[0]!
  let a := a.set! 0 (data.bitselect (data.xor a[0]! a[2]!) a[0]! a[1]!)
  let a := a.set! 1 (data.bitselect (data.xor a[1]! a[3]!) a[1]! a[2]!)
  let a := a.set! 2 (data.bitselect (data.xor a[2]! a[4]!) a[2]! a[3]!)
  let a := a.set! 3 (data.bitselect (data.xor a[3]! v) a[3]! a[4]!)
  iota data 23 a

def keccakf (a : Vector Word 25) : Vector Word 25 :=
  lastRound data ((List.range 23).foldl (roundBody data) a)

/-! The state that an array stands for. -/

def state (a : Vector Word 25) : Keccak.State := fun x y => data.lane a[5 * y.val + x.val]!

variable {data}

theorem parities_lane (a : Vector Word 25) (x : Fin 5) :
    data.lane (parities data a)[x.val]! = Keccak.parity (state data a) x := by
  rw [getElem!_pos (parities data a) _ x.isLt, parities, Vector.getElem_ofFn]
  have first : 5 * (0 : Fin 5).val + x.val = x.val := Nat.zero_add x.val
  simp only [data.xor_lane, Keccak.parity, state, Nat.add_comm x.val, first]
  rfl

theorem columns_lane (a : Vector Word 25) (x : Fin 5) :
    data.lane (columns data a)[(x.val + 4) % 5]! =
      Keccak.parity (state data a) (x - 1) ^^^
        Keccak.rotl (Keccak.parity (state data a) (x + 1)) 1 := by
  have turned (word : Word) : data.lane (data.rol word 1) = Keccak.rotl (data.lane word) 1 :=
    data.rol_lane word 1 (by decide) (by decide)
  rw [← parities_lane, ← parities_lane, ← turned, ← data.xor_lane]
  match x with
  | 0 | 1 | 2 | 3 | 4 => simp [columns]

theorem theta_state (a : Vector Word 25) :
    state data (theta data a) = Keccak.theta (state data a) := by
  funext x y
  have inside : 5 * y.val + x.val < 25 := by omega
  have column : (5 * y.val + x.val) % 5 = x.val := by omega
  have written := grid_written (fun x word => data.xor word (columns data a)[(x + 4) % 5]!) a inside
  rw [column] at written
  rw [state, theta, written, data.xor_lane, columns_lane]
  rfl

theorem rho_pi_state (a : Vector Word 25) :
    state data (rhoPi data a) = Keccak.pi (Keccak.rho (state data a)) := by
  obtain ⟨moved, kept⟩ := pull_spec (fun x word => data.rol word rho[x]!)
    path_distinct path_inside a
  have arrived (i : Nat) (below : i < 24) :
      (rhoPi data a)[pi[i]!]! = data.rol a[previous i]! rho[i]! := by
    rw [rhoPi, get_set _ _ _ (path_inside i below)]
    match i with
    | 0 => rfl
    | i + 1 =>
        rw [if_neg (path_distinct (i + 1) below 0 (Nat.succ_pos i))]
        exact moved i (by omega)
  funext x y
  rcases path_steps x y with first | ⟨i, below, here, before, turn⟩
  · -- the lane that stays
    have untouched := kept 0 (by decide) fun i below => path_first (i + 1) (by omega)
    obtain ⟨rfl, rfl⟩ : x = 0 ∧ y = 0 := ⟨Fin.ext (by omega), Fin.ext (by omega)⟩
    rw [state, first, rhoPi, get_set _ _ _ (by decide), if_neg (path_first 0 (by decide)),
      untouched]
    exact (Keccak.rotl_whole _ 0).symm
  · have turned := path_turns i below
    rw [state, ← here, arrived i below, data.rol_lane _ _ turned.1 turned.2, before, turn]
    rfl

/-- A row is read before it is written, but for the two words kept in `v` and `t`. -/
theorem chi_row_written {y : Nat} (member : y ∈ for5 5) (a : Vector Word 25) {place : Nat}
    (inside : place < 25) : (chiRow data a y)[place]! = if place / 5 * 5 = y then
      data.bitselect (data.xor a[place]! a[y + (place % 5 + 2) % 5]!) a[place]!
        a[y + (place % 5 + 1) % 5]! else a[place]! := by
  have whole : ∀ y ∈ for5 5, y + 4 < 25 ∧ y % 5 = 0 := by decide
  obtain ⟨room, aligned⟩ := whole y member
  split
  · rename_i here
    obtain ⟨x, bound, rfl⟩ : ∃ x < 5, place = y + x := ⟨place - y, by omega, by omega⟩
    have column : (y + x) % 5 = x := by omega
    rw [column]
    match x with
    | 0 | 1 | 2 | 3 | 4 => simp (disch := omega) [chiRow]
  · rename_i other
    simp (disch := omega) [chiRow]

theorem chi_state (a : Vector Word 25) : state data (chi data a) = Keccak.chi (state data a) := by
  have owned : Owned (for5 5) (fun place => place / 5 * 5) (chiRow data) (fun a place =>
      data.bitselect (data.xor a[place]! a[place / 5 * 5 + (place % 5 + 2) % 5]!) a[place]!
        a[place / 5 * 5 + (place % 5 + 1) % 5]!) := by
    refine ⟨fun a y member place inside => ?_, fun a other place inside same => ?_⟩
    · rw [chi_row_written member a inside]
      refine ite_congr rfl (fun here => ?_) fun _ => rfl
      rw [here]
    · simp only [same place inside rfl, same (place / 5 * 5 + (place % 5 + 2) % 5) (by omega)
        (by omega), same (place / 5 * 5 + (place % 5 + 1) % 5) (by omega) (by omega)]
  funext x y
  have inside : 5 * y.val + x.val < 25 := by omega
  have start : (5 * y.val + x.val) / 5 * 5 = 5 * y.val := by omega
  have column : (5 * y.val + x.val) % 5 = x.val := by omega
  have written := foldl_owned owned rows_distinct a inside
  rw [if_pos (rows_cover _ inside), start, column] at written
  rw [state, chi, written, bitselect_chi, (columns_beside x).2.1, (columns_beside x).2.2]
  rfl

theorem iota_state {i : Nat} (below : i < 24) (a : Vector Word 25) :
    state data (iota data i a) = Keccak.iota (Keccak.roundConstant i) (state data a) := by
  funext x y
  have inside : 5 * y.val + x.val < 25 := by omega
  rw [state, iota, get_set _ _ _ inside, table_constants i below, Keccak.iota]
  by_cases first : x = 0 ∧ y = 0
  · obtain ⟨rfl, rfl⟩ := first
    rw [if_pos (by decide), if_pos ⟨rfl, rfl⟩, data.xor_lane, data.data_lane]
    rfl
  · rw [if_neg first, if_neg fun same => first ⟨Fin.ext (by omega), Fin.ext (by omega)⟩]
    rfl

theorem round_bodies_state {count : Nat} (bound : count ≤ 24) (a : Vector Word 25) :
    state data ((List.range count).foldl (roundBody data) a) =
      Keccak.rounds count (state data a) := by
  induction count with
  | zero => rfl
  | succ count ih =>
      rw [List.range_succ, List.foldl_append, Keccak.rounds_succ, ← ih (by omega)]
      simp only [List.foldl_cons, List.foldl_nil, roundBody, iota_state (show count < 24 by omega),
        chi_state, rho_pi_state, theta_state]
      rfl

/-- What `rho` and `pi` move to the first row: the lanes on the diagonal. -/
def diagonal (data : DataType Word) (a : Vector Word 25) (x : Fin 5) : Word :=
  let word := data.xor a[6 * x.val]! (columns data a)[(x.val + 4) % 5]!
  if x.val = 0 then word else data.rol word (Keccak.offset x x)

theorem diagonal_lane (a : Vector Word 25) (x : Fin 5) :
    data.lane (diagonal data a x) = Keccak.pi (Keccak.rho (Keccak.theta (state data a))) x 0 := by
  have turned : ∀ x : Fin 5, x.val ≠ 0 → 0 < Keccak.offset x x ∧ Keccak.offset x x < 64 := by decide
  have place : 6 * x.val = 5 * x.val + x.val := Nat.succ_mul 5 x.val
  have source : ∀ x : Fin 5, x + 3 * 0 = x := by decide
  have mixed : data.lane (data.xor a[6 * x.val]! (columns data a)[(x.val + 4) % 5]!) =
      Keccak.theta (state data a) x x := by
    rw [data.xor_lane, columns_lane, place]
    rfl
  rw [diagonal, Keccak.pi, Keccak.rho, source, ← mixed]
  split
  · rename_i first
    obtain rfl : x = 0 := Fin.ext first
    exact (Keccak.rotl_whole _ 0).symm
  · rename_i turns
    exact data.rol_lane _ _ (turned x turns).1 (turned x turns).2

theorem last_round_words (a : Vector Word 25) :
    let d := diagonal data a
    let chosen (x : Fin 5) := data.bitselect (data.xor (d x) (d (x + 2))) (d x) (d (x + 1))
    (lastRound data a)[0]! = data.xor (chosen 0) (data.asDataType RC[23]!) ∧
      (lastRound data a)[1]! = chosen 1 ∧ (lastRound data a)[2]! = chosen 2 ∧
        (lastRound data a)[3]! = chosen 3 := by
  have places : pi[22]! = 6 ∧ pi[16]! = 12 ∧ pi[10]! = 24 ∧ pi[4]! = 18 := by decide
  have turns : rho[23]! = Keccak.offset 1 1 ∧ rho[17]! = Keccak.offset 2 2 ∧
      rho[5]! = Keccak.offset 3 3 ∧ rho[11]! = Keccak.offset 4 4 := by decide
  simp only [lastRound, iota, places, turns]
  refine ⟨?_, ?_, ?_, ?_⟩ <;> simp [diagonal]

theorem last_round_lane (a : Vector Word 25) (x : Fin 4) : data.lane (lastRound data a)[x.val]! =
    Keccak.round (Keccak.roundConstant 23) (state data a) (Fin.ofNat 5 x.val) 0 := by
  obtain ⟨first, second, third, fourth⟩ := @last_round_words _ _ data a
  have chosen (x : Fin 5) : data.lane (data.bitselect (data.xor (diagonal data a x)
      (diagonal data a (x + 2))) (diagonal data a x) (diagonal data a (x + 1))) =
        Keccak.chi (Keccak.pi (Keccak.rho (Keccak.theta (state data a)))) x 0 := by
    rw [bitselect_chi, diagonal_lane, diagonal_lane, diagonal_lane]
    rfl
  match x with
  | 0 =>
      rw [show (lastRound data a)[(0 : Fin 4).val]! = _ from first, data.xor_lane, data.data_lane,
        chosen, table_constants 23 (by decide)]
      rfl
  | 1 => exact (congrArg data.lane second).trans (chosen 1)
  | 2 => exact (congrArg data.lane third).trans (chosen 2)
  | 3 => exact (congrArg data.lane fourth).trans (chosen 3)

theorem keccakf_lane (a : Vector Word 25) (x : Fin 4) : data.lane (keccakf data a)[x.val]! =
    Keccak.permute (state data a) (Fin.ofNat 5 x.val) 0 := by
  rw [keccakf, last_round_lane, round_bodies_state (by decide), ← Keccak.rounds_succ]
  rfl

end Kernel

/-! The two kinds of words. -/

def ulong : DataType UInt64 where
  xor a b := a ^^^ b
  rol := KeccakKernels.rol
  bitselect a b c := (a &&& ~~~c) ||| (b &&& c)
  asDataType word := word
  lane word := word
  xor_lane _ _ := rfl
  rol_lane _ _ positive bound := rol_eq _ positive bound
  bitselect_lane _ _ _ := rfl
  data_lane _ := rfl

/-- `amd_bitalign` on one component. -/
def bitalign (src0 src1 : UInt32) (src2 : Nat) : UInt32 :=
  (joined src0 src1 >>> UInt64.ofNat (src2 % 32)).toUInt32

theorem bit_bitalign (src0 src1 : UInt32) (src2 : Nat) {z : Nat} (inside : z < 32) :
    bit32 (bitalign src0 src1 src2) z = if z + src2 % 32 < 32 then bit32 src1 (z + src2 % 32)
      else bit32 src0 (z + src2 % 32 - 32) := by
  have shift : (UInt64.ofNat (src2 % 32)).toNat % 64 = src2 % 32 := by
    rw [UInt64.toNat_ofNat']
    omega
  have within : z + src2 % 32 < 64 := by omega
  have shifted : Keccak.bit (joined src0 src1 >>> UInt64.ofNat (src2 % 32)) z =
      Keccak.bit (joined src0 src1) (z + src2 % 32) := by
    have amount : ((UInt64.ofNat (src2 % 32)).toBitVec % 64).toNat = src2 % 32 := shift
    rw [Keccak.bit, UInt64.toBitVec_shiftRight, BitVec.ushiftRight_eq', BitVec.getLsbD_ushiftRight,
      amount, Nat.add_comm]
    rfl
  rw [← bit_joined _ _ within, ← shifted]
  exact bit_low _ inside

/-- The low half first. -/
def uint2 : DataType (UInt32 × UInt32) where
  xor a b := (a.1 ^^^ b.1, a.2 ^^^ b.2)
  rol vv r :=
    if r ≤ 32 then (bitalign vv.1 vv.2 (32 - r), bitalign vv.2 vv.1 (32 - r))
    else (bitalign vv.2 vv.1 (64 - r), bitalign vv.1 vv.2 (64 - r))
  bitselect a b c := ((a.1 &&& ~~~c.1) ||| (b.1 &&& c.1), (a.2 &&& ~~~c.2) ||| (b.2 &&& c.2))
  asDataType word := (low word, high word)
  lane word := joined word.2 word.1
  xor_lane a b := by
    apply Keccak.bit_ext
    intro z inside
    simp only [Keccak.bit_xor, bit_joined _ _ inside, bit32_xor]
    split <;> rfl
  rol_lane vv r positive bound := by
    apply Keccak.bit_ext
    intro z inside
    rw [Keccak.bit_rotl _ _ inside, bit_joined _ _ inside,
      bit_joined _ _ (Nat.mod_lt _ (by decide))]
    by_cases short : r ≤ 32
    · rw [if_pos short]
      split
      · rename_i below
        rw [bit_bitalign _ _ _ below]
        split <;> split <;> first | omega | (congr 1; omega)
      · rw [bit_bitalign _ _ _ (by omega)]
        split <;> split <;> first | omega | (congr 1; omega)
    · rw [if_neg short]
      split
      · rename_i below
        rw [bit_bitalign _ _ _ below]
        split <;> split <;> first | omega | (congr 1; omega)
      · rw [bit_bitalign _ _ _ (by omega)]
        split <;> split <;> first | omega | (congr 1; omega)
  bitselect_lane a b c := by
    apply Keccak.bit_ext
    intro z inside
    simp only [Keccak.bit_or, Keccak.bit_and, Keccak.bit_not _ inside, bit_joined _ _ inside,
      bit32_or, bit32_and]
    split
    · rename_i below
      rw [bit32_not _ below]
    · rw [bit32_not _ (by omega)]
  data_lane word := by
    apply Keccak.bit_ext
    intro z inside
    rw [bit_joined _ _ inside]
    split
    · rename_i below
      exact bit_low word below
    · rw [bit_high word (by omega), Nat.sub_add_cancel (by omega)]

end KeryxMiner.OpenClKeccak
