import Mathlib.Data.UInt

/-!
The permutation Keccak-f[1600] of FIPS 202, lane by lane.
-/

namespace KeryxMiner.Keccak

/-! Lanes. -/

def bit (word : UInt64) (z : Nat) : Bool := word.toBitVec.getLsbD z

theorem bit_ext {a b : UInt64} (same : ∀ z < 64, bit a z = bit b z) : a = b :=
  UInt64.toBitVec_inj.mp (BitVec.eq_of_getLsbD_eq same)

theorem bit_xor (a b : UInt64) (z : Nat) : bit (a ^^^ b) z = (bit a z ^^ bit b z) := by
  simp [bit]

theorem bit_and (a b : UInt64) (z : Nat) : bit (a &&& b) z = (bit a z && bit b z) := by
  simp [bit]

theorem bit_or (a b : UInt64) (z : Nat) : bit (a ||| b) z = (bit a z || bit b z) := by
  simp [bit]

theorem bit_not (a : UInt64) {z : Nat} (inside : z < 64) : bit (~~~a) z = !bit a z := by
  simp [bit, inside]

def rotl (word : UInt64) (count : Nat) : UInt64 := ⟨word.toBitVec.rotateLeft count⟩

theorem bit_rotl (word : UInt64) (count : Nat) {z : Nat} (inside : z < 64) :
    bit (rotl word count) z = bit word ((z + 64 - count % 64) % 64) := by
  have bound : count % 64 < 64 := Nat.mod_lt count (by decide)
  rcases Nat.lt_or_ge z (count % 64) with wraps | stays
  · have place : (z + 64 - count % 64) % 64 = 64 - count % 64 + z := by omega
    simp [bit, rotl, BitVec.getLsbD_rotateLeft, wraps, place]
  · have place : (z + 64 - count % 64) % 64 = z - count % 64 := by omega
    rw [bit, bit, rotl, BitVec.getLsbD_rotateLeft, place]
    simp [Nat.not_lt.mpr stays, inside]

theorem rotl_not (word : UInt64) (count : Nat) : rotl (~~~word) count = ~~~rotl word count := by
  apply bit_ext
  intro z inside
  rw [bit_rotl _ _ inside, bit_not _ (Nat.mod_lt _ (by decide)), bit_not _ inside,
    bit_rotl _ _ inside]

theorem rotl_whole (word : UInt64) (turns : Nat) : rotl word (64 * turns) = word := by
  apply bit_ext
  intro z inside
  rw [bit_rotl _ _ inside]
  congr 1
  omega

/-! The step mappings. -/

/-- A lane for each column of each row. -/
abbrev State := Fin 5 → Fin 5 → UInt64

/-- Columns and rows are counted around. -/
def around (k : Nat) : Fin 5 := Fin.ofNat 5 k

def parity (state : State) (x : Fin 5) : UInt64 :=
  state x 0 ^^^ state x 1 ^^^ state x 2 ^^^ state x 3 ^^^ state x 4

/-- What `theta` adds to a column. -/
def addition (state : State) (x : Fin 5) : UInt64 :=
  parity state (x - 1) ^^^ rotl (parity state (x + 1)) 1

def theta (state : State) : State := fun x y =>
  state x y ^^^ (parity state (x - 1) ^^^ rotl (parity state (x + 1)) 1)

/-- The lane that the `t`th offset is of. -/
def walk : Nat → Fin 5 × Fin 5
  | 0 => (1, 0)
  | t + 1 => ((walk t).2, 2 * (walk t).1 + 3 * (walk t).2)

def offset (x y : Fin 5) : Nat :=
  match (List.range 24).find? (fun t => walk t = (x, y)) with
  | some t => (t + 1) * (t + 2) / 2 % 64
  | none => 0

def rho (state : State) : State := fun x y => rotl (state x y) (offset x y)

def pi (state : State) : State := fun x y => state (x + 3 * y) x

def chi (state : State) : State := fun x y =>
  state x y ^^^ (~~~state (x + 1) y &&& state (x + 2) y)

/-- The register of the round constants, its last bit first. -/
def register : Nat → BitVec 8
  | 0 => 1
  | t + 1 => (register t <<< 1) ^^^ (if (register t).msb then 0x71 else 0)

def roundConstant (round : Nat) : UInt64 :=
  (List.range 7).foldl (fun constant j =>
    if (register (j + 7 * round)).getLsbD 0 then constant ||| (1 <<< UInt64.ofNat (2 ^ j - 1))
    else constant) 0

def iota (constant : UInt64) (state : State) : State := fun x y =>
  if x = 0 ∧ y = 0 then state x y ^^^ constant else state x y

def round (constant : UInt64) (state : State) : State :=
  iota constant (chi (pi (rho (theta state))))

def rounds (count : Nat) (state : State) : State :=
  (List.range count).foldl (fun state i => round (roundConstant i) state) state

def permute (state : State) : State := rounds 24 state

theorem rounds_succ (count : Nat) (state : State) :
    rounds (count + 1) state = round (roundConstant count) (rounds count state) := by
  rw [rounds, List.range_succ, List.foldl_append]
  rfl

end KeryxMiner.Keccak
