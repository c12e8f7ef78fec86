/-!
The generator of `src/xoshiro256starstar.rs` and of the CUDA kernel's
`xoshiro256starstar.c`. The Rust array's elements are the C struct's `x`, `y`, `z`, `w`.
-/

namespace KeryxMiner.Xoshiro256StarStar

@[ext]
structure Generator where
  x : UInt64
  y : UInt64
  z : UInt64
  w : UInt64
  deriving DecidableEq

def Generator.xor (s other : Generator) : Generator :=
  ⟨s.x ^^^ other.x, s.y ^^^ other.y, s.z ^^^ other.z, s.w ^^^ other.w⟩

def Generator.zero : Generator := ⟨0, 0, 0, 0⟩

def rotl (x : UInt64) (k : Nat) : UInt64 :=
  (x <<< UInt64.ofNat k) ||| (x >>> UInt64.ofNat (64 - k))

/-- `next_u64`, and `xoshiro256_next` in C. -/
def nextU64 (s : Generator) : UInt64 × Generator :=
  let result := rotl (s.y * 5) 7 * 9
  let t := s.y <<< 17
  let z := s.z ^^^ s.x
  let w := s.w ^^^ s.y
  let y := s.y ^^^ z
  let x := s.x ^^^ w
  let z := z ^^^ t
  let w := rotl w 45
  (result, ⟨x, y, z, w⟩)

/-- The state after so many calls. -/
def calls : Nat → Generator → Generator
  | 0, s => s
  | count + 1, s => calls count (nextU64 s).2

/-- `LONG_JUMP`, the same in both. -/
def longJumpWords : List UInt64 :=
  [0x76e15d3efefdcbbf, 0xc5004e441c522fb3, 0x77710069854ee241, 0x39109bb02acbe635]

/-- The sum `s0`..`s3` and the state, a turn of the inner loop. -/
def jumpBit (jmp : UInt64) (loop : Generator × Generator) (b : Nat) : Generator × Generator :=
  let (sum, state) := loop
  let sum := if jmp &&& (1 <<< UInt64.ofNat b) ≠ 0 then sum.xor state else sum
  (sum, (nextU64 state).2)

def jumpWord (loop : Generator × Generator) (jmp : UInt64) : Generator × Generator :=
  (List.range 64).foldl (jumpBit jmp) loop

/-! Rust. -/

/-- The outer loop stores the sum in the state at the end of each turn. -/
def longJumpWord (loop : Generator × Generator) (jmp : UInt64) : Generator × Generator :=
  let (sum, _) := jumpWord loop jmp
  (sum, sum)

def longJump (self : Generator) : Generator :=
  (longJumpWords.foldl longJumpWord (Generator.zero, self)).2

/-- `Xoshiro256StarStarStateIter::next`: the iterator and its item. -/
def stateIterNext (current : Generator) : Generator × Option Generator :=
  let current := longJump current
  (current, some current)

/-- `iter_jump_state` up to a count of items. -/
def iterJumpState (current : Generator) : Nat → List Generator
  | 0 => []
  | count + 1 =>
      match stateIterNext current with
      | (current, some state) => state :: iterJumpState current count
      | (_, none) => []

/-! C. -/

/-- The sum is stored in the state after both loops. -/
def xoshiro256LongJump (s : Generator) : Generator :=
  (longJumpWords.foldl jumpWord (Generator.zero, s)).1

end KeryxMiner.Xoshiro256StarStar
