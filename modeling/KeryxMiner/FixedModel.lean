import KeryxMiner.ByteCodec

/-!
The fixed-point model of `inference/src/model_fixed.rs` and its input, the task of
`inference/src/task.rs`. Numbers of 64 bits are integers.
-/

namespace KeryxMiner.FixedModel

open ByteCodec

/-! Tasks. -/

def modelSeed : UInt64 := 0x4B657279784F5000

/-- `InferenceTask::from_nonce`. -/
def fromNonce (nonce : UInt64) : Bytes 32 where
  items := (toLeBytes nonce).items ++ (List.replicate 3 (toLeBytes modelSeed).items).flatten
  sized := by simp [(toLeBytes nonce).sized, (toLeBytes modelSeed).sized]

/-! Weights. -/

def normShift : Nat := 10

def heL1 : Int := 256
def heL2 : Int := 90
def heL3 : Int := 128

/-- The next state and the weight. -/
def lcgWeight (state : UInt64) (heScale : Int) : UInt64 × Int32 :=
  let next := state * 6364136223846793005 + 1442695040888963407
  let raw := (next >>> 32).toUInt32.toInt32.toInt
  (next, Int32.ofInt ((raw * heScale) >>> (31 : Nat)))

def lcgWeights (heScale : Int) : Nat → UInt64 → List Int32
  | 0, _ => []
  | count + 1, state =>
      (lcgWeight state heScale).2 :: lcgWeights heScale count (lcgWeight state heScale).1

@[simp]
theorem lcg_weights_length (heScale : Int) (count : Nat) (state : UInt64) :
    (lcgWeights heScale count state).length = count := by
  induction count generalizing state with
  | zero => rfl
  | succ count ih => rw [lcgWeights, List.length_cons, ih]

def makeWeights (rows cols : Nat) (layerId : UInt64) (he : Int) : Vector Int32 (rows * cols) :=
  ⟨(lcgWeights he (rows * cols) (modelSeed + layerId * 0xDEADBEEFCAFE1337)).toArray, by simp⟩

/-! Layers. -/

theorem weight_place {rows cols : Nat} (i : Fin rows) (j : Fin cols) :
    i.val * cols + j.val < rows * cols := by
  calc i.val * cols + j.val < i.val * cols + cols := Nat.add_lt_add_left j.isLt _
    _ = (i.val + 1) * cols := (Nat.succ_mul ..).symm
    _ ≤ rows * cols := Nat.mul_le_mul_right cols i.isLt

section Layers
variable {rows cols : Nat} (x : Vector Int cols) (w : Vector Int32 (rows * cols))

/-- The terms of an accumulator. -/
def products (i : Fin rows) : List Int :=
  List.ofFn fun j : Fin cols => x[j] * (w.get ⟨i.val * cols + j.val, weight_place i j⟩).toInt

def acc (i : Fin rows) : Int := (products x w i).sum

/-- A hidden layer. -/
def hidden : Vector Int rows := Vector.ofFn fun i => max (acc x w i >>> normShift) 0

def output : Vector Int rows := Vector.ofFn fun i => acc x w i

end Layers

/-- The bytes of a 64-bit number, folded by exclusive or. -/
def fold (v : Int) : UInt8 := (encode 8 (v % 2 ^ 64).toNat).foldl (· ^^^ ·) 0

def centred (input : Bytes 32) : Vector Int 32 :=
  Vector.ofFn fun i => ((input.get i).toNat : Int) - 128

def h1 (input : Bytes 32) : Vector Int 256 := hidden (centred input) (makeWeights 256 32 0 heL1)

def h2 (input : Bytes 32) : Vector Int 128 := hidden (h1 input) (makeWeights 128 256 1 heL2)

def h3 (input : Bytes 32) : Vector Int 32 := output (h2 input) (makeWeights 32 128 2 heL3)

def forward (input : Bytes 32) : Bytes 32 where
  items := (h3 input).toList.map fold
  sized := by simp

end KeryxMiner.FixedModel
