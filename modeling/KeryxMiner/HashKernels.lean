import KeryxMiner.HeavyHash

/-!
The `heavy_hash` kernels of `kaspa-cuda.cu` and `keryx-opencl.cl` for one nonce, and the
uploads of their constants. Memory is a map from byte addresses, read by little-endian
words; an index of a kernel's array is an address. The OpenCL permutation computes only
the lanes that are squeezed, so both kernels take the host's.
-/

namespace KeryxMiner.HashKernels

open ByteCodec HeavyHash PomKernel PomPrimitives

def bytesMemory (bytes : List UInt8) : DeviceMemory := fun address => bytes.getD address 0

def loadUint (memory : DeviceMemory) (address : Nat) : UInt32 :=
  UInt32.ofNat (decode ((List.range 4).map fun b => memory (address + b)))

/-! Dot products of packed bytes and nibbles. -/

def byteLane (word : UInt32) (k : Nat) : UInt32 := (word >>> UInt32.ofNat (8 * k)) &&& 0xFF

def nibbleLane (word : UInt32) (k : Nat) : UInt32 := (word >>> UInt32.ofNat (4 * k)) &&& 0xF

/-- `dp4a.u32.u32` and `v_dot4_u32_u8`. -/
def dp4a (a b c : UInt32) : UInt32 :=
  (List.range 4).foldl (fun res k => res + byteLane a k * byteLane b k) c

/-- `v_dot8_u32_u4`. -/
def vDot8 (a b c : UInt32) : UInt32 :=
  (List.range 8).foldl (fun res k => res + nibbleLane a k * nibbleLane b k) c

/-! The wave mix of both kernels. -/

def waveMixHashRound (w : Words4) (r : Nat) : Words4 :=
  let w0 := w.w0 + w.w1
  let w0 := (w0 <<< 17) ||| (w0 >>> 47)
  let w0 := w0 ^^^ waveMixKey r
  let w2 := w.w2 + w.w3
  let w2 := (w2 <<< 47) ||| (w2 >>> 17)
  let w2 := w2 ^^^ waveMixKey (r + 2)
  let w1 := w.w1 + w2
  let w1 := (w1 <<< 31) ||| (w1 >>> 33)
  let w1 := w1 ^^^ waveMixKey (r + 1)
  let w3 := w.w3 + w0
  let w3 := (w3 <<< 13) ||| (w3 >>> 51)
  let w3 := w3 ^^^ waveMixKey (r + 3)
  ⟨w0, w1, w2, w3⟩

def waveMixHash (bytes : Bytes 32) : Words4 :=
  (List.range 4).foldl waveMixHashRound (words4 bytes)

/-- `LT_U256`. -/
def ltU256 (x y : Words4) : Bool :=
  if x.w3 ≠ y.w3 then decide (x.w3 < y.w3)
  else if x.w2 ≠ y.w2 then decide (x.w2 < y.w2)
  else if x.w1 ≠ y.w1 then decide (x.w1 < y.w1)
  else decide (x.w0 < y.w0)

structure Constants where
  hashHeader : DeviceMemory
  matrix : DeviceMemory
  target : Words4

def limbs (target : Words) : Words4 :=
  ⟨target.items.getD 0 0, target.items.getD 1 0, target.items.getD 2 0, target.items.getD 3 0⟩

def byteRow (row : Row) : Bytes 64 := ⟨row.items.map UInt16.toUInt8, by simp [row.sized]⟩

def packedRow (row : Row) : Bytes 32 where
  items := (List.range 32).map fun i =>
    ((row.items.getD (2 * i) 0 <<< 4) ||| row.items.getD (2 * i + 1) 0).toUInt8
  sized := by simp

/-! CUDA. -/

namespace Cuda

def powP : List UInt8 :=
  [0x3d, 0xd8, 0xf6, 0xa1, 0x0d, 0xff, 0x3c, 0x11, 0x3c, 0x7e, 0x02, 0xb7, 0x55, 0x88, 0xbf, 0x29,
    0xd2, 0x44, 0xfb, 0x0e, 0x72, 0x2e, 0x5f, 0x1e, 0xa0, 0x69, 0x98, 0xf5, 0xa3, 0xa4, 0xa5, 0x1b,
    0x65, 0x2d, 0x5e, 0x87, 0xca, 0xaf, 0x2f, 0x7b, 0x46, 0xe2, 0xdc, 0x29, 0xd6, 0x61, 0xef, 0x4a,
    0x10, 0x5b, 0x41, 0xad, 0x1e, 0x98, 0x3a, 0x18, 0x9c, 0xc2, 0x9b, 0x78, 0x0c, 0xf6, 0x6b, 0x77,
    0x40, 0x31, 0x66, 0x88, 0x33, 0xf1, 0xeb, 0xf8, 0xf0, 0x5f, 0x28, 0x43, 0x3c, 0x1c, 0x65, 0x2e,
    0x0a, 0x4a, 0xf1, 0x40, 0x05, 0x07, 0x96, 0x0f, 0x52, 0x91, 0x29, 0x5b, 0x87, 0x67, 0xe3, 0x44,
    0x15, 0x37, 0xb1, 0x25, 0xa4, 0xf1, 0x70, 0xec, 0x89, 0xda, 0xe9, 0x82, 0x8f, 0x5d, 0xc8, 0xe6,
    0x23, 0xb2, 0xb4, 0x85, 0x1f, 0x60, 0x1a, 0xb2, 0x46, 0x6a, 0xa3, 0x64, 0x90, 0x54, 0x85, 0x34,
    0x1a, 0x85, 0x2f, 0x7a, 0x1c, 0xdd, 0x06, 0x0f, 0x42, 0xb1, 0x3b, 0x56, 0x1d, 0x02, 0xa2, 0xc1,
    0xe4, 0x68, 0x16, 0x45, 0xe4, 0xe5, 0x1d, 0xba, 0x8d, 0x5f, 0x09, 0x05, 0x41, 0x57, 0x02, 0xd1,
    0x4a, 0xcf, 0xce, 0x9b, 0x84, 0x4e, 0xca, 0x89, 0xdb, 0x2e, 0x74, 0xa8, 0x27, 0x94, 0xb0, 0x48,
    0x72, 0x52, 0x8b, 0xe7, 0x9c, 0xce, 0xfc, 0xb1, 0xbc, 0xa5, 0xaf, 0x82, 0xcf, 0x29, 0x11, 0x5d,
    0x83, 0x43, 0x82, 0x6f, 0x78, 0x7c, 0xb9, 0x02]

def heavyP : List UInt8 :=
  [0x09, 0x85, 0x24, 0xb2, 0x52, 0x4c, 0xd7, 0x3a, 0x16, 0x42, 0x9f, 0x2f, 0x0e, 0x9b, 0x62, 0x79,
    0xee, 0xf8, 0xc7, 0x16, 0x48, 0xff, 0x14, 0x7a, 0x98, 0x64, 0x05, 0x80, 0x4c, 0x5f, 0xa7, 0x11,
    0xda, 0xce, 0xee, 0x44, 0xdf, 0xe0, 0x20, 0xe7, 0x69, 0x40, 0xf3, 0x14, 0x2e, 0xd8, 0xc7, 0x72,
    0xba, 0x35, 0x89, 0x93, 0x2a, 0xff, 0x00, 0xc1, 0x62, 0xc4, 0x0f, 0x25, 0x40, 0x90, 0x21, 0x5e,
    0x48, 0x6a, 0xcf, 0x0d, 0xa6, 0xf9, 0x39, 0x80, 0x0c, 0x3d, 0x2a, 0x79, 0x9f, 0xaa, 0xbc, 0xa0,
    0x26, 0xa2, 0xa9, 0xd0, 0x5d, 0xc0, 0x31, 0xf4, 0x3f, 0x8c, 0xc1, 0x54, 0xc3, 0x4c, 0x1f, 0xd3,
    0x3d, 0xcc, 0x69, 0xa7, 0x01, 0x7d, 0x6b, 0x6c, 0xe4, 0x93, 0x24, 0x56, 0xd3, 0x5b, 0xc6, 0x2e,
    0x44, 0xb0, 0xcd, 0x99, 0x3a, 0x4b, 0xf7, 0x4e, 0xb0, 0xf2, 0x34, 0x54, 0x83, 0x86, 0x4c, 0x77,
    0x16, 0x94, 0xbc, 0x36, 0xb0, 0x61, 0xe9, 0x07, 0x07, 0xcc, 0x65, 0x77, 0xb1, 0x1d, 0x8f, 0x7e,
    0x39, 0x6d, 0xc4, 0xba, 0x80, 0xdb, 0x8f, 0xea, 0x58, 0xca, 0x34, 0x7b, 0xd3, 0xf2, 0x92, 0xb9,
    0x57, 0xb9, 0x81, 0x84, 0x04, 0xc5, 0x76, 0xc7, 0x2e, 0xc2, 0x12, 0x51, 0x67, 0x9f, 0xc3, 0x47,
    0x0a, 0x0c, 0x29, 0xb5, 0x9d, 0x39, 0xbb, 0x92, 0x15, 0xc6, 0x9f, 0x2f, 0x31, 0xe0, 0x9a, 0x54,
    0x35, 0xda, 0xb9, 0x10, 0x7d, 0x32, 0x19, 0x16]

/-- `load_block_constants` of the CUDA worker. -/
def loadBlockConstants (hashHeader : Bytes 72) (matrix : Matrix) (target : Words) : Constants where
  hashHeader := bytesMemory hashHeader.items
  matrix := bytesMemory (concat (matrix.rows.items.map byteRow))
  target := limbs target

section Kernel
variable (cudaArch : Nat)

/-- A product of two `char`s. -/
def charProduct (a b : UInt8) : UInt32 := (a.toInt8.toInt32 * b.toInt8.toInt32).toUInt32

def amul4bitStep (packedVec1 packedVec2 : DeviceMemory) (res : UInt32) (i : Nat) : UInt32 :=
  if 610 ≤ cudaArch then dp4a (loadUint packedVec1 (4 * i)) (loadUint packedVec2 (4 * i)) res
  else
    let res := res + charProduct (packedVec1 (4 * i)) (packedVec2 (4 * i))
    let res := res + charProduct (packedVec1 (4 * i + 1)) (packedVec2 (4 * i + 1))
    let res := res + charProduct (packedVec1 (4 * i + 2)) (packedVec2 (4 * i + 2))
    res + charProduct (packedVec1 (4 * i + 3)) (packedVec2 (4 * i + 3))

/-- `amul4bit` up to its `count`-th step; the kernel makes 16. -/
def amul4bit (packedVec1 packedVec2 : DeviceMemory) (count : Nat) : UInt32 :=
  (List.range count).foldl (amul4bitStep cudaArch packedVec1 packedVec2) 0

def packedHash (hash : Bytes 32) : DeviceMemory := fun address =>
  let i := address / 4
  match address % 4 with
  | 0 => (hash.items.getD (2 * i) 0 &&& 0xF0) >>> 4
  | 1 => hash.items.getD (2 * i) 0 &&& 0x0F
  | 2 => (hash.items.getD (2 * i + 1) 0 &&& 0xF0) >>> 4
  | _ => hash.items.getD (2 * i + 1) 0 &&& 0x0F

def selected (word : UInt32) (bit : Bool) : UInt32 := if bit then word else ~~~ word

/-- `lop3.b32` with its table of eight bits. -/
def lop3 (table : Nat) (a b c : UInt32) : UInt32 :=
  (List.range 8).foldl (fun out k =>
    if table.testBit k then
      out ||| (selected a (k.testBit 2) &&& selected b (k.testBit 1) &&& selected c (k.testBit 0))
    else out) 0

def mixByte (product1 product2 : UInt32) (byte : UInt8) : UInt8 :=
  let product1 := (product1 >>> 6) &&& 0xF0
  let product2 := product2 >>> 10
  if cudaArch < 500 ∨ 700 < cudaArch then byte ^^^ (product1.toUInt8 ||| product2.toUInt8)
  else (lop3 0x56 product1 product2 byte.toUInt32).toUInt8

/-- The row that starts at `address`. -/
def rowAt (memory : DeviceMemory) (address : Nat) : DeviceMemory := fun j => memory (address + j)

/-- Byte `rowId` of the hash in place: no row reads another's. -/
def productByte (constants : Constants) (hash : Bytes 32) (rowId : Nat) : UInt8 :=
  let product1 := amul4bit cudaArch (rowAt constants.matrix (64 * (2 * rowId))) (packedHash hash) 16
  let product2 :=
    amul4bit cudaArch (rowAt constants.matrix (64 * (2 * rowId + 1))) (packedHash hash) 16
  mixByte cudaArch product1 product2 (hash.items.getD rowId 0)

def product (constants : Constants) (hash : Bytes 32) : Bytes 32 :=
  ⟨(List.range 32).map (productByte cudaArch constants hash), by simp⟩

def powLanes (constants : Constants) (nonce : UInt64) : Lanes :=
  let hp := constants.hashHeader
  let p := bytesMemory powP
  Vector.ofFn fun i =>
    if i.val < 9 then loadWord p (8 * i) ^^^ loadWord hp (8 * i)
    else if i.val = 9 then loadWord p (8 * 9) ^^^ nonce
    else loadWord p (8 * i)

def heavyLanes (hash : Hash) : Lanes :=
  let hh := hash.items
  let p := bytesMemory heavyP
  Vector.ofFn fun i =>
    if i.val < 4 then hh.getD i 0 ^^^ loadWord p (8 * i) else loadWord p (8 * i)

def heavyHash (f1600 : Lanes → Lanes) (constants : Constants) (nonce : UInt64) : Words4 :=
  let hash := wordsToBytes (squeeze (f1600 (powLanes constants nonce)))
  let hash := Words4.array (waveMixHash (product cudaArch constants hash))
  limbs (squeeze (f1600 (heavyLanes hash)))

end Kernel

end Cuda

/-! OpenCL. -/

namespace OpenCl

def powP : List UInt64 :=
  [0x113cff0da1f6d83d, 0x29bf8855b7027e3c, 0x1e5f2e720efb44d2, 0x1ba5a4a3f59869a0,
    0x7b2fafca875e2d65, 0x4aef61d629dce246, 0x183a981ead415b10, 0x776bf60c789bc29c,
    0xf8ebf13388663140, 0x2e651c3c43285ff0, 0x0f96070540f14a0a, 0x44e367875b299152,
    0xec70f1a425b13715, 0xe6c85d8f82e9da89, 0xb21a601f85b4b223, 0x3485549064a36a46,
    0x0f06dd1c7a2f851a, 0xc1a2021d563bb142, 0xba1de5e4451668e4, 0xd102574105095f8d,
    0x89ca4e849bcecf4a, 0x48b09427a8742edb, 0xb1fcce9ce78b5272, 0x5d1129cf82afa5bc,
    0x02b97c786f824383]

def heavyP : List UInt64 :=
  [0x3ad74c52b2248509, 0x79629b0e2f9f4216, 0x7a14ff4816c7f8ee, 0x11a75f4c80056498,
    0xe720e0df44eeceda, 0x72c7d82e14f34069, 0xc100ff2a938935ba, 0x5e219040250fc462,
    0x8039f9a60dcf6a48, 0xa0bcaa9f792a3d0c, 0xf431c05dd0a9a226, 0xd31f4cc354c18c3f,
    0x6c6b7d01a769cc3d, 0x2ec65bd3562493e4, 0x4ef74b3a99cdb044, 0x774c86835434f2b0,
    0x07e961b036bc9416, 0x7e8f1db17765cc07, 0xea8fdb80bac46d39, 0xb992f2d37b34ca58,
    0xc776c5048481b957, 0x47c39f675112c22e, 0x92bb399db5290c0a, 0x549ae0312f9fc615,
    0x1619327d10b9da35]

/-- The bodies of `_amul4bit`: the asm of NVIDIA and of AMD, `ushort4`, and with the
8-element products forced the asm of AMD and plain C. -/
inductive Amul where
  | dp4a
  | vDot4
  | ushort4
  | vDot8
  | nibbles
  deriving DecidableEq

/-- `__FORCE_AMD_V_DOT8_U32_U4__ == 1`, which is `experimental_amd` of the worker. -/
def Amul.packed : Amul → Bool
  | .vDot8 => true
  | .nibbles => true
  | _ => false

/-- `load_block_constants` of the OpenCL worker. -/
def loadBlockConstants (experimentalAmd : Bool) (hashHeader : Bytes 72) (matrix : Matrix)
    (target : Words) : Constants where
  hashHeader := bytesMemory hashHeader.items
  matrix :=
    if experimentalAmd then bytesMemory (concat (matrix.rows.items.map packedRow))
    else bytesMemory (concat (matrix.rows.items.map byteRow))
  target := limbs target

/-- A lane of the `ushort4` accumulator. -/
def ushortLane (packedVec1 packedVec2 : DeviceMemory) (k count : Nat) : UInt16 :=
  (List.range count).foldl (fun res i =>
    res + (packedVec1 (4 * i + k)).toUInt16 * (packedVec2 (4 * i + k)).toUInt16) 0

/-- `res.s01 + res.s23`, and then the sum of the two lanes in an `int`. -/
def ushortSum (packedVec1 packedVec2 : DeviceMemory) : UInt32 :=
  let lane := fun k => ushortLane packedVec1 packedVec2 k 16
  (lane 0 + lane 2).toUInt32 + (lane 1 + lane 3).toUInt32

def nibbleAt (byte : UInt8) (shift : UInt32) : UInt32 := (byte.toUInt32 >>> shift) &&& 0xf

def nibbleProducts (a b : UInt8) (res : UInt32) : UInt32 :=
  let res := res + nibbleAt a 0 * nibbleAt b 0
  res + nibbleAt a 4 * nibbleAt b 4

def nibbleStep (packedVec1 packedVec2 : DeviceMemory) (res : UInt32) (i : Nat) : UInt32 :=
  let res := nibbleProducts (packedVec1 (4 * i)) (packedVec2 (4 * i)) res
  let res := nibbleProducts (packedVec1 (4 * i + 1)) (packedVec2 (4 * i + 1)) res
  let res := nibbleProducts (packedVec1 (4 * i + 2)) (packedVec2 (4 * i + 2)) res
  nibbleProducts (packedVec1 (4 * i + 3)) (packedVec2 (4 * i + 3)) res

def dotStep (instruction : UInt32 → UInt32 → UInt32 → UInt32)
    (packedVec1 packedVec2 : DeviceMemory) (res : UInt32) (i : Nat) : UInt32 :=
  instruction (loadUint packedVec1 (4 * i)) (loadUint packedVec2 (4 * i)) res

def dotSum (instruction : UInt32 → UInt32 → UInt32 → UInt32)
    (packedVec1 packedVec2 : DeviceMemory) (count : Nat) : UInt32 :=
  (List.range count).foldl (dotStep instruction packedVec1 packedVec2) 0

def nibbleSum (packedVec1 packedVec2 : DeviceMemory) (count : Nat) : UInt32 :=
  (List.range count).foldl (nibbleStep packedVec1 packedVec2) 0

def amul4bit (path : Amul) (packedVec1 packedVec2 : DeviceMemory) : UInt32 :=
  match path with
  | .dp4a => dotSum HashKernels.dp4a packedVec1 packedVec2 16
  | .vDot4 => dotSum HashKernels.dp4a packedVec1 packedVec2 16
  | .ushort4 => ushortSum packedVec1 packedVec2
  | .vDot8 => dotSum HashKernels.vDot8 packedVec1 packedVec2 8
  | .nibbles => nibbleSum packedVec1 packedVec2 8

/-- The lanes of `hash`; `input` holds ten words. -/
def hashLanes (initP input : List UInt64) : Lanes :=
  Vector.ofFn fun i =>
    if i.val < 10 then initP.getD i 0 ^^^ input.getD i 0 else initP.getD i 0

def hash (f1600 : Lanes → Lanes) (initP input : List UInt64) : Hash :=
  squeeze (f1600 (hashLanes initP input))

def hashPart (hash : Bytes 32) : DeviceMemory := fun address =>
  let byte := hash.items.getD (address / 2) 0
  if address % 2 = 0 then (byte &&& 0xF0) >>> 4 else byte &&& 0x0F

def mixByte (product1 product2 : UInt32) (byte : UInt8) : UInt8 :=
  let product1 := product1 >>> 10
  let product2 := product2 >>> 10
  byte ^^^ ((product1 <<< 4) ||| product2.toUInt8.toUInt32).toUInt8

def productByte (path : Amul) (constants : Constants) (hash : Bytes 32) (rowId : Nat) : UInt8 :=
  let row := Cuda.rowAt constants.matrix
  let byte := hash.items.getD rowId 0
  if path.packed then
    let vec := bytesMemory hash.items
    mixByte (amul4bit path (row (64 * rowId)) vec) (amul4bit path (row (64 * rowId + 32)) vec) byte
  else
    let vec := hashPart hash
    mixByte (amul4bit path (row (128 * rowId)) vec) (amul4bit path (row (128 * rowId + 64)) vec)
      byte

def product (path : Amul) (constants : Constants) (hash : Bytes 32) : Bytes 32 :=
  ⟨(List.range 32).map (productByte path constants hash), by simp⟩

def heavyHash (f1600 : Lanes → Lanes) (path : Amul) (constants : Constants) (nonce : UInt64) :
    Words4 :=
  let header := (List.range 9).map fun i => loadWord constants.hashHeader (8 * i)
  let hash1 := wordsToBytes (hash f1600 powP (header ++ [nonce]))
  let hash2 := Words4.array (waveMixHash (product path constants hash1))
  limbs (hash f1600 heavyP (hash2.items ++ List.replicate 6 0))

end OpenCl

end KeryxMiner.HashKernels
