import KeryxMiner.HashKernels
import KeryxMiner.PackedDots

/-!
The accumulators of `heavy_hash`. Each holds the exact dot product of the nibbles,
however a kernel packs them.
-/

namespace KeryxMiner.KernelSums

open ByteCodec HashKernels HeavyHash PackedDots PomKernel PomPrimitives

/-! Accumulators over memory. -/

def amounts (memory : DeviceMemory) (address : Nat) : Nat := (memory address).toNat

theorem uint32_add_mul (res a b : UInt32) :
    (res + a * b).toNat = (res.toNat + a.toNat * b.toNat) % 2 ^ 32 := by
  rw [UInt32.toNat_add, UInt32.toNat_mul, Nat.add_mod_mod]

theorem lane_decode (bytes : List UInt8) (k : Nat) :
    lane 256 (decode bytes) k = (bytes.getD k 0).toNat := by
  induction bytes generalizing k with
  | nil => simp [decode, lane]
  | cons byte rest ih =>
      cases k with
      | zero => exact lane_zero 256 _ _ byte.toNat_lt
      | succ k => exact (lane_cons 256 _ _ _ byte.toNat_lt).trans (ih k)

theorem load_uint_toNat (memory : DeviceMemory) (address : Nat) :
    (loadUint memory address).toNat =
      decode ((List.range 4).map fun b => memory (address + b)) := by
  have bound := decode_lt ((List.range 4).map fun b => memory (address + b))
  rw [loadUint, UInt32.toNat_ofNat']
  exact Nat.mod_eq_of_lt (by simpa using bound)

theorem loaded_lane (memory : DeviceMemory) (address : Nat) {k : Nat} (inside : k < 4) :
    lane 256 (loadUint memory address).toNat k = amounts memory (address + k) := by
  rw [load_uint_toNat, lane_decode, amounts]
  simp [List.getD_eq_getElem?_getD, List.getElem?_range inside]

theorem masked_lane (word : UInt32) {bits k : Nat} (inside : bits * k < 32) (narrow : bits < 32) :
    ((word >>> UInt32.ofNat (bits * k)) &&& UInt32.ofNat (2 ^ bits - 1)).toNat =
      lane (2 ^ bits) word.toNat k := by
  have shift : (UInt32.ofNat (bits * k)).toNat % 32 = bits * k := by
    rw [UInt32.toNat_ofNat', Nat.mod_eq_of_lt (Nat.lt_trans inside (by decide)),
      Nat.mod_eq_of_lt inside]
  have below : 2 ^ bits < 2 ^ 32 := Nat.pow_lt_pow_right (by decide) narrow
  have mask : (UInt32.ofNat (2 ^ bits - 1)).toNat = 2 ^ bits - 1 := by
    rw [UInt32.toNat_ofNat', Nat.mod_eq_of_lt (by omega)]
  rw [UInt32.toNat_and, UInt32.toNat_shiftRight, shift, mask, Nat.and_two_pow_sub_one_eq_mod,
    Nat.shiftRight_eq_div_pow, Nat.pow_mul, lane]

theorem byte_lane_toNat (word : UInt32) {k : Nat} (inside : k < 4) :
    (byteLane word k).toNat = lane 256 word.toNat k :=
  masked_lane word (show 8 * k < 32 by omega) (by decide)

theorem nibble_lane_toNat (word : UInt32) {k : Nat} (inside : k < 8) :
    (nibbleLane word k).toNat = lane 16 word.toNat k :=
  masked_lane word (show 4 * k < 32 by omega) (by decide)

/-- A step over four packed bytes adds their four products. -/
def byteAmount (row vec : DeviceMemory) (i : Nat) : Nat :=
  ∑ k ∈ Finset.range 4, amounts row (4 * i + k) * amounts vec (4 * i + k)

theorem dp4a_adds (row vec : DeviceMemory) (res : UInt32) (i : Nat) :
    (dp4a (loadUint row (4 * i)) (loadUint vec (4 * i)) res).toNat =
      (res.toNat + byteAmount row vec i) % 2 ^ 32 := by
  have folded := fold_mod UInt32.toNat (2 ^ 32)
    (fun res k => res + byteLane (loadUint row (4 * i)) k * byteLane (loadUint vec (4 * i)) k)
    _ (fun word => word.toNat_lt) (fun res k => uint32_add_mul res _ _) res 4
  rw [dp4a, folded, byteAmount]
  congr 2
  apply Finset.sum_congr rfl
  intro k member
  have inside := Finset.mem_range.mp member
  rw [byte_lane_toNat _ inside, byte_lane_toNat _ inside, loaded_lane row _ inside,
    loaded_lane vec _ inside]

/-- A step over four bytes of two nibbles adds their eight products. -/
def nibbleAmount (row vec : DeviceMemory) (i : Nat) : Nat :=
  ∑ k ∈ Finset.range 4, (amounts row (4 * i + k) % 16 * (amounts vec (4 * i + k) % 16) +
    amounts row (4 * i + k) / 16 * (amounts vec (4 * i + k) / 16))

theorem v_dot8_adds (row vec : DeviceMemory) (res : UInt32) (i : Nat) :
    (vDot8 (loadUint row (4 * i)) (loadUint vec (4 * i)) res).toNat =
      (res.toNat + nibbleAmount row vec i) % 2 ^ 32 := by
  have folded := fold_mod UInt32.toNat (2 ^ 32)
    (fun res k =>
      res + nibbleLane (loadUint row (4 * i)) k * nibbleLane (loadUint vec (4 * i)) k)
    _ (fun word => word.toNat_lt) (fun res k => uint32_add_mul res _ _) res 8
  rw [vDot8, folded, nibbleAmount, ← sum_pairs 4]
  congr 2
  apply Finset.sum_congr rfl
  intro k member
  have inside := Finset.mem_range.mp member
  -- two lanes of four bits are the halves of one of eight
  rw [nibble_lane_toNat _ (by omega), nibble_lane_toNat _ (by omega),
    nibble_lane_toNat _ (by omega), nibble_lane_toNat _ (by omega)]
  simp only [lane_square_low, lane_square_high]
  rw [← loaded_lane row _ inside, ← loaded_lane vec _ inside]

theorem nibble_at_low (byte : UInt8) : (OpenCl.nibbleAt byte 0).toNat = byte.toNat % 16 := by
  rw [OpenCl.nibbleAt, UInt32.toNat_and, UInt32.toNat_shiftRight, UInt8.toNat_toUInt32]
  exact Nat.and_two_pow_sub_one_eq_mod _ 4

theorem nibble_at_high (byte : UInt8) : (OpenCl.nibbleAt byte 4).toNat = byte.toNat / 16 := by
  have bound := byte.toNat_lt
  rw [OpenCl.nibbleAt, UInt32.toNat_and, UInt32.toNat_shiftRight, UInt8.toNat_toUInt32]
  refine (Nat.and_two_pow_sub_one_eq_mod _ 4).trans ?_
  rw [Nat.shiftRight_eq_div_pow]
  change byte.toNat / 16 % 16 = _
  omega

theorem nibble_products_add (a b : UInt8) (res : UInt32) :
    (OpenCl.nibbleProducts a b res).toNat = (res.toNat +
      (a.toNat % 16 * (b.toNat % 16) + a.toNat / 16 * (b.toNat / 16))) % 2 ^ 32 := by
  rw [OpenCl.nibbleProducts, uint32_add_mul, uint32_add_mul, nibble_at_low, nibble_at_low,
    nibble_at_high, nibble_at_high, Nat.mod_add_mod, Nat.add_assoc]

theorem nibble_step_adds (row vec : DeviceMemory) (res : UInt32) (i : Nat) :
    (OpenCl.nibbleStep row vec res i).toNat = (res.toNat + nibbleAmount row vec i) % 2 ^ 32 := by
  simp only [OpenCl.nibbleStep, nibble_products_add, nibbleAmount, amounts, Nat.mod_add_mod,
    Finset.sum_range_succ, Finset.sum_range_zero, Nat.zero_add, Nat.add_assoc, Nat.add_zero]

/-! Entries and halves of bytes. -/

theorem entry_small (matrix : Matrix) (i j : Nat) : (entry matrix i j).toNat ≤ 15 := by
  rw [entry, List.getD_eq_getElem?_getD, List.getD_eq_getElem?_getD, List.getElem?_map]
  cases found : matrix.rows.items[i]? with
  | none => simp
  | some row =>
      cases drawn : row.items[j]? with
      | none => simp [drawn]
      | some entry =>
          have small := matrix.nibbles row (List.mem_of_getElem? found) entry
            (List.mem_of_getElem? drawn)
          simp [drawn]
          omega

theorem high_half (byte : UInt8) : (byte >>> 4).toNat = byte.toNat / 16 := by
  rw [UInt8.toNat_shiftRight, Nat.shiftRight_eq_div_pow]
  rfl

theorem low_half (byte : UInt8) : (byte &&& 0x0F).toNat = byte.toNat % 16 := by
  rw [UInt8.toNat_and]
  exact Nat.and_two_pow_sub_one_eq_mod _ 4

theorem nibble_vec_small (hash : Bytes 32) (j : Nat) : (nibbleVec hash j).toNat ≤ 15 := by
  unfold nibbleVec
  have bound := (hash.items.getD (j / 2) 0).toNat_lt
  dsimp only
  split
  · rw [high_half]
    omega
  · rw [low_half]
    omega

def rowAmount (matrix : Matrix) (i j : Nat) : Nat := (entry matrix i j).toNat

def vecAmount (hash : Bytes 32) (j : Nat) : Nat := (nibbleVec hash j).toNat

/-- A sum that never reaches 14401. -/
theorem dot_small (matrix : Matrix) (hash : Bytes 32) (i : Nat) {count : Nat}
    (within : count ≤ 64) : dot (rowAmount matrix i) (vecAmount hash) count ≤ 14400 := by
  have whole : dot (rowAmount matrix i) (vecAmount hash) 64 ≤ 64 * (15 * 15) :=
    dot_bounded (fun j _ => entry_small matrix i j) (fun j _ => nibble_vec_small hash j)
  exact (dot_mono _ _ within).trans whole

theorem row_sum_exact (matrix : Matrix) (hash : Bytes 32) (i : Nat) {count : Nat}
    (within : count ≤ 64) : (rowSum matrix i (nibbleVec hash) count).toNat =
      dot (rowAmount matrix i) (vecAmount hash) count := by
  have small := dot_small matrix hash i within
  have folded := fold_exact UInt16.toNat (2 ^ 16)
    (fun sum j => sum + entry matrix i j * (nibbleVec hash j).toUInt16)
    (fun j => rowAmount matrix i j * vecAmount hash j)
    (fun sum j => by
      rw [UInt16.toNat_add, UInt16.toNat_mul, UInt8.toNat_toUInt16, Nat.add_mod_mod]
      rfl) 0 count (by simpa [dot] using Nat.lt_of_le_of_lt small (by decide))
  simpa [dot, rowSum] using folded

/-! Uploads. -/

theorem concat_memory {size : Nat} (records : List (Bytes size)) (r j : Nat) (inside : j < size) :
    bytesMemory (concat records) (size * r + j) =
      ((records.map FixedArray.items).getD r []).getD j 0 := by
  rw [bytesMemory, List.getD_eq_getElem?_getD, List.getD_eq_getElem?_getD,
    List.getD_eq_getElem?_getD, List.getElem?_map]
  rcases Nat.lt_or_ge r records.length with within | outside
  · have slice := concat_slice records within
    rw [List.getElem?_eq_getElem within, Option.map_some, Option.getD_some, ← slice,
      List.getElem?_take_of_lt inside, List.getElem?_drop, Nat.mul_comm]
  · rw [List.getElem?_eq_none outside, List.getElem?_eq_none]
    · rfl
    · rw [concat_length, Nat.mul_comm size r]
      have covered := Nat.mul_le_mul_right size outside
      omega

theorem row_entry {matrix : Matrix} {i : Nat} {row : Row} (found : matrix.rows.items[i]? = some row)
    (j : Nat) : entry matrix i j = row.items.getD j 0 := by
  rw [entry, List.getD_eq_getElem?_getD (i := i), List.getElem?_map, found]
  rfl

theorem byte_memory (matrix : Matrix) (i : Nat) {j : Nat} (inside : j < 64) :
    amounts (bytesMemory (concat (matrix.rows.items.map byteRow))) (64 * i + j) =
      rowAmount matrix i j := by
  rw [amounts, concat_memory _ _ _ inside, rowAmount, List.map_map,
    List.getD_eq_getElem?_getD (i := i), List.getElem?_map]
  have small := entry_small matrix i j
  cases found : matrix.rows.items[i]? with
  | none => simp [entry, found]
  | some row =>
      rw [row_entry found, List.getD_eq_getElem?_getD] at small ⊢
      have within : j < row.items.length := by
        rw [row.sized]
        exact inside
      have drawn := List.getElem?_eq_getElem within
      simp only [drawn, Option.getD_some] at small ⊢
      simp only [Option.map_some, Option.getD_some, Function.comp_apply, byteRow,
        List.getD_eq_getElem?_getD, List.getElem?_map, drawn, UInt16.toNat_toUInt8]
      omega

theorem packed_pair : ∀ a b : Fin 16, (((UInt16.ofNat a.val) <<< 4) |||
    UInt16.ofNat b.val).toUInt8.toNat = 16 * a.val + b.val := by
  decide

/-- A packed byte holds the even entry above the odd one. -/
theorem packed_memory (matrix : Matrix) (i : Nat) {t : Nat} (inside : t < 32) :
    amounts (bytesMemory (concat (matrix.rows.items.map packedRow))) (32 * i + t) =
      16 * rowAmount matrix i (2 * t) + rowAmount matrix i (2 * t + 1) := by
  rw [amounts, concat_memory _ _ _ inside, rowAmount, rowAmount, List.map_map,
    List.getD_eq_getElem?_getD (i := i), List.getElem?_map]
  have even := entry_small matrix i (2 * t)
  have odd := entry_small matrix i (2 * t + 1)
  cases found : matrix.rows.items[i]? with
  | none => simp [entry, found]
  | some row =>
      rw [row_entry found] at even odd
      have pair := packed_pair ⟨_, Nat.lt_succ_of_le even⟩ ⟨_, Nat.lt_succ_of_le odd⟩
      simp only [UInt16.ofNat_toNat] at pair
      rw [row_entry found, row_entry found, ← pair]
      simp [packedRow, List.getD_eq_getElem?_getD, List.getElem?_range inside]

theorem byte_memory_small (matrix : Matrix) (address : Nat) :
    amounts (bytesMemory (concat (matrix.rows.items.map byteRow))) address ≤ 15 := by
  have place := Nat.div_add_mod address 64
  rw [← place, byte_memory matrix _ (Nat.mod_lt _ (by decide))]
  exact entry_small matrix _ _

/-! Halves of a hash in memory. -/

theorem masked_high_each : ∀ n : Fin 256,
    (UInt8.ofNat n.val &&& 0xF0) >>> 4 = UInt8.ofNat n.val >>> 4 := by
  decide +kernel

theorem masked_high (byte : UInt8) : (byte &&& 0xF0) >>> 4 = byte >>> 4 := by
  have each := masked_high_each ⟨byte.toNat, byte.toNat_lt⟩
  rwa [UInt8.ofNat_toNat] at each

theorem hash_part_eq (hash : Bytes 32) : OpenCl.hashPart hash = nibbleVec hash := by
  funext j
  simp only [OpenCl.hashPart, nibbleVec, masked_high]

theorem packed_hash_eq (hash : Bytes 32) : Cuda.packedHash hash = nibbleVec hash := by
  funext j
  have place : j % 4 = 0 ∨ j % 4 = 1 ∨ j % 4 = 2 ∨ j % 4 = 3 := by omega
  rcases place with rest | rest | rest | rest
  · have byte : j / 2 = 2 * (j / 4) := by omega
    have even : j % 2 = 0 := by omega
    simp only [Cuda.packedHash, nibbleVec, rest, masked_high, byte, even, if_true]
  · have byte : j / 2 = 2 * (j / 4) := by omega
    have odd : j % 2 = 1 := by omega
    simp only [Cuda.packedHash, nibbleVec, rest, byte, odd]
    rfl
  · have byte : j / 2 = 2 * (j / 4) + 1 := by omega
    have even : j % 2 = 0 := by omega
    simp only [Cuda.packedHash, nibbleVec, rest, masked_high, byte, even, if_true]
  · have byte : j / 2 = 2 * (j / 4) + 1 := by omega
    have odd : j % 2 = 1 := by omega
    simp only [Cuda.packedHash, nibbleVec, rest, byte, odd]
    rfl

theorem vec_even (hash : Bytes 32) (t : Nat) :
    vecAmount hash (2 * t) = amounts (bytesMemory hash.items) t / 16 := by
  have byte : 2 * t / 2 = t := by omega
  have even : 2 * t % 2 = 0 := by omega
  simp only [vecAmount, nibbleVec, byte, even, if_true, high_half, amounts, bytesMemory]

theorem vec_odd (hash : Bytes 32) (t : Nat) :
    vecAmount hash (2 * t + 1) = amounts (bytesMemory hash.items) t % 16 := by
  have byte : (2 * t + 1) / 2 = t := by omega
  have odd : (2 * t + 1) % 2 = 1 := by omega
  simp only [vecAmount, nibbleVec, byte, odd, Nat.one_ne_zero, if_false, low_half, amounts,
    bytesMemory]

/-! The products of each kernel. -/

theorem char_product_each : ∀ a b : Fin 16,
    (Cuda.charProduct (UInt8.ofNat a.val) (UInt8.ofNat b.val)).toNat = a.val * b.val := by
  decide +kernel

theorem char_product_small {a b : UInt8} (left : a.toNat ≤ 15) (right : b.toNat ≤ 15) :
    (Cuda.charProduct a b).toNat = a.toNat * b.toNat := by
  have each := char_product_each ⟨a.toNat, Nat.lt_succ_of_le left⟩ ⟨b.toNat, Nat.lt_succ_of_le right⟩
  rwa [UInt8.ofNat_toNat, UInt8.ofNat_toNat] at each

theorem amul4bit_step_adds (cudaArch : Nat) {row vec : DeviceMemory}
    (rows : ∀ address, amounts row address ≤ 15) (vecs : ∀ address, amounts vec address ≤ 15)
    (res : UInt32) (i : Nat) :
    (Cuda.amul4bitStep cudaArch row vec res i).toNat =
      (res.toNat + byteAmount row vec i) % 2 ^ 32 := by
  unfold Cuda.amul4bitStep
  split
  · exact dp4a_adds row vec res i
  · have product (address : Nat) : (Cuda.charProduct (row address) (vec address)).toNat =
        amounts row address * amounts vec address :=
      char_product_small (rows address) (vecs address)
    simp only [UInt32.toNat_add, product, byteAmount, Nat.mod_add_mod, Finset.sum_range_succ,
      Finset.sum_range_zero, Nat.zero_add, Nat.add_assoc, Nat.add_zero]

/-- `count` steps over packed bytes hold the first `4 * count` products. -/
theorem byte_steps_exact {step : UInt32 → Nat → UInt32} {row vec : DeviceMemory}
    (adds : ∀ res i, (step res i).toNat = (res.toNat + byteAmount row vec i) % 2 ^ 32)
    {count : Nat} (fits : dot (amounts row) (amounts vec) (4 * count) < 2 ^ 32) :
    ((List.range count).foldl step 0).toNat = dot (amounts row) (amounts vec) (4 * count) := by
  have grouped := sum_groups 4 count fun j => amounts row j * amounts vec j
  have folded := fold_exact UInt32.toNat (2 ^ 32) step (byteAmount row vec) adds 0 count
  simp only [byteAmount, grouped, UInt32.toNat_zero, Nat.zero_add] at folded
  exact folded fits

/-- `count` steps over packed nibbles hold the first `8 * count` products. -/
theorem nibble_steps_exact {step : UInt32 → Nat → UInt32} {row vec : DeviceMemory}
    (adds : ∀ res i, (step res i).toNat = (res.toNat + nibbleAmount row vec i) % 2 ^ 32)
    {rows vecs : Nat → Nat} {count : Nat}
    (halves : ∀ t < 4 * count, amounts row t / 16 = rows (2 * t) ∧
      amounts row t % 16 = rows (2 * t + 1) ∧ amounts vec t / 16 = vecs (2 * t) ∧
      amounts vec t % 16 = vecs (2 * t + 1))
    (fits : dot rows vecs (8 * count) < 2 ^ 32) :
    ((List.range count).foldl step 0).toNat = dot rows vecs (8 * count) := by
  have whole : ∑ i ∈ Finset.range count, nibbleAmount row vec i = dot rows vecs (8 * count) := by
    have pairs := sum_pairs (4 * count) fun j => rows j * vecs j
    rw [← Nat.mul_assoc] at pairs
    rw [dot, ← pairs]
    simp only [nibbleAmount]
    rw [sum_groups 4 count fun t =>
      amounts row t % 16 * (amounts vec t % 16) + amounts row t / 16 * (amounts vec t / 16)]
    apply Finset.sum_congr rfl
    intro t member
    obtain ⟨evenRow, oddRow, evenVec, oddVec⟩ := halves t (Finset.mem_range.mp member)
    rw [evenRow, oddRow, evenVec, oddVec, Nat.add_comm]
  have folded := fold_exact UInt32.toNat (2 ^ 32) step (nibbleAmount row vec) adds 0 count
  simp only [whole, UInt32.toNat_zero, Nat.zero_add] at folded
  exact folded fits

/-- What a lane of `ushort4` sums: every fourth product. -/
def laneAmount (row vec : DeviceMemory) (k count : Nat) : Nat :=
  dot (fun i => amounts row (4 * i + k)) (fun i => amounts vec (4 * i + k)) count

section Nibbles
variable {row vec : DeviceMemory} (rows : ∀ address, amounts row address ≤ 15)
  (vecs : ∀ address, amounts vec address ≤ 15)
include rows vecs

theorem lane_amount_small (k : Nat) {count : Nat} (within : count ≤ 16) :
    laneAmount row vec k count ≤ 3600 :=
  Nat.le_trans (dot_bounded (fun _ _ => rows _) (fun _ _ => vecs _))
    (Nat.mul_le_mul_right (15 * 15) within)

theorem ushort_lane_exact (k : Nat) {count : Nat} (within : count ≤ 16) :
    (OpenCl.ushortLane row vec k count).toNat = laneAmount row vec k count := by
  have small := lane_amount_small rows vecs k within
  have folded := fold_exact UInt16.toNat (2 ^ 16)
    (fun res i => res + (row (4 * i + k)).toUInt16 * (vec (4 * i + k)).toUInt16)
    (fun i => amounts row (4 * i + k) * amounts vec (4 * i + k))
    (fun res i => by
      rw [UInt16.toNat_add, UInt16.toNat_mul, UInt8.toNat_toUInt16, UInt8.toNat_toUInt16,
        Nat.add_mod_mod]
      rfl) 0 count
  simp only [UInt16.toNat_zero, Nat.zero_add] at folded
  exact folded (Nat.lt_of_le_of_lt small (by decide))

/-- Neither the sums of two lanes nor the last sum wrap. -/
theorem ushort_sum_exact :
    (OpenCl.ushortSum row vec).toNat = dot (amounts row) (amounts vec) 64 := by
  have lanes : ∑ k ∈ Finset.range 4, laneAmount row vec k 16 =
      dot (amounts row) (amounts vec) 64 :=
    sum_lanes 4 16 fun j => amounts row j * amounts vec j
  simp only [Finset.sum_range_succ, Finset.sum_range_zero, Nat.zero_add] at lanes
  have small (k : Nat) := lane_amount_small rows vecs k (Nat.le_refl 16)
  have zeroth := small 0
  have first := small 1
  have second := small 2
  have third := small 3
  simp only [OpenCl.ushortSum, UInt32.toNat_add, UInt16.toNat_toUInt32, UInt16.toNat_add,
    ushort_lane_exact rows vecs _ (Nat.le_refl 16)]
  omega

end Nibbles

/-! A row of the matrix on each path. -/

def byteUpload (matrix : Matrix) (i : Nat) : DeviceMemory :=
  Cuda.rowAt (bytesMemory (concat (matrix.rows.items.map byteRow))) (64 * i)

def packedUpload (matrix : Matrix) (i : Nat) : DeviceMemory :=
  Cuda.rowAt (bytesMemory (concat (matrix.rows.items.map packedRow))) (32 * i)

section Rows
variable (matrix : Matrix) (hash : Bytes 32) (i : Nat)

theorem byte_upload_small (address : Nat) : amounts (byteUpload matrix i) address ≤ 15 :=
  byte_memory_small matrix _

theorem byte_upload_dot {count : Nat} (within : count ≤ 64) :
    dot (amounts (byteUpload matrix i)) (amounts (nibbleVec hash)) count =
      dot (rowAmount matrix i) (vecAmount hash) count :=
  dot_congr (fun _ below => byte_memory matrix i (Nat.lt_of_lt_of_le below within))
    fun _ _ => rfl

theorem byte_path_exact {step : UInt32 → Nat → UInt32}
    (adds : ∀ res t, (step res t).toNat =
      (res.toNat + byteAmount (byteUpload matrix i) (nibbleVec hash) t) % 2 ^ 32)
    {count : Nat} (within : count ≤ 16) : ((List.range count).foldl step 0).toNat =
      dot (rowAmount matrix i) (vecAmount hash) (4 * count) := by
  have covered : 4 * count ≤ 64 := by omega
  have same := byte_upload_dot matrix hash i covered
  have small := dot_small matrix hash i covered
  rw [byte_steps_exact adds (by rw [same]; exact Nat.lt_of_le_of_lt small (by decide)), same]

theorem nibble_path_exact {step : UInt32 → Nat → UInt32}
    (adds : ∀ res t, (step res t).toNat =
      (res.toNat + nibbleAmount (packedUpload matrix i) (bytesMemory hash.items) t) % 2 ^ 32)
    {count : Nat} (within : count ≤ 8) : ((List.range count).foldl step 0).toNat =
      dot (rowAmount matrix i) (vecAmount hash) (8 * count) := by
  have small := dot_small matrix hash i (show 8 * count ≤ 64 by omega)
  refine nibble_steps_exact adds ?_ (Nat.lt_of_le_of_lt small (by decide))
  intro t below
  have packed : amounts (packedUpload matrix i) t =
      16 * rowAmount matrix i (2 * t) + rowAmount matrix i (2 * t + 1) :=
    packed_memory matrix i (by omega)
  have odd : rowAmount matrix i (2 * t + 1) ≤ 15 := entry_small matrix i (2 * t + 1)
  rw [packed]
  exact ⟨by omega, by omega, (vec_even hash t).symm, (vec_odd hash t).symm⟩

theorem cuda_exact (cudaArch : Nat) {count : Nat} (within : count ≤ 16) :
    (Cuda.amul4bit cudaArch (byteUpload matrix i) (Cuda.packedHash hash) count).toNat =
      dot (rowAmount matrix i) (vecAmount hash) (4 * count) := by
  rw [packed_hash_eq]
  exact byte_path_exact matrix hash i (amul4bit_step_adds cudaArch (byte_upload_small matrix i)
    (nibble_vec_small hash)) within

theorem dp4a_exact {count : Nat} (within : count ≤ 16) :
    (OpenCl.dotSum dp4a (byteUpload matrix i) (OpenCl.hashPart hash) count).toNat =
      dot (rowAmount matrix i) (vecAmount hash) (4 * count) := by
  rw [hash_part_eq]
  exact byte_path_exact matrix hash i (dp4a_adds _ _) within

theorem v_dot8_exact {count : Nat} (within : count ≤ 8) :
    (OpenCl.dotSum vDot8 (packedUpload matrix i) (bytesMemory hash.items) count).toNat =
      dot (rowAmount matrix i) (vecAmount hash) (8 * count) :=
  nibble_path_exact matrix hash i (v_dot8_adds _ _) within

theorem nibbles_exact {count : Nat} (within : count ≤ 8) :
    (OpenCl.nibbleSum (packedUpload matrix i) (bytesMemory hash.items) count).toNat =
      dot (rowAmount matrix i) (vecAmount hash) (8 * count) :=
  nibble_path_exact matrix hash i (nibble_step_adds _ _) within

theorem lane_exact (k : Nat) {count : Nat} (lanes : k < 4) (within : count ≤ 16) :
    (OpenCl.ushortLane (byteUpload matrix i) (OpenCl.hashPart hash) k count).toNat =
      dot (fun t => rowAmount matrix i (4 * t + k)) (fun t => vecAmount hash (4 * t + k))
        count := by
  rw [hash_part_eq, ushort_lane_exact (byte_upload_small matrix i) (nibble_vec_small hash) k
    within]
  exact dot_congr (fun _ below => byte_memory matrix i (by omega)) fun _ _ => rfl

theorem ushort_exact :
    (OpenCl.ushortSum (byteUpload matrix i) (OpenCl.hashPart hash)).toNat =
      dot (rowAmount matrix i) (vecAmount hash) 64 := by
  rw [hash_part_eq, ushort_sum_exact (byte_upload_small matrix i) (nibble_vec_small hash)]
  exact byte_upload_dot matrix hash i (Nat.le_refl 64)

/-- No accumulator of the host or a kernel wraps on the way to a row's product. -/
structure ExactSums : Prop where
  host : ∀ count ≤ 64, (rowSum matrix i (nibbleVec hash) count).toNat =
    dot (rowAmount matrix i) (vecAmount hash) count
  cuda : ∀ cudaArch, ∀ count ≤ 16,
    (Cuda.amul4bit cudaArch (byteUpload matrix i) (Cuda.packedHash hash) count).toNat =
      dot (rowAmount matrix i) (vecAmount hash) (4 * count)
  dp4a : ∀ count ≤ 16,
    (OpenCl.dotSum HashKernels.dp4a (byteUpload matrix i) (OpenCl.hashPart hash) count).toNat =
      dot (rowAmount matrix i) (vecAmount hash) (4 * count)
  lane : ∀ k < 4, ∀ count ≤ 16,
    (OpenCl.ushortLane (byteUpload matrix i) (OpenCl.hashPart hash) k count).toNat =
      dot (fun t => rowAmount matrix i (4 * t + k)) (fun t => vecAmount hash (4 * t + k)) count
  lanes : (OpenCl.ushortSum (byteUpload matrix i) (OpenCl.hashPart hash)).toNat =
    dot (rowAmount matrix i) (vecAmount hash) 64
  vDot8 : ∀ count ≤ 8,
    (OpenCl.dotSum HashKernels.vDot8 (packedUpload matrix i) (bytesMemory hash.items)
      count).toNat = dot (rowAmount matrix i) (vecAmount hash) (8 * count)
  nibbles : ∀ count ≤ 8,
    (OpenCl.nibbleSum (packedUpload matrix i) (bytesMemory hash.items) count).toNat =
      dot (rowAmount matrix i) (vecAmount hash) (8 * count)

theorem sums_exact : ExactSums matrix hash i where
  host _ within := row_sum_exact matrix hash i within
  cuda cudaArch _ within := cuda_exact matrix hash i cudaArch within
  dp4a _ within := dp4a_exact matrix hash i within
  lane k lanes _ within := lane_exact matrix hash i k lanes within
  lanes := ushort_exact matrix hash i
  vDot8 _ within := v_dot8_exact matrix hash i within
  nibbles _ within := nibbles_exact matrix hash i within

end Rows

end KeryxMiner.KernelSums
