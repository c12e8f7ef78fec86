import Mathlib.Data.Nat.ModEq
import Mathlib.Tactic.Ring

/-!
Fixed-size arrays, little-endian codecs and files of fixed-size records. A file
is its list of bytes; a positioned read succeeds only when the whole record lies
inside the file, so an out-of-range read is visible as `none`.
-/

namespace KeryxMiner.ByteCodec

@[ext]
structure FixedArray (Item : Type) (size : Nat) where
  items : List Item
  sized : items.length = size
  deriving DecidableEq

abbrev Bytes (size : Nat) := FixedArray UInt8 size

def FixedArray.get {Item : Type} {size : Nat} (array : FixedArray Item size)
    (index : Fin size) : Item :=
  array.items.get (index.cast array.sized.symm)

def zeroBytes (size : Nat) : Bytes size := ⟨List.replicate size 0, List.length_replicate⟩

def encode : Nat → Nat → List UInt8
  | 0, _ => []
  | width + 1, value => UInt8.ofNat (value % 256) :: encode width (value / 256)

def decode : List UInt8 → Nat
  | [] => 0
  | byte :: rest => byte.toNat + 256 * decode rest

@[simp]
theorem encode_length (width value : Nat) : (encode width value).length = width := by
  induction width generalizing value with
  | zero => rfl
  | succ width ih => simp [encode, ih]

theorem decode_encode (width value : Nat) :
    decode (encode width value) = value % 256 ^ width := by
  induction width generalizing value with
  | zero => simp [encode, decode, Nat.mod_one]
  | succ width ih =>
      have small : value % 256 % 2 ^ 8 = value % 256 := by omega
      rw [encode, decode, ih, UInt8.toNat_ofNat', small, Nat.pow_succ', Nat.mod_mul]

theorem encode_decode (bytes : List UInt8) : encode bytes.length (decode bytes) = bytes := by
  induction bytes with
  | nil => rfl
  | cons byte rest ih =>
      have bound := byte.toNat_lt
      have low : (byte.toNat + 256 * decode rest) % 256 = byte.toNat := by omega
      have high : (byte.toNat + 256 * decode rest) / 256 = decode rest := by omega
      simp [encode, decode, low, high, ih]

theorem decode_lt (bytes : List UInt8) : decode bytes < 256 ^ bytes.length := by
  induction bytes with
  | nil => simp [decode]
  | cons byte rest ih =>
      have bound := byte.toNat_lt
      simp only [decode, List.length_cons, Nat.pow_succ']
      omega

theorem decode_append (low high : List UInt8) :
    decode (low ++ high) = decode low + 256 ^ low.length * decode high := by
  induction low with
  | nil => simp [decode]
  | cons byte rest ih =>
      simp only [List.cons_append, decode, ih, List.length_cons, Nat.pow_succ']
      ring

def toLeBytes (word : UInt64) : Bytes 8 :=
  ⟨encode 8 word.toNat, encode_length 8 word.toNat⟩

def fromLeBytes (bytes : List UInt8) : UInt64 := UInt64.ofNat (decode bytes)

theorem decode_toLeBytes (word : UInt64) : decode (toLeBytes word).items = word.toNat := by
  have bound := word.toNat_lt
  simp only [toLeBytes, decode_encode]
  exact Nat.mod_eq_of_lt (by simpa using bound)

theorem fromLeBytes_toLeBytes (word : UInt64) :
    fromLeBytes (toLeBytes word).items = word := by
  simp [fromLeBytes, decode_toLeBytes]

theorem toNat_fromLeBytes (bytes : List UInt8) (width : bytes.length = 8) :
    (fromLeBytes bytes).toNat = decode bytes := by
  have bound := decode_lt bytes
  rw [width] at bound
  simp only [fromLeBytes, UInt64.toNat_ofNat']
  exact Nat.mod_eq_of_lt (by simpa using bound)

theorem toLeBytes_fromLeBytes (bytes : List UInt8) (width : bytes.length = 8) :
    (toLeBytes (fromLeBytes bytes)).items = bytes := by
  simp only [toLeBytes, toNat_fromLeBytes bytes width]
  rw [← width]
  exact encode_decode bytes

theorem toLeBytes_injective : Function.Injective toLeBytes := by
  intro left right same
  rw [← fromLeBytes_toLeBytes left, same, fromLeBytes_toLeBytes]

/-- Consecutive aligned slices reassemble the bytes they were cut from. -/
theorem slices_append (size count : Nat) (bytes : List UInt8) :
    ((List.range count).flatMap fun index => (bytes.drop (index * size)).take size) =
      bytes.take (count * size) := by
  induction count with
  | zero => simp
  | succ count ih =>
      rw [List.range_succ, List.flatMap_append, ih, Nat.add_mul, Nat.one_mul, List.take_add]
      simp

/-! Files of fixed-size records. -/

def concat {size : Nat} (records : List (Bytes size)) : List UInt8 :=
  records.flatMap FixedArray.items

def readExactAt (size : Nat) (file : List UInt8) (offset : Nat) : Option (Bytes size) :=
  if inside : offset + size ≤ file.length then
    some ⟨(file.drop offset).take size, by simp; omega⟩
  else none

@[simp]
theorem concat_nil {size : Nat} : concat ([] : List (Bytes size)) = [] := rfl

@[simp]
theorem concat_append {size : Nat} (first second : List (Bytes size)) :
    concat (first ++ second) = concat first ++ concat second := by
  simp [concat]

theorem concat_cons {size : Nat} (record : Bytes size) (rest : List (Bytes size)) :
    concat (record :: rest) = record.items ++ concat rest := by
  simp [concat]

theorem concat_length {size : Nat} (records : List (Bytes size)) :
    (concat records).length = records.length * size := by
  induction records with
  | nil => simp
  | cons record rest ih =>
      simp only [concat_cons, List.length_append, record.sized, ih, List.length_cons]
      ring

theorem concat_slice {size : Nat} (records : List (Bytes size)) {index : Nat}
    (inside : index < records.length) :
    ((concat records).drop (index * size)).take size = records[index].items := by
  induction records generalizing index with
  | nil => cases inside
  | cons record rest ih =>
      cases index with
      | zero => simp [concat_cons, record.sized]
      | succ index =>
          have skip : (index + 1) * size = record.items.length + index * size := by
            rw [record.sized]
            ring
          rw [concat_cons, skip, List.drop_length_add_append]
          exact ih (Nat.lt_of_succ_lt_succ inside)

theorem concat_injective {size : Nat} (left right : List (Bytes size))
    (count : left.length = right.length) (same : concat left = concat right) :
    left = right := by
  induction left generalizing right with
  | nil =>
      cases right with
      | nil => rfl
      | cons record rest => simp at count
  | cons first rest ih =>
      cases right with
      | nil => simp at count
      | cons second tail =>
          rw [concat_cons, concat_cons] at same
          obtain ⟨heads, tails⟩ :=
            List.append_inj same (by rw [first.sized, second.sized])
          rw [FixedArray.ext heads, ih tail (by simpa using count) tails]

theorem read_inside {size : Nat} {file : List UInt8} {offset : Nat} {record : Bytes size}
    (read : readExactAt size file offset = some record) : offset + size ≤ file.length := by
  unfold readExactAt at read
  split at read
  · assumption
  · simp at read

/-- A record is its own slice of the file, whatever surrounds the records. -/
theorem read_slice {size : Nat} (before : List UInt8) (record : Bytes size)
    (after : List UInt8) :
    readExactAt size (before ++ record.items ++ after) before.length = some record := by
  have sized := record.sized
  have inside : before.length + size ≤ (before ++ record.items ++ after).length := by
    simp only [List.length_append]
    omega
  rw [readExactAt, dif_pos inside]
  congr 1
  ext1
  simp [List.append_assoc, ← sized]

theorem read_record {size : Nat} (before : List UInt8) (records : List (Bytes size))
    (after : List UInt8) (index : Nat) (record : Bytes size)
    (present : records[index]? = some record) :
    readExactAt size (before ++ concat records ++ after) (before.length + index * size) =
      some record := by
  induction records generalizing before index with
  | nil => simp at present
  | cons first rest ih =>
      cases index with
      | zero =>
          obtain rfl : first = record := by simpa using present
          have slice := read_slice before first (concat rest ++ after)
          simpa [concat_cons, List.append_assoc] using slice
      | succ index =>
          have tail := ih (before ++ first.items) index (by simpa using present)
          have position : before.length + (index + 1) * size =
              (before ++ first.items).length + index * size := by
            rw [List.length_append, first.sized]
            ring
          rw [position]
          simpa [concat_cons, List.append_assoc] using tail

/-- Reading every record back determines the bytes they occupy. -/
theorem read_all_records {size : Nat} (file : List UInt8) (records : List (Bytes size))
    (offset : Nat) (reads : ∀ i record, records[i]? = some record →
      readExactAt size file (offset + i * size) = some record) :
    (file.drop offset).take (records.length * size) = concat records := by
  induction records generalizing offset with
  | nil => simp
  | cons record rest ih =>
      have first := reads 0 record rfl
      rw [Nat.zero_mul, Nat.add_zero, readExactAt, dif_pos (read_inside first)] at first
      have items : (file.drop offset).take size = record.items :=
        congrArg FixedArray.items (Option.some.inj first)
      have tail := ih (offset + size) fun i later present => by
        have read := reads (i + 1) later present
        rwa [Nat.add_mul, Nat.one_mul, Nat.add_comm (i * size), ← Nat.add_assoc] at read
      rw [List.length_cons, Nat.add_mul, Nat.one_mul, Nat.add_comm, List.take_add, List.drop_drop,
        tail, items, concat_cons]

end KeryxMiner.ByteCodec
