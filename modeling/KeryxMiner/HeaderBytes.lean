import KeryxMiner.PrefixCodes
import KeryxMiner.RpcMessages

/-!
`serialize_header` of `src/pow.rs`. The hasher is the list of bytes it is fed, as in
the tests of that file; a panic is `none`. One 32-byte buffer is decoded into again
and again, and the blue work only overwrites the front of it.
-/

namespace KeryxMiner.HeaderBytes

open ByteCodec PrefixCodes RpcMessages

inductive FromHexError where
  | oddLength
  | invalidStringLength
  | invalidHexCharacter (c : Char) (index : Nat)

def val (c : UInt8) (idx : Nat) : Except FromHexError UInt8 :=
  if 0x41 ≤ c ∧ c ≤ 0x46 then .ok (c - 0x41 + 10)
  else if 0x61 ≤ c ∧ c ≤ 0x66 then .ok (c - 0x61 + 10)
  else if 0x30 ≤ c ∧ c ≤ 0x39 then .ok (c - 0x30)
  else .error (.invalidHexCharacter (Char.ofNat c.toNat) idx)

/-- The digits of byte `i` and of the bytes after it. -/
def decodePairs : List UInt8 → Nat → Except FromHexError (List UInt8)
  | high :: low :: rest, i => do
      let upper ← val high (2 * i)
      let lower ← val low (2 * i + 1)
      let bytes ← decodePairs rest (i + 1)
      .ok ((upper <<< 4 ||| lower) :: bytes)
  | _, _ => .ok []

/-- What `out` holds after an `Ok`. -/
def decodeToSlice (data out : List UInt8) : Except FromHexError (List UInt8) :=
  if data.length % 2 ≠ 0 then .error .oddLength
  else if data.length / 2 ≠ out.length then .error .invalidStringLength
  else decodePairs data 0

theorem decode_pairs_length (data : List UInt8) (i : Nat) (bytes : List UInt8)
    (decoded : decodePairs data i = .ok bytes) : bytes.length = data.length / 2 := by
  fun_induction decodePairs data i generalizing bytes with
  | case1 high low rest i ih =>
      simp only [bind, Except.bind] at decoded
      split at decoded
      · contradiction
      split at decoded
      · contradiction
      split at decoded
      · contradiction
      rename_i tail tailDecoded
      obtain rfl := Except.ok.inj decoded
      have tailLength := ih tail tailDecoded
      simp only [List.length_cons, tailLength]
      omega
  | case2 data i short =>
      obtain rfl := Except.ok.inj decoded
      rcases data with - | ⟨only, - | ⟨low, rest⟩⟩
      · rfl
      · simp
      · exact absurd rfl (short only low rest)

theorem decode_to_slice_length {data out bytes : List UInt8}
    (decoded : decodeToSlice data out = .ok bytes) : bytes.length = out.length := by
  unfold decodeToSlice at decoded
  split at decoded
  · contradiction
  split at decoded
  · contradiction
  rename_i _ fits
  rw [decode_pairs_length data 0 bytes decoded]
  omega

/-- Of the buffer only the length counts. -/
theorem decode_to_slice_buffer (data : List UInt8) {out other : List UInt8}
    (sized : out.length = other.length) : decodeToSlice data out = decodeToSlice data other := by
  simp only [decodeToSlice, sized]

def utf8 (text : String) : List UInt8 := text.toByteArray.data.toList

/-- `decode_to_slice(&text, &mut hash).unwrap()`. -/
def decodeHash (text : String) (hash : Bytes 32) : Option (Bytes 32) :=
  match decoded : decodeToSlice (utf8 text) hash.items with
  | .error _ => none
  | .ok bytes => some ⟨bytes, (decode_to_slice_length decoded).trans hash.sized⟩

structure Writer where
  hasher : List UInt8
  hash : Bytes 32

def Writer.update (bytes : List UInt8) (writer : Writer) : Writer :=
  { writer with hasher := writer.hasher ++ bytes }

def Writer.hashField (writer : Writer) (text : String) : Option Writer := do
  let hash ← decodeHash text writer.hash
  some { hasher := writer.hasher ++ hash.items, hash }

def Writer.level (writer : Writer) (parent : RpcBlockLevelParents) : Option Writer :=
  parent.parentHashes.foldlM Writer.hashField
    (writer.update (encode 8 parent.parentHashes.length))

def padded (blueWork : List UInt8) : List UInt8 :=
  if blueWork.length % 2 = 0 then blueWork else 0x30 :: blueWork

/-- `&mut hash[..blue_work_len]` panics behind the end of the buffer. -/
def Writer.blueWork (text : String) (writer : Writer) : Option Writer :=
  let blueWorkLen := ((utf8 text).length + 1) / 2
  if inside : blueWorkLen ≤ writer.hash.items.length then
    match decoded : decodeToSlice (padded (utf8 text)) (writer.hash.items.take blueWorkLen) with
    | .error _ => none
    | .ok bytes =>
        some {
          hasher := writer.hasher ++ encode 8 blueWorkLen ++ bytes
          hash := ⟨bytes ++ writer.hash.items.drop blueWorkLen, by
            have sized := decode_to_slice_length decoded
            have whole := writer.hash.sized
            simp only [List.length_take] at sized
            simp only [List.length_append, List.length_drop, sized]
            omega⟩ }
  else none

def serializeHeader (forPrePow : Bool) (header : RpcBlockHeader) : Option (List UInt8) := do
  let (nonce, timestamp) := if forPrePow then (0, 0) else (header.nonce, header.timestamp)
  if header.version.toNat < 2 ^ 16 then
    let writer : Writer :=
      ⟨encode 2 header.version.toNat ++ encode 8 header.parents.length, zeroBytes 32⟩
    let writer ← header.parents.foldlM Writer.level writer
    let writer ← writer.hashField header.hashMerkleRoot
    let writer ← writer.hashField header.acceptedIdMerkleRoot
    let writer ← writer.hashField header.utxoCommitment
    let writer := writer.update (encode 8 timestamp.toUInt64.toNat)
    let writer := writer.update (encode 4 header.bits.toNat)
    let writer := writer.update (encode 8 nonce.toNat)
    let writer := writer.update (encode 8 header.daaScore.toNat)
    let writer := writer.update (encode 8 header.blueScore.toNat)
    let writer ← writer.blueWork header.blueWork
    let writer ← writer.hashField header.pruningPoint
    some writer.hasher
  else none

/-! What the header says once its texts are decoded. -/

structure HeaderFields where
  version : UInt32
  parents : List (List (Bytes 32))
  hashMerkleRoot : Bytes 32
  acceptedIdMerkleRoot : Bytes 32
  utxoCommitment : Bytes 32
  timestamp : Int64
  bits : UInt32
  nonce : UInt64
  daaScore : UInt64
  blueScore : UInt64
  /-- The bytes of the text with a '0' in front of an odd number of digits. -/
  blueWork : List UInt8
  pruningPoint : Bytes 32
  deriving DecidableEq

def hashOf (text : String) : Option (Bytes 32) := decodeHash text (zeroBytes 32)

def blueWorkOf (text : String) : Option (List UInt8) :=
  (decodeToSlice (padded (utf8 text))
    (List.replicate (((utf8 text).length + 1) / 2) 0)).toOption

def headerFields (header : RpcBlockHeader) : Option HeaderFields := do
  let parents ← header.parents.mapM fun level => level.parentHashes.mapM hashOf
  let hashMerkleRoot ← hashOf header.hashMerkleRoot
  let acceptedIdMerkleRoot ← hashOf header.acceptedIdMerkleRoot
  let utxoCommitment ← hashOf header.utxoCommitment
  let blueWork ← blueWorkOf header.blueWork
  let pruningPoint ← hashOf header.pruningPoint
  some {
    version := header.version
    parents
    hashMerkleRoot
    acceptedIdMerkleRoot
    utxoCommitment
    timestamp := header.timestamp
    bits := header.bits
    nonce := header.nonce
    daaScore := header.daaScore
    blueScore := header.blueScore
    blueWork
    pruningPoint }

/-- Mining varies the nonce, and the pre-pow hash leaves the time out as well. -/
def HeaderFields.prePow (fields : HeaderFields) : HeaderFields :=
  { fields with nonce := 0, timestamp := 0 }

def HeaderFields.stream (fields : HeaderFields) : List UInt8 :=
  encode 2 fields.version.toNat ++
    counted 8 (counted 8 FixedArray.items) fields.parents ++
    fields.hashMerkleRoot.items ++ fields.acceptedIdMerkleRoot.items ++
    fields.utxoCommitment.items ++ encode 8 fields.timestamp.toUInt64.toNat ++
    encode 4 fields.bits.toNat ++ encode 8 fields.nonce.toNat ++
    encode 8 fields.daaScore.toNat ++ encode 8 fields.blueScore.toNat ++
    (encode 8 fields.blueWork.length ++ fields.blueWork) ++ fields.pruningPoint.items

/-! The buffer leaves no trace: every writer appends what the decoded text is. -/

theorem decode_hash_buffer (text : String) (hash other : Bytes 32) :
    decodeHash text hash = decodeHash text other := by
  have same := decode_to_slice_buffer (utf8 text) (hash.sized.trans other.sized.symm)
  unfold decodeHash
  split
  · rename_i failed
    rw [same] at failed
    split
    · rfl
    · rename_i decoded
      rw [failed] at decoded
      contradiction
  · rename_i bytes decoded
    rw [same] at decoded
    split
    · rename_i failed
      rw [failed] at decoded
      contradiction
    · rename_i others otherDecoded
      rw [otherDecoded] at decoded
      obtain rfl := Except.ok.inj decoded
      rfl

theorem hash_field_writes {writer after : Writer} {text : String}
    (written : writer.hashField text = some after) :
    ∃ hash, hashOf text = some hash ∧ after.hasher = writer.hasher ++ hash.items := by
  obtain ⟨hash, decoded, stored⟩ := Option.bind_eq_some_iff.mp written
  obtain rfl := Option.some.inj stored
  exact ⟨hash, by rw [← decoded, hashOf, decode_hash_buffer], rfl⟩

/-- A loop that appends for each item what `parse` and `write` make of it. -/
theorem loop_writes {Item Parsed : Type} (body : Writer → Item → Option Writer)
    (parse : Item → Option Parsed) (write : Parsed → List UInt8)
    (writes : ∀ writer item after, body writer item = some after →
      ∃ parsed, parse item = some parsed ∧ after.hasher = writer.hasher ++ write parsed)
    (items : List Item) (writer after : Writer) (looped : items.foldlM body writer = some after) :
    ∃ parsed, items.mapM parse = some parsed ∧
      after.hasher = writer.hasher ++ parsed.flatMap write := by
  induction items generalizing writer with
  | nil =>
      obtain rfl := Option.some.inj looped
      exact ⟨[], rfl, by simp⟩
  | cons item items ih =>
      rw [List.foldlM_cons] at looped
      obtain ⟨middle, first, others⟩ := Option.bind_eq_some_iff.mp looped
      obtain ⟨head, headParsed, headWritten⟩ := writes writer item middle first
      obtain ⟨tail, tailParsed, tailWritten⟩ := ih middle others
      refine ⟨head :: tail, ?_, ?_⟩
      · simp [List.mapM_cons, headParsed, tailParsed]
      · rw [tailWritten, headWritten, List.flatMap_cons, List.append_assoc]

theorem level_writes {writer after : Writer} {level : RpcBlockLevelParents}
    (written : writer.level level = some after) :
    ∃ hashes, level.parentHashes.mapM hashOf = some hashes ∧
      after.hasher = writer.hasher ++ counted 8 FixedArray.items hashes := by
  obtain ⟨hashes, parsed, appended⟩ :=
    loop_writes Writer.hashField hashOf FixedArray.items (fun _ _ _ => hash_field_writes)
      level.parentHashes _ after written
  refine ⟨hashes, parsed, ?_⟩
  rw [appended, Writer.update, counted, (map_m_parsed parsed).1, List.append_assoc]

theorem blue_work_writes {writer after : Writer} {text : String}
    (written : writer.blueWork text = some after) :
    ∃ bytes, blueWorkOf text = some bytes ∧ bytes.length ≤ 32 ∧
      after.hasher = writer.hasher ++ (encode 8 bytes.length ++ bytes) := by
  unfold Writer.blueWork at written
  simp only at written
  split at written
  · rename_i inside
    split at written
    · contradiction
    · rename_i bytes decoded
      obtain rfl := Option.some.inj written
      have sized := decode_to_slice_length decoded
      have whole := writer.hash.sized
      have short : bytes.length = ((utf8 text).length + 1) / 2 := by
        rw [sized, List.length_take]
        omega
      refine ⟨bytes, ?_, by omega, ?_⟩
      · rw [blueWorkOf, decode_to_slice_buffer _ (List.length_replicate.trans
          (short.symm.trans sized)), decoded]
        rfl
      · simp only [short, List.append_assoc]
  · contradiction

/-- The lengths of a `Vec` fit a `usize`. -/
def Addressable (header : RpcBlockHeader) : Prop :=
  header.parents.length < 2 ^ 64 ∧ ∀ level ∈ header.parents, level.parentHashes.length < 2 ^ 64

structure HeaderFields.Writable (fields : HeaderFields) : Prop where
  version : fields.version.toNat < 256 ^ 2
  parents : Countable 8 (Countable 8 fun _ => True) fields.parents
  blueWork : fields.blueWork.length < 256 ^ 8

/-- A header that is written decodes, and its bytes are those of its fields. -/
theorem serialize_header_writes {forPrePow : Bool} {header : RpcBlockHeader}
    {stream : List UInt8} (addressable : Addressable header)
    (written : serializeHeader forPrePow header = some stream) :
    ∃ fields, headerFields header = some fields ∧ fields.Writable ∧
      stream = (if forPrePow then fields.prePow else fields).stream := by
  unfold serializeHeader at written
  simp only at written
  split at written
  · rename_i version
    -- the writes that can fail, then the fields that each of them read
    obtain ⟨w1, parentsWritten, written⟩ := Option.bind_eq_some_iff.mp written
    obtain ⟨w2, merkleWritten, written⟩ := Option.bind_eq_some_iff.mp written
    obtain ⟨w3, acceptedWritten, written⟩ := Option.bind_eq_some_iff.mp written
    obtain ⟨w4, utxoWritten, written⟩ := Option.bind_eq_some_iff.mp written
    obtain ⟨w5, workWritten, written⟩ := Option.bind_eq_some_iff.mp written
    obtain ⟨w6, pruningWritten, written⟩ := Option.bind_eq_some_iff.mp written
    obtain ⟨parents, parentsParsed, parentsBytes⟩ :=
      loop_writes Writer.level (fun level => level.parentHashes.mapM hashOf)
        (counted 8 FixedArray.items) (fun _ _ _ => level_writes) header.parents _ w1 parentsWritten
    obtain ⟨merkle, merkleParsed, merkleBytes⟩ := hash_field_writes merkleWritten
    obtain ⟨accepted, acceptedParsed, acceptedBytes⟩ := hash_field_writes acceptedWritten
    obtain ⟨utxo, utxoParsed, utxoBytes⟩ := hash_field_writes utxoWritten
    obtain ⟨work, workParsed, workShort, workBytes⟩ := blue_work_writes workWritten
    obtain ⟨pruning, pruningParsed, pruningBytes⟩ := hash_field_writes pruningWritten
    obtain ⟨levels, sources⟩ := map_m_parsed parentsParsed
    let fields : HeaderFields := {
      version := header.version
      parents
      hashMerkleRoot := merkle
      acceptedIdMerkleRoot := accepted
      utxoCommitment := utxo
      timestamp := header.timestamp
      bits := header.bits
      nonce := header.nonce
      daaScore := header.daaScore
      blueScore := header.blueScore
      blueWork := work
      pruningPoint := pruning }
    have parsed : headerFields header = some fields := by
      simp [headerFields, parentsParsed, merkleParsed, acceptedParsed, utxoParsed, workParsed,
        pruningParsed, fields]
    have small : fields.blueWork.length < 256 ^ 8 := by
      simp only [fields]
      omega
    refine ⟨fields, parsed, ⟨version, ⟨?_, ?_⟩, small⟩, ?_⟩
    · exact levels.trans_lt addressable.1
    · intro hashes member
      obtain ⟨level, present, hashed⟩ := sources hashes member
      exact ⟨(map_m_parsed hashed).1.trans_lt (addressable.2 level present), fun _ _ => trivial⟩
    · obtain rfl := Option.some.inj written
      cases forPrePow <;>
        simp [fields, pruningBytes, workBytes, Writer.update, utxoBytes, acceptedBytes, merkleBytes,
          parentsBytes, HeaderFields.stream, HeaderFields.prePow, counted, levels,
          List.append_assoc]
  · contradiction

theorem stream_separates : Separates HeaderFields.Writable id HeaderFields.stream := by
  have hash (get : HeaderFields → Bytes 32) :
      Separates HeaderFields.Writable get fun fields => (get fields).items :=
    separates_bytes 32 get
  have word (get : HeaderFields → UInt64) :
      Separates HeaderFields.Writable (fun fields => (get fields).toNat)
        fun fields => encode 8 (get fields).toNat :=
    separates_word 8 _ fun fields _ => (get fields).toNat_lt
  have version : Separates HeaderFields.Writable (fun fields => fields.version.toNat)
      fun fields => encode 2 fields.version.toNat :=
    separates_word 2 _ fun _ writable => writable.version
  have bits : Separates HeaderFields.Writable (fun fields => fields.bits.toNat)
      fun fields => encode 4 fields.bits.toNat :=
    separates_word 4 _ fun fields _ => fields.bits.toNat_lt
  have parents : Separates HeaderFields.Writable (fun fields => fields.parents.map (List.map id))
      fun fields => counted 8 (counted 8 FixedArray.items) fields.parents :=
    (((separates_bytes 32 id).counted 8).counted 8).field HeaderFields.parents
      fun _ writable => writable.parents
  have work : Separates HeaderFields.Writable HeaderFields.blueWork
      fun fields => encode 8 fields.blueWork.length ++ fields.blueWork :=
    separates_var_bytes 8 _ fun _ writable => writable.blueWork
  have timestamp : Separates HeaderFields.Writable HeaderFields.timestamp
      fun fields => encode 8 fields.timestamp.toUInt64.toNat :=
    (word fun fields => fields.timestamp.toUInt64).view fun left right same => by
      rw [← Int64.toInt64_toUInt64 left.timestamp, UInt64.toNat_inj.mp same,
        Int64.toInt64_toUInt64]
  have roots := ((version.append parents).append (hash HeaderFields.hashMerkleRoot)).append
    (hash HeaderFields.acceptedIdMerkleRoot) |>.append (hash HeaderFields.utxoCommitment)
  have numbers := (((roots.append timestamp).append bits).append (word HeaderFields.nonce)).append
    (word HeaderFields.daaScore) |>.append (word HeaderFields.blueScore)
  have whole := (numbers.append work).append (hash HeaderFields.pruningPoint)
  -- equal views are equal fields
  refine whole.view fun left right same => ?_
  simp only [Prod.mk.injEq, UInt64.toNat_inj, UInt32.toNat_inj, List.map_id_fun, List.map_id]
    at same
  cases left
  cases right
  simpa [and_assoc] using same

theorem HeaderFields.Writable.prePow {fields : HeaderFields} (writable : fields.Writable) :
    fields.prePow.Writable := ⟨writable.version, writable.parents, writable.blueWork⟩

/-- Equal bytes are the bytes of equal fields; without the nonce and the time, of
fields that are equal but for these two. -/
theorem serialize_header_injective (left right : RpcBlockHeader)
    (addressableLeft : Addressable left) (addressableRight : Addressable right)
    (forPrePow : Bool) (stream : List UInt8)
    (leftWritten : serializeHeader forPrePow left = some stream)
    (rightWritten : serializeHeader forPrePow right = some stream) :
    ∃ leftFields rightFields, headerFields left = some leftFields ∧
      headerFields right = some rightFields ∧
      if forPrePow then leftFields.prePow = rightFields.prePow else leftFields = rightFields := by
  obtain ⟨leftFields, leftParsed, leftWritable, leftStream⟩ :=
    serialize_header_writes addressableLeft leftWritten
  obtain ⟨rightFields, rightParsed, rightWritable, rightStream⟩ :=
    serialize_header_writes addressableRight rightWritten
  refine ⟨leftFields, rightFields, leftParsed, rightParsed, ?_⟩
  have same := leftStream.symm.trans rightStream
  cases forPrePow with
  | false => exact stream_separates.injective leftWritable rightWritable same
  | true => exact stream_separates.injective leftWritable.prePow rightWritable.prePow same

/-! A header whose digits are written in either case. -/

def digits (pair : String) : String := String.join (List.replicate 32 pair)

def sampleHeader (pair : String) : RpcBlockHeader where
  version := 1
  parents := [⟨[digits "00", digits pair]⟩, ⟨[]⟩]
  hashMerkleRoot := digits pair
  acceptedIdMerkleRoot := digits "12"
  utxoCommitment := digits "34"
  timestamp := 1700000000000
  bits := 0x1e7fffff
  nonce := 77
  daaScore := 5
  blueWork := "abc"
  pruningPoint := digits pair
  blueScore := 4

theorem sample_addressable (pair : String) : Addressable (sampleHeader pair) := by
  simp [Addressable, sampleHeader]

theorem serialize_header_injective_case :
    ∃ leftFields rightFields, headerFields (sampleHeader "AB") = some leftFields ∧
      headerFields (sampleHeader "ab") = some rightFields ∧ leftFields = rightFields :=
  serialize_header_injective (sampleHeader "AB") (sampleHeader "ab") (sample_addressable "AB")
    (sample_addressable "ab") false ((serializeHeader false (sampleHeader "AB")).getD [])
    (by decide +kernel) (by decide +kernel)

end KeryxMiner.HeaderBytes
