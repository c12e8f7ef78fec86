import KeryxMiner.AiPayloads
import KeryxMiner.AsciiText
import KeryxMiner.BaseConversion

/-!
The texts of content ids: `base58btc_encode` of `inference/src/ai_payload.rs` and
`cid_v0_to_multihash` of `src/ipfs.rs`. The loops of the two are one, over digits of the
one base and of the other.
-/

namespace KeryxMiner.ContentIds

open AiPayloads AsciiText BaseConversion ByteCodec

/-! Loops. -/

/-- What a loop does with its carry: adds a digit times `scale`, keeps the low part and
goes on with the high part. -/
structure Radix where
  scale : UInt32 → UInt32
  low : UInt32 → UInt8
  high : UInt32 → UInt32
  falls : ∀ carry, 0 < carry → high carry < carry

/-- `while carry > 0`. -/
def Radix.push (radix : Radix) (carry : UInt32) : List UInt8 :=
  if _ : 0 < carry then radix.low carry :: radix.push (radix.high carry) else []
termination_by carry.toNat
decreasing_by exact UInt32.lt_iff_toNat_lt.mp (radix.falls carry ‹_›)

/-- A turn of the outer loop. -/
def Radix.absorb (radix : Radix) : List UInt8 → UInt32 → List UInt8
  | [], carry => radix.push carry
  | digit :: rest, carry =>
      let carry := carry + radix.scale digit.toUInt32
      radix.low carry :: radix.absorb rest (radix.high carry)

/-- Digits of base 58 from bytes. -/
def radix58 : Radix where
  scale digit := digit <<< 8
  low carry := (carry % 58).toUInt8
  high carry := carry / 58
  falls _ positive := by
    rw [UInt32.lt_iff_toNat_lt, UInt32.toNat_div]
    exact Nat.div_lt_self (UInt32.lt_iff_toNat_lt.mp positive) (by decide)

/-- Bytes from digits of base 58. -/
def radix256 : Radix where
  scale byte := byte * 58
  low carry := (carry &&& 0xFF).toUInt8
  high carry := carry >>> 8
  falls carry positive := by
    rw [UInt32.lt_iff_toNat_lt, UInt32.toNat_shiftRight, Nat.shiftRight_eq_div_pow]
    exact Nat.div_lt_self (UInt32.lt_iff_toNat_lt.mp positive) (by decide)

/-! Texts. -/

def alphabet : List UInt8 :=
  "123456789ABCDEFGHJKLMNPQRSTUVWXYZabcdefghijkmnopqrstuvwxyz".toList.map fun c =>
    UInt8.ofNat c.toNat

/-- `none` is an index past the alphabet. -/
def base58btcEncode (input : List UInt8) : Option String :=
  let digits := input.foldl (fun digits byte => radix58.absorb digits byte.toUInt32) [0]
  let leadingZeros := (input.takeWhile (· == 0)).length
  (digits.reverse.mapM fun digit => alphabet[digit.toNat]?).map fun text =>
    asciiText (List.replicate leadingZeros 0x31 ++ text)

def table : Vector UInt8 128 :=
  alphabet.zipIdx.foldl (fun table (c, i) => table.setIfInBounds c.toNat (UInt8.ofNat i))
    (Vector.replicate 128 0xFF)

def digitOf (c : UInt8) : Option UInt8 :=
  if inside : c.toNat < 128 then
    if table[c.toNat] = 0xFF then none else some table[c.toNat]
  else none

def base58btcDecode (input : String) : Option (List UInt8) :=
  let result := (utf8 input).foldlM (fun result c =>
    (digitOf c).map fun digit => radix256.absorb result digit.toUInt32) [0]
  let leadingZeros := ((utf8 input).takeWhile (· == 0x31)).length
  result.map fun result => List.replicate leadingZeros 0 ++ result.reverse

def cidV0 (response : AiResponsePayload) : Option String :=
  base58btcEncode response.responseIpfsCid.items

def cidV0ToMultihash (cid : String) : Except String (Bytes 34) :=
  match base58btcDecode cid with
  | none => .error ("Invalid base58 CID: " ++ cid)
  | some bytes =>
      if sized : bytes.length = 34 then
        if bytes[0] = 0x12 ∧ bytes[1] = 0x20 then .ok ⟨bytes, sized⟩
        else .error ("CID is not a CIDv0 sha2-256 multihash: " ++ cid)
      else .error ("CID is not a CIDv0 sha2-256 multihash: " ++ cid)

/-! The loops convert. -/

structure Radix.Exact (radix : Radix) (base scale : Nat) : Prop where
  wide : 1 < base
  positive : 0 < scale
  bound : base * scale ≤ 2 ^ 32
  scales : ∀ digit : UInt8, digit.toNat < base →
    (radix.scale digit.toUInt32).toNat = digit.toNat * scale
  lows : ∀ carry, (radix.low carry).toNat = carry.toNat % base
  highs : ∀ carry, (radix.high carry).toNat = carry.toNat / base

theorem radix58_exact : radix58.Exact 58 256 where
  wide := by decide
  positive := by decide
  bound := by decide
  scales digit small := by
    rw [radix58, UInt32.toNat_shiftLeft, UInt8.toNat_toUInt32, Nat.shiftLeft_eq]
    exact Nat.mod_eq_of_lt (by simp; omega)
  lows carry := by
    rw [radix58, UInt32.toNat_toUInt8, UInt32.toNat_mod]
    simp
    omega
  highs carry := UInt32.toNat_div ..

theorem radix256_exact : radix256.Exact 256 58 where
  wide := by decide
  positive := by decide
  bound := by decide
  scales digit small := by
    rw [radix256, UInt32.toNat_mul, UInt8.toNat_toUInt32]
    exact Nat.mod_eq_of_lt (by simp; omega)
  lows carry := by
    have mask : (carry &&& 0xFF).toNat = carry.toNat % 2 ^ 8 := by
      rw [UInt32.toNat_and]
      exact Nat.and_two_pow_sub_one_eq_mod carry.toNat 8
    rw [radix256, UInt32.toNat_toUInt8, mask]
    omega
  highs carry := by
    rw [radix256, UInt32.toNat_shiftRight, Nat.shiftRight_eq_div_pow]
    rfl

section Loops
variable {radix : Radix} {base scale : Nat} (exact : radix.Exact base scale)
include exact

theorem push_exact (carry : UInt32) :
    naturals (radix.push carry) = Nat.digits base carry.toNat := by
  induction carry using Radix.push.induct radix with
  | case1 carry positive ih =>
      have present : 0 < carry.toNat := UInt32.lt_iff_toNat_lt.mp positive
      rw [Radix.push, dif_pos positive, Nat.digits_def' exact.wide present, ← exact.lows,
        ← exact.highs, ← ih]
      rfl
  | case2 carry zero =>
      have none : carry.toNat = 0 := by
        have := mt UInt32.lt_iff_toNat_lt.mpr zero
        exact Nat.eq_zero_of_not_pos this
      rw [Radix.push, dif_neg zero, none, Nat.digits_zero]
      rfl

theorem absorb_exact (digits : List UInt8) {carry : UInt32} (below : carry.toNat < scale)
    (small : ∀ digit ∈ digits, digit.toNat < base) :
    naturals (radix.absorb digits carry) = absorb base scale (naturals digits) carry.toNat := by
  induction digits generalizing carry with
  | nil => exact push_exact exact carry
  | cons digit rest ih =>
      have inside := small digit List.mem_cons_self
      have product : carry.toNat + digit.toNat * scale < base * scale :=
        calc carry.toNat + digit.toNat * scale < scale + digit.toNat * scale := by omega
          _ = (digit.toNat + 1) * scale := by rw [Nat.succ_mul, Nat.add_comm]
          _ ≤ base * scale := Nat.mul_le_mul_right scale inside
      have sum : (carry + radix.scale digit.toUInt32).toNat = carry.toNat + digit.toNat * scale := by
        rw [UInt32.toNat_add, exact.scales digit inside]
        exact Nat.mod_eq_of_lt (Nat.lt_of_lt_of_le product exact.bound)
      have next : (radix.high (carry + radix.scale digit.toUInt32)).toNat < scale := by
        rw [exact.highs, sum]
        exact Nat.div_lt_of_lt_mul product
      have tail := ih next fun other member => small other (List.mem_cons_of_mem _ member)
      rw [exact.highs, sum] at tail
      rw [Radix.absorb, naturals, List.map_cons, exact.lows, sum]
      exact congrArg _ tail

theorem fold_exact (input : List UInt8) (small : ∀ digit ∈ input, digit.toNat < scale) :
    naturals (input.foldl (fun digits digit => radix.absorb digits digit.toUInt32) [0]) =
      padded base (number scale (naturals input)) := by
  -- the digits so far are those of a number
  have general (digits : List UInt8) (value : Nat)
      (stands : naturals digits = padded base value) :
      naturals (input.foldl (fun digits digit => radix.absorb digits digit.toUInt32) digits) =
        padded base ((naturals input).foldl (fun value d => value * scale + d) value) := by
    induction input generalizing digits value with
    | nil => exact stands
    | cons digit rest ih =>
        apply ih fun other member => small other (List.mem_cons_of_mem _ member)
        have below : digit.toUInt32.toNat < scale := small digit List.mem_cons_self
        have inside : ∀ other ∈ digits, other.toNat < base := by
          intro other member
          apply padded_small exact.wide value
          rw [← stands]
          exact List.mem_map_of_mem member
        rw [absorb_exact exact digits below inside, stands,
          absorb_padded exact.wide exact.positive, UInt8.toNat_toUInt32]
  exact general [0] 0 rfl

end Loops

/-! Letters and digits. -/

theorem letters_ascii : ∀ letter ∈ alphabet, letter < 128 := by decide +kernel

theorem alphabet_length : alphabet.length = 58 := by decide +kernel

theorem letter_read {digit letter : UInt8} (letters : alphabet[digit.toNat]? = some letter) :
    digitOf letter = some digit := by
  have all : ∀ i < 58, alphabet[i]?.bind digitOf = some (UInt8.ofNat i) := by decide +kernel
  obtain ⟨inside, _⟩ := List.getElem?_eq_some_iff.mp letters
  rw [alphabet_length] at inside
  have read := all digit.toNat inside
  rwa [letters, UInt8.ofNat_toNat] at read

theorem digit_written {digit letter : UInt8} (digits : digitOf letter = some digit) :
    alphabet[digit.toNat]? = some letter := by
  have all : ∀ c : Fin 256, ∀ d ∈ digitOf (UInt8.ofFin c), alphabet[d.toNat]? = some (UInt8.ofFin c) := by
    decide +kernel
  exact all letter.toFin digit digits

theorem digits_letters {digits letters : List UInt8} :
    (digits.mapM fun digit => alphabet[digit.toNat]?) = some letters ↔
      letters.mapM digitOf = some digits := by
  rw [all_found, all_found]
  exact read_back fun _ _ => ⟨letter_read, digit_written⟩

theorem digits_small {digits letters : List UInt8} (read : letters.mapM digitOf = some digits) :
    ∀ digit ∈ digits, digit.toNat < 58 := by
  intro digit member
  have listed : some digit ∈ letters.map digitOf := by
    rw [all_found.mp read]
    exact List.mem_map_of_mem member
  obtain ⟨letter, _, found⟩ := List.mem_map.mp listed
  obtain ⟨inside, _⟩ := List.getElem?_eq_some_iff.mp (digit_written found)
  exact alphabet_length ▸ inside

theorem read_ascii {digits letters : List UInt8} (read : letters.mapM digitOf = some digits) :
    Ascii letters := by
  intro letter member
  have listed : digitOf letter ∈ digits.map some := by
    rw [← all_found.mp read]
    exact List.mem_map_of_mem member
  obtain ⟨digit, _, found⟩ := List.mem_map.mp listed
  exact letters_ascii letter (List.mem_of_getElem? (digit_written found.symm))

/-- Every digit below 58 has its letter. -/
theorem written {digits : List UInt8} (small : ∀ digit ∈ digits, digit.toNat < 58) :
    ∃ letters : List UInt8, letters.mapM digitOf = some digits := by
  induction digits with
  | nil => exact ⟨[], rfl⟩
  | cons digit rest ih =>
      have inside : digit.toNat < alphabet.length := by
        rw [alphabet_length]
        exact small digit List.mem_cons_self
      have found := letter_read (List.getElem?_eq_getElem inside)
      obtain ⟨letters, others⟩ := ih fun other member => small other (List.mem_cons_of_mem _ member)
      refine ⟨alphabet[digit.toNat] :: letters, ?_⟩
      rw [all_found] at others ⊢
      rw [List.map_cons, found, others, List.map_cons]

/-! The two directions. -/

theorem none_leads {items : List UInt8} {value : UInt8} (first : items.head? ≠ some value) :
    items.takeWhile (· == value) = [] := by
  cases items with
  | nil => rfl
  | cons item rest =>
      have other : item ≠ value := fun same => first (congrArg some same)
      simp [other]

theorem encode_of_digits {input digits letters : List UInt8} (first : input.head? ≠ some 0)
    (converted : naturals digits = (padded 58 (number 256 (naturals input))).reverse)
    (read : letters.mapM digitOf = some digits) :
    base58btcEncode input = some (asciiText letters) := by
  have looped : (input.foldl (fun digits byte => radix58.absorb digits byte.toUInt32) [0]).reverse =
      digits := by
    apply naturals_injective
    rw [naturals_reverse, fold_exact radix58_exact input fun byte _ => byte.toNat_lt, converted]
  rw [base58btcEncode, none_leads first, looped, digits_letters.mpr read]
  rfl

theorem fold_digits (letters result : List UInt8) :
    letters.foldlM (fun result c =>
        (digitOf c).map fun digit => radix256.absorb result digit.toUInt32) result =
      (letters.mapM digitOf).map fun digits =>
        digits.foldl (fun result digit => radix256.absorb result digit.toUInt32) result := by
  induction letters generalizing result with
  | nil => rfl
  | cons letter rest ih =>
      rw [List.foldlM_cons, List.mapM_cons]
      cases digitOf letter with
      | none => rfl
      | some digit =>
          simp only [Option.map_some, Option.bind_eq_bind, Option.bind_some, ih]
          cases rest.mapM digitOf <;> rfl

theorem decode_iff {text : String} (first : (utf8 text).head? ≠ some 0x31) {bytes : List UInt8} :
    base58btcDecode text = some bytes ↔ ∃ digits, (utf8 text).mapM digitOf = some digits ∧
      naturals bytes = (padded 256 (number 58 (naturals digits))).reverse := by
  rw [base58btcDecode, none_leads first, fold_digits, Option.map_map, Option.map_eq_some_iff]
  apply exists_congr
  intro digits
  apply and_congr_right
  intro read
  rw [← naturals_injective.eq_iff]
  change naturals (List.foldl _ [0] digits).reverse = naturals bytes ↔ _
  rw [naturals_reverse, fold_exact radix256_exact digits (digits_small read)]
  exact eq_comm

theorem digit_zero : digitOf 0x31 = some 0 := by decide +kernel

theorem one_leads {digits letters : List UInt8} (read : letters.mapM digitOf = some digits) :
    letters.head? = some 0x31 ↔ digits.head? = some 0 := by
  have heads := congrArg List.head? (all_found.mp read)
  rw [List.head?_map, List.head?_map] at heads
  constructor
  · intro one
    rw [one, Option.map_some, digit_zero] at heads
    cases digits with
    | nil => cases heads
    | cons digit rest => exact Option.some.inj heads.symm
  · intro zero
    rw [zero] at heads
    cases letters with
    | nil => cases heads
    | cons letter rest =>
        have first := digit_written (Option.some.inj heads)
        have same : alphabet[(0 : UInt8).toNat]? = some 0x31 := digit_written digit_zero
        exact first.symm.trans same

theorem naturals_leading {base : Nat} {items : List UInt8} {first : UInt8}
    (small : ∀ item ∈ items, item.toNat < base) (leads : items.head? = some first)
    (nonzero : first ≠ 0) :
    ∃ lead rest, naturals items = lead :: rest ∧ lead ≠ 0 ∧ ∀ digit ∈ lead :: rest, digit < base := by
  obtain ⟨rest, rfl⟩ := List.head?_eq_some_iff.mp leads
  refine ⟨first.toNat, naturals rest, rfl, fun zero => nonzero (UInt8.toNat_inj.mp zero), ?_⟩
  intro digit member
  have listed : digit ∈ naturals (first :: rest) := member
  obtain ⟨item, inside, rfl⟩ := List.mem_map.mp listed
  exact small item inside

/-- Digits without a zero in front come back from a conversion to another base. -/
theorem naturals_back {base other : Nat} (wide : 1 < base) {items : List UInt8}
    (small : ∀ item ∈ items, item.toNat < base) {first : UInt8} (leads : items.head? = some first)
    (nonzero : first ≠ 0) :
    (padded base (number other (padded other (number base (naturals items))).reverse)).reverse =
      naturals items := by
  obtain ⟨lead, rest, split, positive, below⟩ := naturals_leading small leads nonzero
  rw [split, convert_back wide below positive, List.reverse_reverse]

theorem converted_leads {base value : Nat} {digits : List UInt8}
    (converted : naturals digits = (padded base value).reverse) (positive : value ≠ 0) :
    digits.head? ≠ some 0 := by
  obtain ⟨lead, rest, split, nonzero⟩ := @padded_head base value positive
  rw [split] at converted
  intro zero
  obtain ⟨others, rfl⟩ := List.head?_eq_some_iff.mp zero
  exact nonzero (List.cons.inj converted).1.symm

/-- Bytes without a zero in front come back from their text. -/
theorem decode_encoded {input : List UInt8} {byte : UInt8} (first : input.head? = some byte)
    (nonzero : byte ≠ 0) :
    ∃ text, base58btcEncode input = some text ∧ base58btcDecode text = some input := by
  have bytes : ∀ item ∈ input, item.toNat < 256 := fun item _ => item.toNat_lt
  have looped := fold_exact radix58_exact input bytes
  obtain ⟨digits, converted⟩ : ∃ digits, naturals digits =
      (padded 58 (number 256 (naturals input))).reverse := by
    rw [← looped]
    exact ⟨_, naturals_reverse _⟩
  have small : ∀ digit ∈ digits, digit.toNat < 58 := by
    intro digit member
    apply padded_small (by decide) (number 256 (naturals input))
    rw [← List.mem_reverse, ← converted]
    exact List.mem_map_of_mem member
  obtain ⟨letters, read⟩ := written small
  refine ⟨asciiText letters, encode_of_digits ?_ converted read, ?_⟩
  · rw [first]
    exact fun zero => nonzero (Option.some.inj zero)
  · have spelled : utf8 (asciiText letters) = letters := utf8_ascii_text (read_ascii read)
    have unled : (utf8 (asciiText letters)).head? ≠ some 0x31 := by
      rw [spelled, ne_eq, one_leads read]
      -- the first digit of a number above zero is not zero
      apply converted_leads converted
      obtain ⟨lead, rest, split, positive, below⟩ := naturals_leading bytes first nonzero
      rw [split]
      exact number_nonzero (by decide) below positive
    rw [decode_iff unled, spelled]
    refine ⟨digits, read, ?_⟩
    rw [converted]
    exact (naturals_back (by decide) bytes first nonzero).symm

theorem ones_decoded {text : String} {bytes : List UInt8}
    (decoded : base58btcDecode text = some bytes) (one : (utf8 text).head? = some 0x31) :
    bytes.head? = some 0 := by
  obtain ⟨rest, spelled⟩ := List.head?_eq_some_iff.mp one
  obtain ⟨result, _, rfl⟩ := Option.map_eq_some_iff.mp decoded
  rw [spelled]
  rfl

/-- A text of bytes without a zero in front comes back from them. -/
theorem encode_decoded {text : String} {bytes : List UInt8} {byte : UInt8}
    (decoded : base58btcDecode text = some bytes) (first : bytes.head? = some byte)
    (nonzero : byte ≠ 0) : base58btcEncode bytes = some text := by
  have present : bytes.head? ≠ some 0 := by
    rw [first]
    exact fun zero => nonzero (Option.some.inj zero)
  -- a `1` in front would put a zero in front of the bytes
  have unled := mt (ones_decoded decoded) present
  obtain ⟨digits, read, stands⟩ := (decode_iff unled).mp decoded
  have leads : ∃ digit, digits.head? = some digit ∧ digit ≠ 0 := by
    cases digits with
    | nil =>
        have zero : naturals bytes = naturals [0] := stands
        rw [naturals_injective zero] at present
        exact absurd rfl present
    | cons digit rest =>
        refine ⟨digit, rfl, ?_⟩
        rintro rfl
        exact unled ((one_leads read).mpr rfl)
  obtain ⟨digit, leading, positive⟩ := leads
  have converted : naturals digits = (padded 58 (number 256 (naturals bytes))).reverse := by
    rw [stands]
    exact (naturals_back (by decide) (digits_small read) leading positive).symm
  rw [encode_of_digits present converted read, ascii_text_utf8 (read_ascii read)]

/-! Content ids. -/

theorem content_ids_invert :
    (∀ response : AiResponsePayload,
      response.responseIpfsCid.items[0]? = some 0x12 →
      response.responseIpfsCid.items[1]? = some 0x20 →
      ∃ cid, cidV0 response = some cid ∧ cidV0ToMultihash cid = .ok response.responseIpfsCid) ∧
    ∀ cid multihash, cidV0ToMultihash cid = .ok multihash →
      ∀ response : AiResponsePayload, response.responseIpfsCid = multihash →
        cidV0 response = some cid := by
  constructor
  · intro response kind size
    have sized := response.responseIpfsCid.sized
    obtain ⟨cid, encoded, decoded⟩ :=
      decode_encoded (by rw [List.head?_eq_getElem?]; exact kind) (by decide)
    refine ⟨cid, encoded, ?_⟩
    have starts : response.responseIpfsCid.items[0] = 0x12 ∧ response.responseIpfsCid.items[1] = 0x20 :=
      ⟨(List.getElem?_eq_some_iff.mp kind).2, (List.getElem?_eq_some_iff.mp size).2⟩
    unfold cidV0ToMultihash
    simp only [decoded]
    rw [dif_pos sized, if_pos starts]
  · rintro cid multihash accepted response rfl
    unfold cidV0ToMultihash at accepted
    split at accepted
    · cases accepted
    · rename_i bytes decoded
      split at accepted
      · rename_i sized
        split at accepted
        · rename_i starts
          have same := Except.ok.inj accepted
          have first : bytes.head? = some 0x12 := by
            rw [List.head?_eq_getElem?, List.getElem?_eq_getElem (by omega), starts.1]
          rw [cidV0, ← same]
          exact encode_decoded decoded first (by decide)
        · cases accepted
      · cases accepted

def emptyDigest : AiResponsePayload where
  requestHash := zeroBytes 32
  challengeWindowEnd := 0
  responseIpfsCid := ⟨0x12 :: 0x20 :: List.replicate 32 0, by decide⟩
  responseLength := 0

theorem content_ids_invert_zero : ∃ cid, cidV0 emptyDigest = some cid ∧
    cidV0ToMultihash cid = .ok emptyDigest.responseIpfsCid :=
  content_ids_invert.1 emptyDigest rfl rfl

end KeryxMiner.ContentIds
