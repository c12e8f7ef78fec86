import KeryxMiner.BaseConversion
import KeryxMiner.ByteCodec
import Mathlib.Tactic.IntervalCases

/-!
The payout address: `decode_address` of `src/escrow.rs`, its loop from groups of five bits
to bytes, and the script that `EscrowWatcher::new` builds from it.
-/

namespace KeryxMiner.PayoutAddress

open BaseConversion ByteCodec

/-! Texts. -/

/-- `&addr[colon + 1..]`. -/
def afterColon : List Char → Option (List Char)
  | [] => none
  | c :: rest => if c = ':' then some rest else afterColon rest

/-- `len` of a text. -/
def byteLength (text : List Char) : Nat := (text.map Char.utf8Size).sum

/-- `&text[..bytes]`; `none` where it would end within a character. -/
def cut : List Char → Nat → Option (List Char)
  | _, 0 => some []
  | [], _ + 1 => none
  | c :: rest, bytes + 1 =>
      if c.utf8Size ≤ bytes + 1 then (cut rest (bytes + 1 - c.utf8Size)).map (c :: ·) else none

def charset : List Char := "qpzry9x8gf2tvdw0s3jn54khce6mua7l".toList

def rev : Vector UInt8 128 :=
  charset.zipIdx.foldl (fun rev (c, i) => rev.setIfInBounds c.toNat (UInt8.ofNat i))
    (Vector.replicate 128 0xFF)

def value (c : Char) : Option UInt8 :=
  if inside : c.toNat < 128 then if rev[c.toNat] = 0xFF then none else some rev[c.toNat]
  else none

def readData : List Char → Except String (List UInt8)
  | [] => .ok []
  | c :: rest =>
      match value c with
      | none => .error ("Invalid bech32 character '" ++ String.singleton c ++ "'")
      | some digit => (readData rest).map (digit :: ·)

/-! Bits. -/

structure Grouping where
  bytes : List UInt8
  buf : UInt32
  bits : UInt32

/-- A turn of the loop over `data5`. -/
def Grouping.take (state : Grouping) (b : UInt8) : Grouping :=
  -- the bits above the 32nd are lost; the byte needs the twelve lowest
  let buf := (state.buf <<< 5) ||| b.toUInt32
  let bits := state.bits + 5
  if 8 ≤ bits then
    { bytes := state.bytes ++ [(buf >>> (bits - 8)).toUInt8], buf := buf, bits := bits - 8 }
  else { state with buf := buf, bits := bits }

def grouped (data5 : List UInt8) : List UInt8 := (data5.foldl Grouping.take ⟨[], 0, 0⟩).bytes

/-! Addresses. -/

def versionAndKey (bytes : List UInt8) : Except String (UInt16 × Bytes 32) :=
  if enough : 33 ≤ bytes.length then
    .ok (bytes[0].toUInt16,
      ⟨(bytes.drop 1).take 32, by rw [List.length_take, List.length_drop]; omega⟩)
  else .error ("Expected ≥33 decoded bytes, got " ++ toString bytes.length)

/-- `none` is a slice that ends within a character. -/
def decodeAddress (addr : String) : Option (Except String (UInt16 × Bytes 32)) :=
  match afterColon addr.toList with
  | none => some (.error "Missing ':' in address")
  | some dataWithChecksum =>
      if byteLength dataWithChecksum < 9 then some (.error "Address too short")
      else
        -- the checksum is dropped and not looked at
        (cut dataWithChecksum (byteLength dataWithChecksum - 8)).map fun dataStr =>
          match readData dataStr with
          | .error e => .error e
          | .ok data5 => versionAndKey (grouped data5)

def opChecksig : UInt8 := 0xac

def buildP2pkScript (pubkey : Bytes 32) : List UInt8 := 0x20 :: pubkey.items ++ [opChecksig]

/-! The loop groups the bits. -/

/-- The groups of eight bits of the digits; the bits left at the end are dropped. -/
def payload (digits : List UInt8) : List Nat :=
  fixed 256 (5 * digits.length / 8)
    (number 32 (naturals digits) / 2 ^ (5 * digits.length % 8))

/-- The groups of five bits of the bytes, the last filled with zeros. -/
def regrouped (bytes : List Nat) : List Nat :=
  fixed 32 ((8 * bytes.length + 4) / 5)
    (number 256 bytes * 2 ^ (5 * ((8 * bytes.length + 4) / 5) - 8 * bytes.length))

/-- The loop after `count` digits that make up `total`. -/
structure Taken (count total : Nat) (state : Grouping) : Prop where
  bits : state.bits.toNat = 5 * count % 8
  length : state.bytes.length = 5 * count / 8
  bytes : number 256 (naturals state.bytes) = total / 2 ^ (5 * count % 8)
  buf : state.buf.toNat = total % 2 ^ 32

theorem shifted_in {buf : UInt32} {b : UInt8} {total : Nat} (held : buf.toNat = total % 2 ^ 32)
    (small : b.toNat < 32) :
    ((buf <<< 5) ||| b.toUInt32).toNat = (total * 32 + b.toNat) % 2 ^ 32 := by
  have shifted : (buf <<< 5).toNat = 2 ^ 5 * (total % 2 ^ 27) := by
    rw [UInt32.toNat_shiftLeft, Nat.shiftLeft_eq, held]
    simp
    omega
  rw [UInt32.toNat_or, shifted, UInt8.toNat_toUInt32,
    ← Nat.two_pow_add_eq_or_of_lt small]
  omega

/-- Eight bits that are whole with the digit: the bits so far and the byte they give. -/
theorem byte_completed {total b spare : Nat} (low : 3 ≤ spare) (high : spare < 8) (small : b < 32) :
    total / 2 ^ spare * 256 + (total * 32 + b) % 2 ^ 32 / 2 ^ (spare - 3) % 256 =
      (total * 32 + b) / 2 ^ (spare - 3) := by
  interval_cases spare <;> simp only [Nat.reduceSub, Nat.reducePow] <;> omega

theorem byte_pending {total b spare : Nat} (low : spare < 3) (small : b < 32) :
    total / 2 ^ spare = (total * 32 + b) / 2 ^ (spare + 5) := by
  interval_cases spare <;> simp only [Nat.reduceAdd, Nat.reducePow] <;> omega

theorem take_exact {count total : Nat} {state : Grouping} (taken : Taken count total state)
    {b : UInt8} (small : b.toNat < 32) :
    Taken (count + 1) (total * 32 + b.toNat) (state.take b) := by
  have below : 5 * count % 8 < 8 := Nat.mod_lt _ (by decide)
  have buf := shifted_in taken.buf small
  have bits : (state.bits + 5).toNat = 5 * count % 8 + 5 := by
    rw [UInt32.toNat_add, taken.bits]
    exact Nat.mod_eq_of_lt (by simp; omega)
  have full : 8 ≤ state.bits + 5 ↔ 3 ≤ 5 * count % 8 := by
    rw [UInt32.le_iff_toNat_le, bits]
    simp
  unfold Grouping.take
  dsimp only
  split
  · rename_i enough
    have low := full.mp enough
    have spare : (state.bits + 5 - 8).toNat = 5 * count % 8 - 3 := by
      rw [UInt32.toNat_sub_of_le _ _ enough, bits]
      simp
    have next : 5 * (count + 1) % 8 = 5 * count % 8 - 3 := by omega
    refine ⟨spare.trans next.symm, ?_, ?_, buf⟩
    · rw [List.length_append, taken.length, List.length_singleton]
      omega
    · have byte : (((state.buf <<< 5) ||| b.toUInt32) >>> (state.bits + 5 - 8)).toUInt8.toNat =
          (total * 32 + b.toNat) % 2 ^ 32 / 2 ^ (5 * count % 8 - 3) % 256 := by
        have amount : (5 * count % 8 - 3) % 32 = 5 * count % 8 - 3 := Nat.mod_eq_of_lt (by omega)
        rw [UInt32.toNat_toUInt8, UInt32.toNat_shiftRight, buf, spare, amount,
          Nat.shiftRight_eq_div_pow]
      rw [naturals, List.map_append, List.map_singleton, number_append, byte, next]
      exact (congrArg (· * 256 + _) taken.bytes).trans (byte_completed low below small)
  · rename_i short
    have low : 5 * count % 8 < 3 := Nat.lt_of_not_le (mt full.mpr short)
    have next : 5 * (count + 1) % 8 = 5 * count % 8 + 5 := by omega
    refine ⟨bits.trans next.symm, ?_, ?_, buf⟩
    · rw [taken.length]
      omega
    · rw [next, ← byte_pending low small]
      exact taken.bytes

theorem grouped_exact {digits : List UInt8} (small : ∀ digit ∈ digits, digit.toNat < 32) :
    naturals (grouped digits) = payload digits := by
  have taken : Taken digits.length (number 32 (naturals digits))
      (digits.foldl Grouping.take ⟨[], 0, 0⟩) := by
    induction digits using List.reverseRecOn with
    | nil => exact ⟨rfl, rfl, rfl, rfl⟩
    | append_singleton before digit ih =>
        have earlier := ih fun other member => small other (List.mem_append_left _ member)
        have step := take_exact earlier (small digit (by simp))
        rw [List.length_append, List.length_singleton, naturals, List.map_append,
          List.map_singleton, number_append, List.foldl_append]
        exact step
  have bytes : ∀ byte ∈ naturals (grouped digits), byte < 256 := by
    intro byte member
    obtain ⟨item, _, rfl⟩ := List.mem_map.mp member
    exact item.toNat_lt
  have length : (naturals (grouped digits)).length = 5 * digits.length / 8 :=
    (List.length_map _).trans taken.length
  rw [payload, ← taken.bytes, ← length]
  exact (fixed_number bytes).symm

/-! The parts of the text. -/

theorem after_colon_iff {text rest : List Char} :
    afterColon text = some rest ↔ ∃ before, text = before ++ ':' :: rest ∧ ':' ∉ before := by
  induction text with
  | nil => simp [afterColon]
  | cons c others ih =>
      unfold afterColon
      split
      · rename_i colon
        subst colon
        constructor
        · intro same
          obtain rfl := Option.some.inj same
          exact ⟨[], rfl, List.not_mem_nil⟩
        · rintro ⟨before, split, none⟩
          cases before with
          | nil => exact congrArg some (List.cons.inj split).2
          | cons first _ =>
              obtain rfl := (List.cons.inj split).1
              exact absurd List.mem_cons_self none
      · rename_i other
        rw [ih]
        constructor
        · rintro ⟨before, rfl, none⟩
          refine ⟨c :: before, rfl, ?_⟩
          rw [List.mem_cons]
          rintro (colon | later)
          · exact other colon.symm
          · exact none later
        · rintro ⟨before, split, none⟩
          cases before with
          | nil => exact absurd (List.cons.inj split).1 other
          | cons first later =>
              obtain ⟨rfl, rfl⟩ := List.cons.inj split
              exact ⟨later, rfl, fun member => none (List.mem_cons_of_mem _ member)⟩

theorem byte_length_append (left right : List Char) :
    byteLength (left ++ right) = byteLength left + byteLength right := by
  rw [byteLength, List.map_append, List.sum_append]
  rfl

theorem byte_length_cons (c : Char) (rest : List Char) :
    byteLength (c :: rest) = c.utf8Size + byteLength rest := rfl

theorem cut_iff {text data : List Char} {bytes : Nat} :
    cut text bytes = some data ↔ ∃ rest, text = data ++ rest ∧ byteLength data = bytes := by
  induction text generalizing data bytes with
  | nil =>
      cases bytes with
      | zero =>
          constructor
          · intro same
            obtain rfl := Option.some.inj same
            exact ⟨[], rfl, rfl⟩
          · rintro ⟨rest, split, _⟩
            rw [(List.append_eq_nil_iff.mp split.symm).1]
            rfl
      | succ bytes =>
          constructor
          · intro same
            cases same
          · rintro ⟨rest, split, length⟩
            rw [(List.append_eq_nil_iff.mp split.symm).1] at length
            cases length
  | cons c others ih =>
      cases bytes with
      | zero =>
          constructor
          · intro same
            obtain rfl := Option.some.inj same
            exact ⟨c :: others, rfl, rfl⟩
          · rintro ⟨rest, _, length⟩
            cases data with
            | nil => rfl
            | cons first data =>
                have positive := first.utf8Size_pos
                rw [byte_length_cons] at length
                omega
      | succ bytes =>
          rw [cut, Option.ite_none_right_eq_some, Option.map_eq_some_iff]
          constructor
          · rintro ⟨room, data, found, rfl⟩
            obtain ⟨rest, split, length⟩ := ih.mp found
            refine ⟨rest, by rw [split, List.cons_append], ?_⟩
            rw [byte_length_cons, length]
            omega
          · rintro ⟨rest, split, length⟩
            cases data with
            | nil => cases length
            | cons first data =>
                obtain ⟨rfl, tail⟩ := List.cons.inj split
                rw [byte_length_cons] at length
                exact ⟨by omega, data, ih.mpr ⟨rest, tail, by omega⟩, rfl⟩

theorem cut_checksum (data : List Char) {checksum : List Char} (sized : byteLength checksum = 8) :
    cut (data ++ checksum) (byteLength (data ++ checksum) - 8) = some data := by
  rw [cut_iff, byte_length_append, sized, Nat.add_sub_cancel]
  exact ⟨checksum, rfl, rfl⟩

theorem read_data_iff {text : List Char} {digits : List UInt8} :
    readData text = .ok digits ↔ text.map value = digits.map some := by
  induction text generalizing digits with
  | nil => cases digits <;> simp [readData]
  | cons c rest ih =>
      rw [List.map_cons, readData]
      cases value c with
      | none => cases digits <;> simp
      | some digit =>
          cases read : readData rest with
          | error e =>
              rw [read] at ih
              cases digits with
              | nil => simp [Except.map]
              | cons first others => simp [Except.map, ← ih]
          | ok found =>
              rw [read] at ih
              cases digits with
              | nil => simp [Except.map]
              | cons first others => simp [Except.map, ← ih]

/-! Characters. -/

theorem charset_length : charset.length = 32 := by decide +kernel

theorem value_iff {c : Char} {digit : UInt8} :
    value c = some digit ↔ charset[digit.toNat]? = some c := by
  constructor
  · intro read
    have inside : c.toNat < 128 := by
      unfold value at read
      split at read
      · assumption
      · cases read
    have all : ∀ code < 128, ∀ digit ∈ value (Char.ofNat code),
        charset[digit.toNat]? = some (Char.ofNat code) := by decide +kernel
    have found := all c.toNat inside digit
    rw [Char.ofNat_toNat] at found
    exact found read
  · intro spelled
    have all : ∀ i < 32, charset[i]?.bind value = some (UInt8.ofNat i) := by decide +kernel
    obtain ⟨inside, _⟩ := List.getElem?_eq_some_iff.mp spelled
    rw [charset_length] at inside
    have read := all digit.toNat inside
    rwa [spelled, UInt8.ofNat_toNat] at read

/-! Addresses. -/

/-- The text after the first colon: characters of `charset`, then eight bytes of checksum. -/
structure Address (addr : String) (data checksum : List Char) (digits : List UInt8) : Prop where
  text : ∃ before, addr.toList = before ++ ':' :: (data ++ checksum) ∧ ':' ∉ before
  spelled : digits.map (fun digit => charset[digit.toNat]?) = data.map some
  checksum : byteLength checksum = 8

/-- The last eight bytes after the first colon are whole characters. -/
def Whole (addr : String) : Prop :=
  ∀ before text, addr.toList = before ++ ':' :: text → ':' ∉ before → 9 ≤ byteLength text →
    ∃ data checksum, text = data ++ checksum ∧ byteLength checksum = 8

theorem digits_below {data : List Char} {digits : List UInt8}
    (spelled : digits.map (fun digit => charset[digit.toNat]?) = data.map some) :
    ∀ digit ∈ digits, digit.toNat < 32 := by
  intro digit member
  have listed : charset[digit.toNat]? ∈ data.map some :=
    spelled ▸ List.mem_map_of_mem (f := fun digit : UInt8 => charset[digit.toNat]?) member
  obtain ⟨c, _, found⟩ := List.mem_map.mp listed
  obtain ⟨inside, _⟩ := List.getElem?_eq_some_iff.mp found.symm
  exact charset_length ▸ inside

theorem address_unique {addr : String} {data others checksum tail : List Char}
    {digits values : List UInt8} (left : Address addr data checksum digits)
    (right : Address addr others tail values) : data = others ∧ digits = values := by
  have text : some (data ++ checksum) = some (others ++ tail) :=
    (after_colon_iff.mpr left.text).symm.trans (after_colon_iff.mpr right.text)
  have same : some data = some others := by
    rw [← cut_checksum data left.checksum, Option.some.inj text, cut_checksum others right.checksum]
  obtain rfl := Option.some.inj same
  have read := (read_back fun _ _ => value_iff).mpr left.spelled
  rw [(read_back fun _ _ => value_iff).mpr right.spelled] at read
  exact ⟨rfl, (List.map_injective_iff.mpr (Option.some_injective _) read).symm⟩

theorem version_and_key_iff {bytes : List UInt8} {version : UInt16} {key : Bytes 32} :
    versionAndKey bytes = .ok (version, key) ↔
      ∃ rest, naturals bytes = version.toNat :: naturals key.items ++ rest := by
  unfold versionAndKey
  constructor
  · intro found
    split at found
    · rename_i enough
      obtain ⟨rfl, rfl⟩ := Prod.mk.inj (Except.ok.inj found)
      refine ⟨naturals (bytes.drop 33), ?_⟩
      have parts : bytes = bytes[0] :: ((bytes.drop 1).take 32 ++ bytes.drop 33) := by
        have later : bytes.drop 33 = (bytes.drop 1).drop 32 := by rw [List.drop_drop]
        rw [later, List.take_append_drop, List.getElem_cons_drop]
        rfl
      conv_lhs => rw [parts]
      simp [naturals]
    · cases found
  · rintro ⟨rest, same⟩
    obtain ⟨first, tail, rfl, head, later⟩ := List.map_eq_cons_iff.mp same
    obtain ⟨items, others, rfl, keyed, _⟩ := List.map_eq_append_iff.mp later
    obtain rfl := naturals_injective keyed
    have sized := key.sized
    have enough : 33 ≤ (first :: (key.items ++ others)).length := by
      rw [List.length_cons, List.length_append, sized]
      omega
    rw [dif_pos enough]
    have named : first.toUInt16 = version := UInt16.toNat_inj.mp ((UInt8.toNat_toUInt16 _).trans head)
    have kept : ((first :: (key.items ++ others)).drop 1).take 32 = key.items := by
      rw [List.drop_one, List.tail_cons]
      exact List.take_left' sized
    congr 2
    ext1
    exact kept

theorem decode_address_iff {addr : String} {version : UInt16} {key : Bytes 32} :
    decodeAddress addr = some (.ok (version, key)) ↔
      ∃ data checksum digits rest, Address addr data checksum digits ∧
        payload digits = version.toNat :: naturals key.items ++ rest := by
  unfold decodeAddress
  constructor
  · intro found
    split at found
    · cases found
    · rename_i text parted
      obtain ⟨before, split, none⟩ := after_colon_iff.mp parted
      split at found
      · cases found
      · rename_i long
        obtain ⟨data, taken, decoded⟩ := Option.map_eq_some_iff.mp found
        obtain ⟨checksum, rfl, length⟩ := cut_iff.mp taken
        split at decoded
        · cases decoded
        · rename_i digits read
          have spelled := (read_back fun _ _ => value_iff).mp (read_data_iff.mp read)
          obtain ⟨rest, bytes⟩ := version_and_key_iff.mp decoded
          rw [grouped_exact (digits_below spelled)] at bytes
          refine ⟨data, checksum, digits, rest, ⟨⟨before, split, none⟩, spelled, ?_⟩, bytes⟩
          rw [byte_length_append] at length long
          omega
  · rintro ⟨data, checksum, digits, rest, address, bytes⟩
    have parted := after_colon_iff.mpr address.text
    have read : readData data = .ok digits :=
      read_data_iff.mpr ((read_back fun _ _ => value_iff).mpr address.spelled)
    have long : ¬ byteLength (data ++ checksum) < 9 := by
      cases data with
      | nil =>
          have none : digits = [] := List.map_eq_nil_iff.mp address.spelled
          subst none
          cases bytes
      | cons c others =>
          have positive := c.utf8Size_pos
          rw [byte_length_append, byte_length_cons, address.checksum]
          omega
    rw [← grouped_exact (digits_below address.spelled)] at bytes
    have decoded := version_and_key_iff.mpr ⟨rest, bytes⟩
    simp only [parted, if_neg long, cut_checksum data address.checksum, read, Option.map_some,
      decoded]

theorem decode_whole {addr : String} (whole : Whole addr) : decodeAddress addr ≠ none := by
  unfold decodeAddress
  split
  · exact Option.some_ne_none _
  · rename_i text parted
    obtain ⟨before, split, none⟩ := after_colon_iff.mp parted
    split
    · exact Option.some_ne_none _
    · rename_i long
      obtain ⟨data, checksum, rfl, length⟩ := whole before text split none (by omega)
      rw [cut_checksum data length]
      exact Option.some_ne_none _

/-! The characters and the script from the fields. -/

/-- Fifty-three digits with a last bit of zero are the groups of their thirty-three bytes. -/
theorem regrouped_iff {digits : List UInt8} (small : ∀ digit ∈ digits, digit.toNat < 32)
    {bytes rest : List Nat} (decoded : payload digits = bytes ++ rest) (length : bytes.length = 33) :
    regrouped bytes = naturals digits ↔
      digits.length = 53 ∧ number 32 (naturals digits) % 2 = 0 := by
  have below : ∀ digit ∈ naturals digits, digit < 32 := by
    intro digit member
    obtain ⟨item, listed, rfl⟩ := List.mem_map.mp member
    exact small item listed
  have count : (naturals digits).length = digits.length := List.length_map _
  have groups : regrouped bytes = fixed 32 53 (number 256 bytes * 2) := by
    rw [regrouped, length]
    rfl
  -- thirty-three bytes and one bit
  have halved (full : digits.length = 53) : number 256 bytes = number 32 (naturals digits) / 2 := by
    have sizes := congrArg List.length decoded
    rw [payload, fixed_length, full, List.length_append, length] at sizes
    have none : rest = [] := List.eq_nil_of_length_eq_zero (by omega)
    have bound : number 32 (naturals digits) < 2 * 256 ^ 33 := by
      have := number_lt (by decide) below
      rw [count, full] at this
      exact Nat.lt_of_lt_of_eq this (by norm_num)
    rw [none, List.append_nil, payload, full] at decoded
    rw [← decoded, number_fixed]
    exact Nat.mod_eq_of_lt (Nat.div_lt_of_lt_mul bound)
  rw [groups]
  constructor
  · intro back
    have full : digits.length = 53 := by rw [← count, ← back, fixed_length]
    refine ⟨full, ?_⟩
    have bound := number_lt (by decide) below
    rw [count, full] at bound
    have same := congrArg (number 32) back
    rw [halved full, number_fixed, Nat.mod_eq_of_lt (by omega)] at same
    omega
  · rintro ⟨full, even⟩
    have whole : number 256 bytes * 2 = number 32 (naturals digits) := by
      rw [halved full]
      omega
    rw [whole, ← full, ← count]
    exact fixed_number below

theorem group_iff {c : Char} {group : Nat} :
    (value c).map UInt8.toNat = some group ↔ charset[group]? = some c := by
  rw [Option.map_eq_some_iff]
  constructor
  · rintro ⟨digit, read, rfl⟩
    exact value_iff.mp read
  · intro spelled
    obtain ⟨inside, _⟩ := List.getElem?_eq_some_iff.mp spelled
    rw [charset_length] at inside
    have same : (UInt8.ofNat group).toNat = group := Nat.mod_eq_of_lt (by omega)
    exact ⟨UInt8.ofNat group, value_iff.mpr (by rw [same]; exact spelled), same⟩

theorem characters_back {data : List Char} {digits : List UInt8} {groups : List Nat}
    (spelled : digits.map (fun digit => charset[digit.toNat]?) = data.map some) :
    groups.map (fun group => charset[group]?) = data.map some ↔ groups = naturals digits := by
  have spelled : (naturals digits).map (fun group => charset[group]?) = data.map some := by
    rw [naturals, List.map_map]
    exact spelled
  have read := (read_back fun _ _ => group_iff).mpr spelled
  rw [← read_back fun _ _ => group_iff, read, (List.map_injective_iff.mpr
    (Option.some_injective Nat)).eq_iff]
  exact eq_comm

/-- What is accepted, and what its characters and its script carry. -/
theorem decode_address_exact :
    (∀ addr version key, decodeAddress addr = some (.ok (version, key)) ↔
      ∃ data checksum digits rest, Address addr data checksum digits ∧
        payload digits = version.toNat :: naturals key.items ++ rest) ∧
    (∀ addr, Whole addr → decodeAddress addr ≠ none) ∧
    ∀ addr version key data checksum digits, decodeAddress addr = some (.ok (version, key)) →
      Address addr data checksum digits →
      ((regrouped (version.toNat :: naturals key.items)).map (fun group => charset[group]?) =
          data.map some ↔ digits.length = 53 ∧ number 32 (naturals digits) % 2 = 0) ∧
      ((payload digits).length = 33 → naturals (buildP2pkScript key) =
          0x20 :: (payload digits).tail ++ [opChecksig.toNat]) := by
  refine ⟨fun addr version key => decode_address_iff, fun addr => decode_whole, ?_⟩
  intro addr version key data checksum digits decoded address
  obtain ⟨others, tail, values, rest, found, bytes⟩ := decode_address_iff.mp decoded
  obtain ⟨rfl, rfl⟩ := address_unique address found
  have sized : (version.toNat :: naturals key.items).length = 33 := by
    rw [List.length_cons, naturals, List.length_map, key.sized]
  constructor
  · rw [characters_back address.spelled]
    exact regrouped_iff (digits_below address.spelled) bytes sized
  · intro whole
    rw [bytes, List.length_append, sized] at whole
    have none : rest = [] := List.eq_nil_of_length_eq_zero (by omega)
    rw [bytes, none, List.append_nil, List.tail_cons, buildP2pkScript, naturals, List.map_append]
    rfl

/-! Accepted texts that are not one version byte and thirty-two bytes. -/

def addressOf (data checksum : List Char) : String := String.ofList ('k' :: ':' :: data ++ checksum)

def eight : List Char := List.replicate 8 'q'

def zeroKey : Bytes 32 := zeroBytes 32

theorem address_of {data checksum : List Char} {digits : List UInt8}
    (spelled : digits.map (fun digit => charset[digit.toNat]?) = data.map some)
    (sized : byteLength checksum = 8) : Address (addressOf data checksum) data checksum digits where
  text := ⟨['k'], by rw [addressOf, String.toList_ofList]; rfl, by decide⟩
  spelled := spelled
  checksum := sized

theorem address_accepted {data checksum : List Char} {digits : List UInt8} {version : UInt16}
    {key : Bytes 32} {rest : List Nat}
    (spelled : digits.map (fun digit => charset[digit.toNat]?) = data.map some)
    (sized : byteLength checksum = 8)
    (bytes : payload digits = version.toNat :: naturals key.items ++ rest) :
    decodeAddress (addressOf data checksum) = some (.ok (version, key)) :=
  decode_address_iff.mpr ⟨data, checksum, digits, rest, address_of spelled sized, bytes⟩

/-- The bytes 7, 14, 21 and so on. -/
def sampleKey : Bytes 32 := ⟨(List.range 32).map fun i => UInt8.ofNat (7 * (i + 1)), rfl⟩

def sampleDigits : List UInt8 :=
  (regrouped ((1 : UInt16).toNat :: naturals sampleKey.items)).map UInt8.ofNat

def sampleData : List Char := sampleDigits.map fun digit => (charset[digit.toNat]?).getD ' '

theorem decode_address_exact_sample :
    decodeAddress (addressOf sampleData eight) = some (.ok (1, sampleKey)) ∧
      (regrouped ((1 : UInt16).toNat :: naturals sampleKey.items)).map
        (fun group => charset[group]?) = sampleData.map some ∧
      naturals (buildP2pkScript sampleKey) = 0x20 :: naturals sampleKey.items ++ [0xac] := by
  have spelled : sampleDigits.map (fun digit => charset[digit.toNat]?) = sampleData.map some := by
    decide +kernel
  have sized : byteLength eight = 8 := by decide +kernel
  have decoded := @address_accepted _ _ _ 1 sampleKey [] spelled sized (by decide +kernel)
  have carried := decode_address_exact.2.2 (addressOf sampleData eight) 1 sampleKey _ _ _ decoded
    (address_of spelled sized)
  refine ⟨decoded, carried.1.mpr (by decide +kernel), (carried.2 (by decide +kernel)).trans ?_⟩
  decide +kernel

/-- Bech32 characters for the version, the key and zero padding, and eight characters. -/
def Encodes (addr : String) (version : UInt16) (key : Bytes 32) : Prop :=
  ∃ before data checksum digits, addr.toList = before ++ ':' :: (data ++ checksum) ∧
    ':' ∉ before ∧ checksum.length = 8 ∧
    digits.map (fun digit => charset[digit.toNat]?) = data.map some ∧
    payload digits = version.toNat :: naturals key.items ∧
    number 32 (naturals digits) % 2 ^ (5 * digits.length % 8) = 0

theorem encodes_read {data checksum parted : List Char} {digits : List UInt8} {version : UInt16}
    {key : Bytes 32} (encodes : Encodes (addressOf data checksum) version key)
    (split : (data ++ checksum).take ((data ++ checksum).length - 8) = parted)
    (spelled : digits.map (fun digit => charset[digit.toNat]?) = parted.map some) :
    payload digits = version.toNat :: naturals key.items ∧
      number 32 (naturals digits) % 2 ^ (5 * digits.length % 8) = 0 := by
  obtain ⟨before, others, tail, values, text, none, length, named, fields⟩ := encodes
  have whole : some (others ++ tail) = some (data ++ checksum) := by
    rw [← after_colon_iff.mpr ⟨before, text, none⟩, addressOf, String.toList_ofList]
    rfl
  rw [← Option.some.inj whole, List.length_append, length, Nat.add_sub_cancel, List.take_left] at split
  subst split
  have read := (read_back fun _ _ => value_iff).mpr named
  rw [(read_back fun _ _ => value_iff).mpr spelled] at read
  obtain rfl := List.map_injective_iff.mpr (Option.some_injective _) read
  exact fields

theorem addresses_loose :
    -- thirty-four bytes
    (decodeAddress (addressOf (List.replicate 55 'q') eight) = some (.ok (0, zeroKey)) ∧
      ¬ Encodes (addressOf (List.replicate 55 'q') eight) 0 zeroKey) ∧
    -- a padding bit
    (decodeAddress (addressOf (List.replicate 52 'q' ++ ['p']) eight) = some (.ok (0, zeroKey)) ∧
      ¬ Encodes (addressOf (List.replicate 52 'q' ++ ['p']) eight) 0 zeroKey) ∧
    -- two characters of four bytes in place of the checksum
    (decodeAddress (addressOf (List.replicate 53 'q') ['😀', '😀']) = some (.ok (0, zeroKey)) ∧
      ¬ Encodes (addressOf (List.replicate 53 'q') ['😀', '😀']) 0 zeroKey) ∧
    -- six bits of padding
    (decodeAddress (addressOf (List.replicate 54 'q') eight) = some (.ok (0, zeroKey)) ∧
      (regrouped (0 :: naturals zeroKey.items)).map (fun group => charset[group]?) ≠
        (List.replicate 54 'q').map some) ∧
    -- a cut within a character
    decodeAddress (addressOf ['é'] (List.replicate 7 'q')) = none := by
  have sized : byteLength eight = 8 := by decide +kernel
  have faces : byteLength ['😀', '😀'] = 8 := by decide +kernel
  have zeros (count : Nat) : (List.replicate count (0 : UInt8)).map
      (fun digit => charset[digit.toNat]?) = (List.replicate count 'q').map some := by
    have first : charset[(0 : UInt8).toNat]? = some 'q' := by decide +kernel
    rw [List.map_replicate, List.map_replicate, first]
  have padded : (List.replicate 52 (0 : UInt8) ++ [1]).map
      (fun digit : UInt8 => charset[digit.toNat]?) =
      (List.replicate 52 'q' ++ ['p']).map some := by
    have last : charset[(1 : UInt8).toNat]? = some 'p' := by decide +kernel
    rw [List.map_append, zeros, List.map_append, List.map_singleton, last, List.map_singleton]
  refine ⟨⟨@address_accepted _ _ _ 0 zeroKey [0] (zeros 55) sized (by decide +kernel), ?_⟩,
    ⟨@address_accepted _ _ _ 0 zeroKey [] padded sized (by decide +kernel), ?_⟩,
    ⟨@address_accepted _ _ _ 0 zeroKey [] (zeros 53) faces (by decide +kernel), ?_⟩,
    ⟨@address_accepted _ _ _ 0 zeroKey [] (zeros 54) sized (by decide +kernel), by decide +kernel⟩,
    by decide +kernel⟩
  · intro encodes
    have fields := encodes_read encodes (by decide +kernel) (zeros 55)
    exact absurd (congrArg List.length fields.1) (by decide +kernel)
  · intro encodes
    have fields := encodes_read encodes (by decide +kernel) padded
    exact absurd fields.2 (by decide +kernel)
  · intro encodes
    have fields := encodes_read encodes (by decide +kernel) (zeros 47)
    exact absurd (congrArg List.length fields.1) (by decide +kernel)

end KeryxMiner.PayoutAddress
