import KeryxMiner.AsciiText
import KeryxMiner.BaseConversion
import KeryxMiner.ByteSearch
import KeryxMiner.FixedModel
import KeryxMiner.PoolSettings

/-!
The tags in coinbase payloads: `parse_opoi`, `tag_fixed`, `verify_tag_fixed` and
`gen_opoi_extra_data` of `inference/src/lib.rs`. The `hex` crate is a parameter.
-/

namespace KeryxMiner.OpoiTags

open AsciiText BaseConversion ByteCodec ByteSearch FixedModel PoolSettings StratumClient

def coinbaseMinBinaryHeader : Nat := 19

def marker : List UInt8 := utf8 "/ai:v1:"

def nonceHexLen : Nat := 16

def tagHexLen : Nat := 16

def slash : UInt8 := 0x2F

def isAsciiHexdigit (b : UInt8) : Bool :=
  (0x30 ≤ b && b ≤ 0x39) || (0x41 ≤ b && b ≤ 0x46) || (0x61 ≤ b && b ≤ 0x66)

/-- The text of bytes that are UTF-8 and hex digits. -/
def hexText (bytes : List UInt8) : Option String :=
  (fromUtf8 bytes).filter fun text => (utf8 text).all isAsciiHexdigit

/-- The nonce in front of the marker. The outer `none` is an index out of bounds. -/
def nonceBefore (payload : List UInt8) (markerPos : Nat) : Option (Option UInt64) :=
  if markerPos < nonceHexLen + 1 then some none
  else
    let slashPos := markerPos - nonceHexLen - 1
    match payload[slashPos]? with
    | none => none
    | some first =>
        if first ≠ slash then some none
        else (slice payload (slashPos + 1) markerPos).map fun nonceBytes =>
          (hexText nonceBytes).bind fun nonceHex => (fromStrRadix16 nonceHex).toOption

/-- The tag behind the marker. -/
def tagAfter (payload : List UInt8) (markerPos : Nat) : Option (Option String) :=
  let tagStart := markerPos + marker.length
  if payload.length < tagStart + tagHexLen then some none
  else (slice payload tagStart (tagStart + tagHexLen)).map hexText

def readAround (payload : List UInt8) (markerPos : Nat) : Option (Option (UInt64 × String)) :=
  match tagAfter payload markerPos with
  | none => none
  | some none => some none
  | some (some claimedTag) =>
      (nonceBefore payload markerPos).map fun nonce => nonce.map fun nonce => (nonce, claimedTag)

def parseOpoi (payload : List UInt8) : Option (Option (UInt64 × String)) :=
  -- the binary fields in front of the extra data are skipped
  let searchStart := min coinbaseMinBinaryHeader payload.length
  match slice payload searchStart payload.length with
  | none => none
  | some searchSlice =>
      match position marker searchSlice with
      | none => some none
      | some relativePos => readAround payload (searchStart + relativePos)

/-! Tags. -/

def phase2OpoiSalt : UInt64 := fromLeBytes (utf8 "KERYX:2\x00")

def runInferenceFixed (nonce : UInt64) : Bytes 32 := forward (fromNonce nonce)

/-- `{:0width x}`, for values of at most `width` digits. -/
def hexPadded (width value : Nat) : List Char := (fixed 16 width value).map Nat.digitChar

section Tags
variable (hexEncode : List UInt8 → String)

def tagFixed (nonce : UInt64) : String :=
  hexEncode ((runInferenceFixed (nonce ^^^ phase2OpoiSalt)).items.take 8)

def verifyTagFixed (nonce : UInt64) (claimedHex16 : String) : Bool :=
  tagFixed hexEncode nonce == claimedHex16

def genOpoiExtraData (nonce : UInt64) : List UInt8 :=
  let tag := tagFixed hexEncode nonce
  utf8 ("/" ++ String.ofList (hexPadded 16 nonce.toNat) ++ "/ai:v1:" ++ tag)

/-- Two hex digits for each byte. -/
structure HexEncodes : Prop where
  length : ∀ bytes, (utf8 (hexEncode bytes)).length = 2 * bytes.length
  digits : ∀ bytes, (utf8 (hexEncode bytes)).all isAsciiHexdigit = true

end Tags

/-! Payloads. -/

/-- The parts of a payload around its first marker from byte 19 on. -/
structure Parts (payload front digits claimed suffix : List UInt8) : Prop where
  whole : payload = front ++ [slash] ++ digits ++ marker ++ claimed ++ suffix
  beyond : coinbaseMinBinaryHeader ≤ front.length + 1 + digits.length
  first : ∀ place, coinbaseMinBinaryHeader ≤ place → place < front.length + 1 + digits.length →
    ¬ Stands marker payload place

structure Tagged (payload : List UInt8) (nonce : UInt64) (tag : String)
    (front digits claimed suffix : List UInt8) : Prop
    extends Parts payload front digits claimed suffix where
  nonceLength : digits.length = 16
  nonceDigits : digits.all isAsciiHexdigit = true
  nonceValue : nonce.toNat = hexValue (asciiText digits)
  tagLength : claimed.length = 16
  tagDigits : claimed.all isAsciiHexdigit = true
  tagText : tag = asciiText claimed

/-! Hex digits. -/

theorem hexdigit_ascii {bytes : List UInt8} (digits : bytes.all isAsciiHexdigit = true) :
    Ascii bytes := by
  have all : ∀ b : Fin 256, isAsciiHexdigit (UInt8.ofFin b) = true → UInt8.ofFin b < 128 := by
    decide +kernel
  intro b member
  exact all b.toFin (List.all_eq_true.mp digits b member)

theorem hex_text_iff {bytes : List UInt8} {text : String} :
    hexText bytes = some text ↔ bytes.all isAsciiHexdigit = true ∧ text = asciiText bytes := by
  rw [hexText, Option.filter_eq_some_iff, from_utf8_iff]
  constructor
  · rintro ⟨rfl, digits⟩
    exact ⟨digits, (ascii_text_utf8 (hexdigit_ascii digits)).symm⟩
  · rintro ⟨digits, rfl⟩
    rw [utf8_ascii_text (hexdigit_ascii digits)]
    exact ⟨rfl, digits⟩

theorem hexdigit_value {b : UInt8} (digit : isAsciiHexdigit b = true) :
    ∃ value < 16, hexDigit (character b) = some value := by
  have all : ∀ b : Fin 256, isAsciiHexdigit (UInt8.ofFin b) = true →
      ∃ value < 16, hexDigit (character (UInt8.ofFin b)) = some value := by
    decide +kernel
  exact all b.toFin digit

theorem push_hexdigits {digits : List UInt8} {value : Nat}
    (hex : digits.all isAsciiHexdigit = true) (room : (value + 1) * 16 ^ digits.length ≤ 2 ^ 64) :
    ∃ result, (digits.map character).foldlM pushDigit value = .ok result := by
  induction digits generalizing value with
  | nil => exact ⟨value, rfl⟩
  | cons b rest ih =>
      rw [List.all_cons, Bool.and_eq_true] at hex
      obtain ⟨digit, small, read⟩ := hexdigit_value hex.1
      have next : (16 * value + digit + 1) * 16 ^ rest.length ≤ 2 ^ 64 :=
        calc (16 * value + digit + 1) * 16 ^ rest.length
            ≤ ((value + 1) * 16) * 16 ^ rest.length := Nat.mul_le_mul_right _ (by omega)
          _ = (value + 1) * 16 ^ (rest.length + 1) := by rw [Nat.pow_succ', Nat.mul_assoc]
          _ ≤ 2 ^ 64 := room
      have below : 16 * value + digit < 2 ^ 64 :=
        calc 16 * value + digit < 16 * value + digit + 1 := Nat.lt_succ_self _
          _ ≤ (16 * value + digit + 1) * 16 ^ rest.length :=
            Nat.le_mul_of_pos_right _ (Nat.pow_pos (by decide))
          _ ≤ 2 ^ 64 := next
      have pushed : pushDigit value (character b) = .ok (16 * value + digit) := by
        rw [pushDigit, read]
        exact if_pos below
      obtain ⟨result, others⟩ := ih hex.2 next
      refine ⟨result, ?_⟩
      rw [List.map_cons, List.foldlM_cons, pushed]
      exact others

theorem hexdigits_parsed {digits : List UInt8} (length : digits.length = 16)
    (hex : digits.all isAsciiHexdigit = true) :
    ∃ nonce, fromStrRadix16 (asciiText digits) = .ok nonce := by
  obtain ⟨result, pushed⟩ := @push_hexdigits digits 0 hex (by rw [length]; decide)
  refine ⟨UInt64.ofNat result, ?_⟩
  cases digits with
  | nil => cases length
  | cons b rest =>
      rw [List.all_cons, Bool.and_eq_true] at hex
      obtain ⟨digit, _, read⟩ := hexdigit_value hex.1
      have unsigned : character b ≠ '+' := by
        intro plus
        rw [plus] at read
        cases read
      have characters : (asciiText (b :: rest)).toList = character b :: rest.map character := by
        rw [asciiText, String.toList_ofList, List.map_cons]
      rw [fromStrRadix16, characters]
      split
      · rename_i none
        cases none
      · rename_i plus
        exact absurd (List.cons.inj plus).1 unsigned
      · rename_i plus
        exact absurd (List.cons.inj plus).1 unsigned
      · rw [← List.map_cons, pushed]
        rfl

/-! The nonce in front of the marker. -/

def readNonce (nonceBytes : List UInt8) : Option UInt64 :=
  (hexText nonceBytes).bind fun nonceHex => (fromStrRadix16 nonceHex).toOption

theorem read_nonce_iff {digits : List UInt8} (length : digits.length = 16) {nonce : UInt64} :
    readNonce digits = some nonce ↔
      digits.all isAsciiHexdigit = true ∧ nonce.toNat = hexValue (asciiText digits) := by
  rw [readNonce, Option.bind_eq_some_iff]
  constructor
  · rintro ⟨text, hex, parsed⟩
    obtain ⟨all, rfl⟩ := hex_text_iff.mp hex
    refine ⟨all, from_str_radix_value ?_⟩
    cases read : fromStrRadix16 (asciiText digits) with
    | error e =>
        rw [read] at parsed
        cases parsed
    | ok word =>
        rw [read] at parsed
        exact congrArg _ (Option.some.inj parsed)
  · rintro ⟨all, value⟩
    obtain ⟨word, parsed⟩ := hexdigits_parsed length all
    refine ⟨asciiText digits, hex_text_iff.mpr ⟨all, rfl⟩, ?_⟩
    have same : word = nonce := UInt64.toNat_inj.mp ((from_str_radix_value parsed).trans value.symm)
    rw [parsed, same]
    rfl

section Before
variable {payload : List UInt8} {markerPos : Nat} (inside : markerPos ≤ payload.length)
include inside

theorem nonce_before_at {front digits : List UInt8} {item : UInt8}
    (before : payload.take markerPos = front ++ [item] ++ digits) (length : digits.length = 16) :
    nonceBefore payload markerPos = some (if item = slash then readNonce digits else none) := by
  have place : markerPos = front.length + 17 := by
    have sizes := congrArg List.length before
    simp only [List.length_take, List.length_append, List.length_singleton] at sizes
    omega
  have whole : payload = front ++ [item] ++ digits ++ payload.drop markerPos := by
    rw [← before, List.take_append_drop]
  have item_at : payload[front.length]? = some item := by
    rw [whole]
    simp
  have digits_at : slice payload (front.length + 1) markerPos = some digits := by
    rw [whole]
    apply slice_middle
    · simp
    · simp only [List.length_append, List.length_singleton]
      omega
  have position : markerPos - nonceHexLen - 1 = front.length := by
    rw [place, nonceHexLen]
    omega
  have room : ¬ markerPos < nonceHexLen + 1 := by
    rw [place, nonceHexLen]
    omega
  unfold nonceBefore
  rw [if_neg room]
  simp only [position, item_at, digits_at, Option.map_some, ite_not]
  split <;> rfl

theorem nonce_before_cases : nonceBefore payload markerPos = some none ∨
    ∃ front item digits, payload.take markerPos = front ++ [item] ++ digits ∧
      digits.length = 16 := by
  by_cases short : markerPos < nonceHexLen + 1
  · exact .inl (if_pos short)
  · right
    rw [nonceHexLen] at short
    -- the last seventeen bytes: one and the digits
    obtain ⟨item, digits, split⟩ : ∃ item digits,
        (payload.take markerPos).drop (markerPos - 17) = item :: digits := by
      apply List.exists_cons_of_length_pos
      simp only [List.length_drop, List.length_take]
      omega
    refine ⟨(payload.take markerPos).take (markerPos - 17), item, digits, ?_, ?_⟩
    · rw [List.append_assoc, List.singleton_append, ← split, List.take_append_drop]
    · have size := congrArg List.length split
      simp only [List.length_drop, List.length_take, List.length_cons] at size
      omega

theorem nonce_before_inside : nonceBefore payload markerPos ≠ none := by
  rcases nonce_before_cases inside with none | ⟨front, item, digits, before, length⟩
  · rw [none]
    exact Option.some_ne_none _
  · rw [nonce_before_at inside before length]
    exact Option.some_ne_none _

theorem nonce_before_iff {nonce : UInt64} :
    nonceBefore payload markerPos = some (some nonce) ↔
      ∃ front digits, payload.take markerPos = front ++ [slash] ++ digits ∧
        digits.length = 16 ∧ digits.all isAsciiHexdigit = true ∧
        nonce.toNat = hexValue (asciiText digits) := by
  constructor
  · intro found
    rcases nonce_before_cases inside with none | ⟨front, item, digits, before, length⟩
    · rw [none] at found
      cases found
    · rw [nonce_before_at inside before length, Option.some_inj] at found
      obtain ⟨rfl, read⟩ := Option.ite_none_right_eq_some.mp found
      exact ⟨front, digits, before, length, (read_nonce_iff length).mp read⟩
  · rintro ⟨front, digits, before, length, all, value⟩
    rw [nonce_before_at inside before length, if_pos rfl,
      (read_nonce_iff length).mpr ⟨all, value⟩]

end Before

/-! The tag behind the marker. -/

theorem tag_after_inside (payload : List UInt8) (markerPos : Nat) :
    tagAfter payload markerPos ≠ none := by
  unfold tagAfter
  dsimp only
  split
  · exact Option.some_ne_none _
  · rw [slice_inside (by omega) (by omega), Option.map_some]
    exact Option.some_ne_none _

theorem tag_after_iff {payload : List UInt8} {markerPos : Nat} {tag : String} :
    tagAfter payload markerPos = some (some tag) ↔
      ∃ claimed suffix, payload.drop (markerPos + marker.length) = claimed ++ suffix ∧
        claimed.length = 16 ∧ claimed.all isAsciiHexdigit = true ∧ tag = asciiText claimed := by
  unfold tagAfter
  dsimp only
  constructor
  · intro found
    split at found
    · cases found
    · obtain ⟨claimed, sliced, hex⟩ := Option.map_eq_some_iff.mp found
      have sliced := slice_some sliced
      have length := sliced.length
      rw [tagHexLen] at length
      exact ⟨claimed, _, sliced.after, by omega, hex_text_iff.mp hex⟩
  · rintro ⟨claimed, suffix, after, length, hex⟩
    have sizes := congrArg List.length after
    rw [List.length_drop, List.length_append, length] at sizes
    rw [if_neg (by rw [tagHexLen]; omega), slice_inside (by omega) (by rw [tagHexLen]; omega),
      Option.map_some, Option.some_inj, Nat.add_sub_cancel_left, after, tagHexLen, ← length,
      List.take_left]
    exact hex_text_iff.mpr hex

/-! Payloads. -/

/-- The first place of the marker from byte 19 on. -/
structure FirstMarker (payload : List UInt8) (place : Nat) : Prop where
  beyond : coinbaseMinBinaryHeader ≤ place
  stands : Stands marker payload place
  first : ∀ earlier, coinbaseMinBinaryHeader ≤ earlier → earlier < place →
    ¬ Stands marker payload earlier

theorem marker_present : marker ≠ [] := by decide

theorem search_iff {payload : List UInt8} {relativePos : Nat}
    (inside : coinbaseMinBinaryHeader ≤ payload.length) :
    position marker (payload.drop coinbaseMinBinaryHeader) = some relativePos ↔
      FirstMarker payload (coinbaseMinBinaryHeader + relativePos) := by
  rw [position_iff marker_present, stands_drop inside]
  constructor
  · rintro ⟨stands, first⟩
    refine ⟨Nat.le_add_right .., stands, ?_⟩
    intro earlier beyond before found
    apply first (earlier - coinbaseMinBinaryHeader) (by omega)
    rw [stands_drop inside, Nat.add_sub_cancel' beyond]
    exact found
  · intro marked
    refine ⟨marked.stands, ?_⟩
    intro earlier before found
    exact marked.first _ (Nat.le_add_right ..) (Nat.add_lt_add_left before _)
      ((stands_drop inside).mp found)

theorem parse_of_marker {payload : List UInt8} {place : Nat} (marked : FirstMarker payload place) :
    parseOpoi payload = readAround payload place := by
  have inside : coinbaseMinBinaryHeader ≤ payload.length :=
    calc coinbaseMinBinaryHeader ≤ place := marked.beyond
      _ ≤ place + marker.length := Nat.le_add_right ..
      _ ≤ payload.length := marked.stands.inside
  have found : position marker (payload.drop coinbaseMinBinaryHeader) =
      some (place - coinbaseMinBinaryHeader) := by
    rw [search_iff inside, Nat.add_sub_cancel' marked.beyond]
    exact marked
  unfold parseOpoi
  simp only [Nat.min_eq_left inside, slice_inside inside (Nat.le_refl _),
    List.take_of_length_le (Nat.le_of_eq List.length_drop), found, Nat.add_sub_cancel' marked.beyond]

theorem parse_cases (payload : List UInt8) :
    parseOpoi payload = some none ∨ ∃ place, FirstMarker payload place := by
  have start := Nat.min_le_right coinbaseMinBinaryHeader payload.length
  unfold parseOpoi
  simp only [slice_inside start (Nat.le_refl _), List.take_of_length_le (Nat.le_of_eq List.length_drop)]
  cases found : position marker (payload.drop (min coinbaseMinBinaryHeader payload.length)) with
  | none => exact .inl rfl
  | some relativePos =>
      have inside : coinbaseMinBinaryHeader ≤ payload.length := by
        have bound := ((position_iff marker_present).mp found).1.inside
        have size : 0 < marker.length := List.length_pos_of_ne_nil marker_present
        rw [List.length_drop] at bound
        omega
      rw [Nat.min_eq_left inside, search_iff inside] at found
      exact .inr ⟨_, found⟩

/-- No payload makes the parser index out of bounds. -/
theorem parse_inside (payload : List UInt8) : parseOpoi payload ≠ none := by
  rcases parse_cases payload with unmarked | ⟨place, marked⟩
  · rw [unmarked]
    exact Option.some_ne_none _
  · have inside : place ≤ payload.length := Nat.le_of_add_right_le marked.stands.inside
    rw [parse_of_marker marked, readAround]
    split
    · rename_i none
      exact absurd none (tag_after_inside payload place)
    · exact Option.some_ne_none _
    · rw [ne_eq, Option.map_eq_none_iff]
      exact nonce_before_inside inside

theorem around_iff {payload : List UInt8} {place : Nat} {nonce : UInt64} {tag : String} :
    readAround payload place = some (some (nonce, tag)) ↔
      tagAfter payload place = some (some tag) ∧ nonceBefore payload place = some (some nonce) := by
  unfold readAround
  split
  · rename_i none
    simp [none]
  · rename_i none
    simp [none]
  · rename_i claimed some
    simp [some, and_comm]

theorem parse_iff {payload : List UInt8} {nonce : UInt64} {tag : String} :
    parseOpoi payload = some (some (nonce, tag)) ↔
      ∃ front digits claimed suffix, Tagged payload nonce tag front digits claimed suffix := by
  constructor
  · intro parsed
    rcases parse_cases payload with unmarked | ⟨place, marked⟩
    · rw [unmarked] at parsed
      cases parsed
    · have inside : place ≤ payload.length := Nat.le_of_add_right_le marked.stands.inside
      rw [parse_of_marker marked, around_iff, tag_after_iff, nonce_before_iff inside] at parsed
      obtain ⟨⟨claimed, suffix, after, tagLength, tagDigits, tagText⟩,
        front, digits, before, nonceLength, nonceDigits, nonceValue⟩ := parsed
      have place_eq : place = front.length + 1 + digits.length := by
        have sizes := congrArg List.length before
        simp only [List.length_take, List.length_append, List.length_singleton] at sizes
        omega
      refine ⟨front, digits, claimed, suffix, ⟨⟨?_, ?_, ?_⟩, nonceLength, nonceDigits, nonceValue,
        tagLength, tagDigits, tagText⟩⟩
      · rw [List.append_assoc _ claimed, ← after, ← before]
        exact marked.stands.split
      · exact place_eq ▸ marked.beyond
      · exact place_eq ▸ marked.first
  · rintro ⟨front, digits, claimed, suffix, tagged⟩
    have size : (front ++ [slash] ++ digits).length = front.length + 1 + digits.length := by
      simp only [List.length_append, List.length_singleton]
    have whole : payload = (front ++ [slash] ++ digits) ++ marker ++ (claimed ++ suffix) := by
      rw [tagged.whole, List.append_assoc _ claimed]
    have marked : FirstMarker payload (front.length + 1 + digits.length) := by
      refine ⟨tagged.beyond, ?_, tagged.first⟩
      rw [whole, ← size]
      exact stands_append ..
    rw [parse_of_marker marked, around_iff, tag_after_iff,
      nonce_before_iff (Nat.le_of_add_right_le marked.stands.inside)]
    refine ⟨⟨claimed, suffix, ?_, tagged.tagLength, tagged.tagDigits, tagged.tagText⟩,
      front, digits, ?_, tagged.nonceLength, tagged.nonceDigits, tagged.nonceValue⟩
    · rw [whole, ← size, ← List.length_append, List.drop_left]
    · rw [whole, ← size, List.append_assoc (_ ++ digits), List.take_left]

/-! Generated tags. -/

theorem digit_char_encoded {value : Nat} (small : value < 16) :
    ∃ b, String.utf8EncodeChar (Nat.digitChar value) = [b] ∧ isAsciiHexdigit b = true := by
  have all : ∀ value < 16, (String.utf8EncodeChar (Nat.digitChar value)).length = 1 ∧
      (String.utf8EncodeChar (Nat.digitChar value)).all isAsciiHexdigit = true := by decide +kernel
  obtain ⟨single, hex⟩ := all value small
  obtain ⟨b, encoded⟩ := List.length_eq_one_iff.mp single
  refine ⟨b, encoded, ?_⟩
  rw [encoded, List.all_cons, List.all_nil, Bool.and_true] at hex
  exact hex

theorem digit_char_value {value : Nat} (small : value < 16) :
    (hexDigit (Nat.digitChar value)).getD 0 = value := by
  have all : ∀ value < 16, (hexDigit (Nat.digitChar value)).getD 0 = value := by decide +kernel
  exact all value small

theorem digit_chars_hex {digits : List Nat} (small : ∀ digit ∈ digits, digit < 16) :
    (utf8 (String.ofList (digits.map Nat.digitChar))).length = digits.length ∧
      (utf8 (String.ofList (digits.map Nat.digitChar))).all isAsciiHexdigit = true := by
  rw [utf8_of_list]
  induction digits with
  | nil => exact ⟨rfl, rfl⟩
  | cons digit rest ih =>
      obtain ⟨b, encoded, hex⟩ := digit_char_encoded (small digit List.mem_cons_self)
      obtain ⟨length, all⟩ := ih fun other member => small other (List.mem_cons_of_mem _ member)
      rw [List.map_cons, List.flatMap_cons, encoded, List.singleton_append, List.length_cons,
        List.all_cons, length, hex, all]
      exact ⟨rfl, rfl⟩

theorem digit_chars_value {digits : List Nat} (small : ∀ digit ∈ digits, digit < 16) :
    (digits.map Nat.digitChar).foldl pushValue 0 = number 16 digits := by
  have general (value : Nat) : (digits.map Nat.digitChar).foldl pushValue value =
      digits.foldl (fun value d => value * 16 + d) value := by
    induction digits generalizing value with
    | nil => rfl
    | cons digit rest ih =>
        rw [List.map_cons, List.foldl_cons, List.foldl_cons, pushValue,
          digit_char_value (small digit List.mem_cons_self), Nat.mul_comm,
          ih fun other member => small other (List.mem_cons_of_mem _ member)]
  exact general 0

/-- The bytes of `{:016x}` and other widths. -/
def paddedBytes (width value : Nat) : List UInt8 := utf8 (String.ofList (hexPadded width value))

theorem padded_bytes_hex (width value : Nat) :
    (paddedBytes width value).length = width ∧
      (paddedBytes width value).all isAsciiHexdigit = true := by
  have hex := digit_chars_hex (fixed_small (by decide : 0 < 16) width value)
  rwa [fixed_length] at hex

theorem padded_unsigned (width value : Nat) : '+' ∉ hexPadded width value := by
  intro member
  obtain ⟨digit, listed, plus⟩ := List.mem_map.mp member
  have all : ∀ digit < 16, Nat.digitChar digit ≠ '+' := by decide +kernel
  exact all digit (fixed_small (by decide) width value digit listed) plus

theorem padded_bytes_value (nonce : UInt64) :
    hexValue (asciiText (paddedBytes 16 nonce.toNat)) = nonce.toNat := by
  have hex := (padded_bytes_hex 16 nonce.toNat).2
  rw [paddedBytes, ascii_text_utf8 (hexdigit_ascii hex), hexValue, String.toList_ofList]
  split
  · rename_i digits plus
    exact absurd (plus ▸ List.mem_cons_self) (padded_unsigned 16 nonce.toNat)
  · rw [hexPadded, digit_chars_value (fixed_small (by decide) 16 nonce.toNat), number_fixed]
    exact Nat.mod_eq_of_lt nonce.toNat_lt

theorem unmarked_before {front digits rest : List UInt8}
    (unmarked : ∀ place, coinbaseMinBinaryHeader ≤ place → ¬ Stands marker front place)
    (length : digits.length = 16) (hex : digits.all isAsciiHexdigit = true) {place : Nat}
    (beyond : coinbaseMinBinaryHeader ≤ place) (before : place < front.length + 17) :
    ¬ Stands marker (front ++ [slash] ++ digits ++ rest) place := by
  intro stands
  have size : marker.length = 7 := by decide
  have inner : ∀ index < 6, marker[index + 1]? ≠ some slash := by decide
  have slash_at : (front ++ [slash] ++ digits ++ rest)[front.length]? = some slash := by simp
  have digit_at (index : Nat) (inside : index < 16) {b : UInt8}
      (item : (front ++ [slash] ++ digits ++ rest)[front.length + 1 + index]? = some b) :
      isAsciiHexdigit b = true := by
    have skipped : (front ++ [slash] ++ digits ++ rest)[front.length + 1 + index]? =
        digits[index]? := by
      have start : front.length + 1 = (front ++ [slash]).length := by simp
      rw [List.append_assoc _ digits, start, List.getElem?_append_right (Nat.le_add_right ..),
        Nat.add_sub_cancel_left, List.getElem?_append_left (by omega)]
    exact List.all_eq_true.mp hex b (List.mem_of_getElem? (skipped.symm.trans item))
  rcases Nat.lt_or_ge front.length (place + 7) with crossing | inside
  · rcases Nat.lt_trichotomy place front.length with earlier | rfl | later
    · -- the slash in front of the nonce would stand inside the marker
      have item := stands.item (front.length - place) (by omega)
      rw [Nat.add_sub_cancel' (Nat.le_of_lt earlier), slash_at] at item
      apply inner (front.length - place - 1) (by omega)
      rw [Nat.sub_add_cancel (by omega)]
      exact item.symm
    · -- the second digit would be the `i`
      have letter : marker[2]? = some 0x69 := by decide
      have item := (stands.item 2 (by omega)).trans letter
      exact absurd (digit_at 1 (by decide) item) (by decide)
    · -- a digit would be the slash
      have letter : marker[0]? = some slash := by decide
      have item := (stands.item 0 (by omega)).trans letter
      have apart : place + 0 = front.length + 1 + (place - front.length - 1) := by omega
      rw [apart] at item
      exact absurd (digit_at (place - front.length - 1) (by omega) item) (by decide)
  · rw [List.append_assoc, List.append_assoc, stands_left (by omega)] at stands
    exact unmarked place beyond stands

section Generation
variable {hexEncode : List UInt8 → String} (encodes : HexEncodes hexEncode)
include encodes

theorem tag_hex (nonce : UInt64) : (utf8 (tagFixed hexEncode nonce)).length = 16 ∧
    (utf8 (tagFixed hexEncode nonce)).all isAsciiHexdigit = true := by
  constructor
  · rw [tagFixed, encodes.length, List.length_take,
      (runInferenceFixed (nonce ^^^ phase2OpoiSalt)).sized]
    rfl
  · exact encodes.digits _

theorem generated_tagged {front suffix : List UInt8} (nonce : UInt64)
    (header : coinbaseMinBinaryHeader ≤ front.length)
    (unmarked : ∀ place, coinbaseMinBinaryHeader ≤ place → ¬ Stands marker front place) :
    Tagged (front ++ genOpoiExtraData hexEncode nonce ++ suffix) nonce (tagFixed hexEncode nonce)
      front (paddedBytes 16 nonce.toNat) (utf8 (tagFixed hexEncode nonce)) suffix := by
  obtain ⟨length, hex⟩ := padded_bytes_hex 16 nonce.toNat
  obtain ⟨tagLength, tagDigits⟩ := tag_hex encodes nonce
  have whole : front ++ genOpoiExtraData hexEncode nonce ++ suffix = front ++ [slash] ++
      paddedBytes 16 nonce.toNat ++ marker ++ utf8 (tagFixed hexEncode nonce) ++ suffix := by
    have single : utf8 "/" = [slash] := by decide
    simp only [genOpoiExtraData, utf8_append, single, paddedBytes, marker, List.append_assoc]
  refine ⟨⟨whole, by omega, ?_⟩, length, hex, (padded_bytes_value nonce).symm, tagLength,
    tagDigits, (ascii_text_utf8 (hexdigit_ascii tagDigits)).symm⟩
  intro place beyond before
  rw [whole, List.append_assoc _ marker, List.append_assoc _ (marker ++ _)]
  exact unmarked_before unmarked length hex beyond (by omega)

end Generation

/-- Tags go round, and what the parser finds stands around the first marker. -/
theorem opoi_tags_round_trip (hexEncode : List UInt8 → String) (encodes : HexEncodes hexEncode) :
    (∀ front nonce suffix, coinbaseMinBinaryHeader ≤ front.length →
      (∀ place, coinbaseMinBinaryHeader ≤ place → ¬ Stands marker front place) →
      parseOpoi (front ++ genOpoiExtraData hexEncode nonce ++ suffix) =
          some (some (nonce, tagFixed hexEncode nonce)) ∧
        verifyTagFixed hexEncode nonce (tagFixed hexEncode nonce) = true) ∧
    ∀ payload, parseOpoi payload ≠ none ∧ ∀ nonce tag, parseOpoi payload = some (some (nonce, tag)) →
      ∃ front digits claimed suffix, Tagged payload nonce tag front digits claimed suffix := by
  constructor
  · intro front nonce suffix header unmarked
    constructor
    · exact parse_iff.mpr ⟨_, _, _, _, generated_tagged encodes nonce header unmarked⟩
    · exact beq_self_eq_true _
  · intro payload
    exact ⟨parse_inside payload, fun nonce tag => parse_iff.mp⟩

/-! Two lower-case digits a byte. -/

def lowerHex (bytes : List UInt8) : String :=
  String.ofList (bytes.flatMap fun b => hexPadded 2 b.toNat)

theorem lower_hex_encodes : HexEncodes lowerHex := by
  have bytewise (bytes : List UInt8) :
      utf8 (lowerHex bytes) = bytes.flatMap fun b => paddedBytes 2 b.toNat := by
    rw [lowerHex, utf8_of_list, List.flatMap_assoc]
    congr 1
    funext b
    exact (utf8_of_list _).symm
  constructor
  · intro bytes
    rw [bytewise]
    induction bytes with
    | nil => rfl
    | cons b rest ih =>
        rw [List.flatMap_cons, List.length_append, (padded_bytes_hex 2 b.toNat).1, ih,
          List.length_cons]
        omega
  · intro bytes
    rw [bytewise, List.all_flatMap, List.all_eq_true]
    exact fun b _ => (padded_bytes_hex 2 b.toNat).2

theorem zeros_unmarked (count place : Nat) : ¬ Stands marker (List.replicate count 0) place := by
  intro stands
  have head : marker[0]? = some slash := by decide
  have item := (stands.item 0 (by decide)).trans head
  have zero := List.eq_of_mem_replicate (List.mem_of_getElem? item)
  exact absurd zero (by decide)

theorem opoi_tags_round_trip_fresh :
    parseOpoi (List.replicate 53 0 ++ genOpoiExtraData lowerHex 42 ++ []) =
        some (some (42, tagFixed lowerHex 42)) ∧
      verifyTagFixed lowerHex 42 (tagFixed lowerHex 42) = true :=
  (opoi_tags_round_trip lowerHex lower_hex_encodes).1 (List.replicate 53 0) 42 [] (by decide)
    fun place _ => zeros_unmarked 53 place

end KeryxMiner.OpoiTags
