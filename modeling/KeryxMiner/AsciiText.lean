import Mathlib.Data.List.Basic

/-!
Texts and their UTF-8 bytes. Where the characters are ASCII a text is its bytes.
-/

namespace KeryxMiner.AsciiText

def utf8 (text : String) : List UInt8 := text.toByteArray.data.toList

def fromUtf8 (bytes : List UInt8) : Option String := String.fromUTF8? ⟨bytes.toArray⟩

theorem utf8_injective : Function.Injective utf8 := by
  intro left right same
  exact String.toByteArray_inj.mp (ByteArray.ext (Array.toList_inj.mp same))

theorem utf8_append (left right : String) : utf8 (left ++ right) = utf8 left ++ utf8 right := by
  simp [utf8]

theorem utf8_of_list (characters : List Char) :
    utf8 (String.ofList characters) = characters.flatMap String.utf8EncodeChar := by
  simp [utf8, List.utf8Encode]

theorem from_utf8_iff {bytes : List UInt8} {text : String} :
    fromUtf8 bytes = some text ↔ utf8 text = bytes := by
  unfold fromUtf8 String.fromUTF8?
  constructor
  · intro found
    split at found
    · obtain rfl := Option.some.inj found
      rfl
    · cases found
  · rintro rfl
    have whole : (⟨(utf8 text).toArray⟩ : ByteArray) = text.toByteArray := by
      rw [utf8, Array.toArray_toList]
    rw [whole, dif_pos text.isValidUTF8]
    rfl

/-! Characters from bytes. -/

def character (byte : UInt8) : Char := Char.ofNat byte.toNat

def asciiText (bytes : List UInt8) : String := String.ofList (bytes.map character)

def Ascii (bytes : List UInt8) : Prop := ∀ byte ∈ bytes, byte < 128

theorem encode_character {byte : UInt8} (ascii : byte < 128) :
    String.utf8EncodeChar (character byte) = [byte] := by
  have small : byte.toNat < 128 := UInt8.lt_iff_toNat_lt.mp ascii
  have code : (character byte).toNat = byte.toNat := by
    have valid : byte.toNat.isValidChar := .inl (by omega)
    rw [character, Char.ofNat, dif_pos valid]
    rfl
  have single : (character byte).utf8Size = 1 := by
    rw [Char.utf8Size_eq_one_iff, UInt32.le_iff_toNat_le]
    change (character byte).toNat ≤ 127
    omega
  rw [String.utf8EncodeChar_eq_singleton single, List.singleton_inj]
  apply UInt8.toNat_inj.mp
  rw [UInt32.toNat_toUInt8]
  change (character byte).toNat % 2 ^ 8 = byte.toNat
  omega

theorem utf8_ascii_text {bytes : List UInt8} (ascii : Ascii bytes) :
    utf8 (asciiText bytes) = bytes := by
  rw [asciiText, utf8_of_list]
  induction bytes with
  | nil => rfl
  | cons byte rest ih =>
      rw [List.map_cons, List.flatMap_cons, encode_character (ascii byte List.mem_cons_self),
        ih fun other member => ascii other (List.mem_cons_of_mem _ member)]
      rfl

theorem ascii_text_utf8 {text : String} (ascii : Ascii (utf8 text)) :
    asciiText (utf8 text) = text :=
  utf8_injective (utf8_ascii_text ascii)

end KeryxMiner.AsciiText
