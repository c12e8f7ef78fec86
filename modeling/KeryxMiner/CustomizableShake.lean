import KeryxMiner.ByteCodec
import KeryxMiner.KeccakPermutation

/-!
cSHAKE256 over Keccak-f[1600], on whole bytes.
-/

namespace KeryxMiner.Keccak

open ByteCodec

/-- The bytes that are absorbed between two permutations. -/
def rate : Nat := 136

/-- Word `k` of some bytes, the first byte lowest. There is nothing after the last byte. -/
def word (bytes : List UInt8) (k : Nat) : UInt64 := fromLeBytes ((bytes.drop (8 * k)).take 8)

def addBlock (state : State) (block : List UInt8) : State :=
  fun x y => state x y ^^^ word block (5 * y.val + x.val)

/-- The whole blocks of some bytes, from a state. -/
def absorbFrom (state : State) (bytes : List UInt8) : State :=
  if rate ≤ bytes.length then
    absorbFrom (permute (addBlock state (bytes.take rate))) (bytes.drop rate)
  else state
termination_by bytes.length
decreasing_by
  have positive : 0 < rate := by decide
  rw [List.length_drop]
  omega

def zeroState : State := fun _ _ => 0

/-- Zeros up to the last bit of the block. -/
def pad (suffix : UInt8) (length : Nat) : List UInt8 :=
  let gap := rate - length % rate
  if gap = 1 then [suffix ||| 0x80] else suffix :: List.replicate (gap - 2) 0 ++ [0x80]

def digits (value : Nat) : List UInt8 :=
  if value < 256 then [UInt8.ofNat value] else digits (value / 256) ++ [UInt8.ofNat value]

def leftEncode (value : Nat) : List UInt8 :=
  UInt8.ofNat (digits value).length :: digits value

def encodeString (bytes : List UInt8) : List UInt8 := leftEncode (8 * bytes.length) ++ bytes

def bytepad (bytes : List UInt8) (width : Nat) : List UInt8 :=
  let encoded := leftEncode width ++ bytes
  encoded ++ List.replicate ((width - encoded.length % width) % width) 0

/-- The first 32 bytes of the output. -/
def output (state : State) : List UInt8 :=
  (List.range 4).flatMap fun k => (toLeBytes (state (around k) (around 0))).items

def sponge (suffix : UInt8) (bytes : List UInt8) : List UInt8 :=
  output (absorbFrom zeroState (bytes ++ pad suffix bytes.length))

def cShake256 (functionName customization message : List UInt8) : List UInt8 :=
  if functionName = [] ∧ customization = [] then sponge 0x1F message
  else
    let start := bytepad (encodeString functionName ++ encodeString customization) rate
    sponge 0x04 (start ++ message)

def wordBytes (words : List UInt64) : List UInt8 := concat (words.map toLeBytes)

theorem word_bytes_length (words : List UInt64) : (wordBytes words).length = 8 * words.length := by
  rw [wordBytes, concat_length, List.length_map, Nat.mul_comm]

theorem word_bytes_get (words : List UInt64) (k : Nat) :
    word (wordBytes words) k = words.getD k 0 := by
  rw [List.getD_eq_getElem?_getD]
  rcases Nat.lt_or_ge k words.length with inside | outside
  · rw [word, wordBytes, Nat.mul_comm, concat_slice _ (by rwa [List.length_map]),
      List.getElem_map, fromLeBytes_toLeBytes, List.getElem?_eq_getElem inside,
      Option.getD_some]
  · have after : (wordBytes words).length ≤ 8 * k := by
      rw [word_bytes_length]
      omega
    rw [word, List.drop_eq_nil_of_le after, List.getElem?_eq_none outside]
    rfl

theorem absorb_block (state : State) {block : List UInt8} (whole : block.length = rate)
    (rest : List UInt8) : absorbFrom state (block ++ rest) =
      absorbFrom (permute (addBlock state block)) rest := by
  rw [absorbFrom, if_pos (by rw [List.length_append, whole]; exact Nat.le_add_right _ _),
    List.take_left' whole, List.drop_left' whole]

theorem absorb_short (state : State) {bytes : List UInt8} (short : bytes.length < rate) :
    absorbFrom state bytes = state := by
  rw [absorbFrom, if_neg (Nat.not_le_of_gt short)]

theorem absorb_last (state : State) {block : List UInt8} (whole : block.length = rate) :
    absorbFrom state block = permute (addBlock state block) := by
  rw [← List.append_nil block, absorb_block state whole, absorb_short _ (by decide),
    List.append_nil]

theorem pad_length (suffix : UInt8) (length : Nat) :
    (pad suffix length).length = rate - length % rate := by
  have below : length % rate < rate := Nat.mod_lt _ (by decide)
  unfold pad
  dsimp only
  split
  · rw [List.length_singleton]
    omega
  · rw [List.length_append, List.length_cons, List.length_replicate, List.length_singleton]
    omega

theorem pad_add_rate (suffix : UInt8) (length : Nat) :
    pad suffix (rate + length) = pad suffix length := by
  rw [pad, pad, Nat.add_mod_left]

/-- Of a start of one block and a message shorter than one there are two permutations. -/
theorem sponge_two_blocks (suffix : UInt8) {start message : List UInt8}
    (whole : start.length = rate) (short : message.length < rate) :
    sponge suffix (start ++ message) =
      output (permute (addBlock (permute (addBlock zeroState start))
        (message ++ pad suffix message.length))) := by
  have last : (message ++ pad suffix message.length).length = rate := by
    rw [List.length_append, pad_length, Nat.mod_eq_of_lt short]
    omega
  rw [sponge, List.length_append, whole, pad_add_rate, List.append_assoc,
    absorb_block zeroState whole, absorb_last _ last]

theorem output_length (state : State) : (output state).length = 32 := by
  simp [output, List.length_flatMap, (toLeBytes _).sized]

theorem c_shake_length (functionName customization message : List UInt8) :
    (cShake256 functionName customization message).length = 32 := by
  unfold cShake256
  split <;> exact output_length _

/-! A short customization fills one block. -/

def shortStart (customization : List UInt8) : List UInt8 :=
  [1, 136, 1, 0, 1, UInt8.ofNat (8 * customization.length)] ++ customization ++
    List.replicate (130 - customization.length) 0

theorem left_encode_small {value : Nat} (small : value < 256) :
    leftEncode value = [1, UInt8.ofNat value] := by
  rw [leftEncode, digits, if_pos small]
  rfl

theorem short_start {customization : List UInt8} (short : customization.length < 32) :
    bytepad (encodeString [] ++ encodeString customization) rate = shortStart customization := by
  have count : (rate - (6 + customization.length) % rate) % rate = 130 - customization.length := by
    rw [rate]
    omega
  rw [bytepad, encodeString, encodeString, left_encode_small (by decide : rate < 256),
    left_encode_small (by decide : 8 * ([] : List UInt8).length < 256),
    left_encode_small (by omega : 8 * customization.length < 256), shortStart]
  simp only [List.length_append, List.length_cons, List.length_nil, List.append_assoc]
  rw [← count]
  have length : 0 + 1 + 1 + (0 + 1 + 1 + (0 + (0 + 1 + 1 + customization.length))) =
      6 + customization.length := by omega
  rw [length]
  rfl

theorem short_start_length {customization : List UInt8} (short : customization.length < 32) :
    (shortStart customization).length = rate := by
  simp only [shortStart, List.length_append, List.length_cons, List.length_nil,
    List.length_replicate, rate]
  omega

end KeryxMiner.Keccak
