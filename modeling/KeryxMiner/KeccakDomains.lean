import KeryxMiner.AsciiText
import KeryxMiner.CustomizableShake
import KeryxMiner.KeccakKernels
import KeryxMiner.KernelAgreement

/-!
With Keccak-f[1600] for its permutation a proof of work is two cSHAKE256 digests.
-/

namespace KeryxMiner.KeccakDomains

open AsciiText ByteCodec HashKernels HeavyHash InPlaceLoops Keccak KeccakKernels KernelAgreement
open PomPrimitives

/-! The hashers are cSHAKE256 of their domains. -/

/-- The padding of a message of `count` words. -/
def padWords (count : Nat) : List UInt64 :=
  4 :: List.replicate (15 - count) 0 ++ [0x8000000000000000]

theorem pad_words : ∀ count < 16, pad 4 (8 * count) = wordBytes (padWords count) := by
  decide +kernel

theorem add_words (lanes : Lanes) (words : List UInt64) :
    addBlock (stateOf lanes) (wordBytes words) = stateOf (absorb lanes words) := by
  funext x y
  have inside : 5 * y.val + x.val < 25 := by omega
  rw [addBlock, word_bytes_get, stateOf, stateOf, getElem!_pos lanes _ inside,
    getElem!_pos (absorb lanes words) _ inside, absorb_get, List.getD_eq_getElem?_getD]
  cases words[5 * y.val + x.val]? with
  | none => exact UInt64.xor_zero
  | some word => rfl

/-- What comes after the words of a message can be absorbed beforehand. -/
theorem absorb_beforehand (lanes : Lanes) (words more : List UInt64) :
    absorb lanes (words ++ more) =
      absorb (absorb lanes (List.replicate words.length 0 ++ more)) words := by
  apply Vector.ext
  intro i bound
  simp only [absorb_get]
  rcases Nat.lt_or_ge i words.length with inside | outside
  · rw [List.getElem?_append_left inside, List.getElem?_append_left (by simpa using inside),
      List.getElem?_eq_getElem inside, List.getElem?_replicate, if_pos inside]
    exact congrArg (· ^^^ words[i]) UInt64.xor_zero.symm
  · rw [List.getElem?_append_right outside,
      List.getElem?_append_right (by simpa using outside), List.length_replicate,
      List.getElem?_eq_none outside]

theorem squeeze_output (lanes : Lanes) :
    (wordsToBytes (squeeze lanes)).items = output (stateOf lanes) := by
  have first : ∀ k < 4, stateOf lanes (around k) (around 0) = lanes[k]! := by
    intro k inside
    have small : k % 5 = k := Nat.mod_eq_of_lt (by omega)
    simp [stateOf, around, Fin.ofNat, small]
  have four : (squeeze lanes).items = (List.range 4).map (lanes[·]!) := rfl
  rw [words_to_bytes_concat, four, concat, List.flatMap_map, List.flatMap_map, output]
  exact List.flatMap_congr fun k member => by rw [first k (List.mem_range.mp member)]

/-- The rounds of `keccak-tiny.c` on the host. -/
def roundSteps : List (Lanes → Lanes) :=
  (List.range 24).map fun i a => roundBody (Cuda.eor3 false) (Cuda.bcax false) a i

/-- A hasher starts with its domain and the padding of a message of `count` words. -/
structure Initialised (name : List UInt8) (count : Nat) (initial : Lanes) : Prop where
  named : name ≠ []
  short : name.length < 32
  few : count < 16
  permuted : (afterSteps roundSteps (Vector.ofFn fun i => word (shortStart name) i.val) fun lanes =>
    absorb lanes (List.replicate count 0 ++ padWords count)) = initial

theorem steps_permute (lanes : Lanes) :
    stateOf (roundSteps.foldl (fun lanes step => step lanes) lanes) = permute (stateOf lanes) := by
  rw [roundSteps, List.foldl_map]
  exact Cuda.keccakf_state false lanes

theorem start_lanes (block : List UInt8) :
    addBlock zeroState block = stateOf (Vector.ofFn fun i => word block i.val) := by
  funext x y
  have inside : 5 * y.val + x.val < 25 := by omega
  rw [stateOf, getElem!_pos (Vector.ofFn fun i : Fin 25 => word block i.val) _ inside,
    Vector.getElem_ofFn]
  exact UInt64.zero_xor

theorem Initialised.digest {name : List UInt8} {count : Nat} {initial : Lanes}
    (initialised : Initialised name count initial) {words : List UInt64}
    (counted : words.length = count) :
    cShake256 [] name (wordBytes words) =
      (wordsToBytes (squeeze (f1600 (absorb initial words)))).items := by
  have few : words.length < 16 := counted ▸ initialised.few
  have short : (wordBytes words).length < rate := by
    rw [word_bytes_length, rate]
    omega
  have padded : wordBytes words ++ pad 4 (wordBytes words).length =
      wordBytes (words ++ padWords words.length) := by
    rw [word_bytes_length, pad_words _ few, wordBytes, wordBytes, wordBytes, List.map_append,
      concat_append]
  rw [cShake256, if_neg (fun none => initialised.named none.2),
    short_start initialised.short, sponge_two_blocks 4 (short_start_length initialised.short) short,
    padded, start_lanes, ← steps_permute, add_words, absorb_beforehand, counted,
    ← initialised.permuted, after_steps, squeeze_output, f1600, state_of_lanes]

theorem pow_initialised : Initialised (utf8 "ProofOfWorkHash") 10 powInitialState where
  named := by decide
  short := by decide
  few := by decide
  permuted := by decide +kernel

theorem heavy_initialised : Initialised (utf8 "HeavyHash") 4 heavyInitialState where
  named := by decide
  short := by decide
  few := by decide
  permuted := by decide +kernel

/-- cSHAKE256 without a function name, 32 bytes of it. -/
def digest (domain : String) (message : List UInt8) : Bytes 32 :=
  ⟨cShake256 [] (utf8 domain) message, c_shake_length _ _ _⟩

theorem header_words (header : Bytes 72) :
    wordBytes ((List.range 9).map (headerWord header)) = header.items := by
  have each : ∀ i ∈ List.range 9, (toLeBytes (headerWord header i)).items =
      (header.items.drop (i * 8)).take 8 := by
    intro i member
    have inside := List.mem_range.mp member
    have width : ((header.items.drop (8 * i)).take 8).length = 8 := by
      rw [List.length_take, List.length_drop, header.sized]
      omega
    rw [headerWord, toLeBytes_fromLeBytes _ width, Nat.mul_comm]
  rw [wordBytes, concat, List.map_map, List.flatMap_map]
  refine (List.flatMap_congr each).trans ?_
  rw [slices_append, List.take_of_length_le (by rw [header.sized])]

theorem pow_hasher_digest {hasher : Lanes} {header : Bytes 72} (contains : Contains hasher header)
    (nonce : UInt64) : wordsToBytes (PowHasher.finalizeWithNonce f1600 hasher nonce) =
      digest "ProofOfWorkHash" (header.items ++ (toLeBytes nonce).items) := by
  have message : header.items ++ (toLeBytes nonce).items =
      wordBytes ((List.range 9).map (headerWord header) ++ [nonce]) := by
    rw [wordBytes, List.map_append, concat_append, ← wordBytes, header_words]
    exact congrArg (header.items ++ ·) (List.append_nil _).symm
  have hashed := pow_initialised.digest
    (by simp : ((List.range 9).map (headerWord header) ++ [nonce]).length = 10)
  rw [← message, ← finalize_eq f1600 contains] at hashed
  exact FixedArray.ext hashed.symm

theorem heavy_hasher_digest (words : Words) :
    wordsToBytes (HeavyHasher.hash f1600 words) =
      digest "HeavyHash" (wordsToBytes words).items := by
  have message : (wordsToBytes words).items = wordBytes words.items := words_to_bytes_concat words
  have hashed := heavy_initialised.digest words.sized
  rw [← message] at hashed
  exact FixedArray.ext hashed.symm

/-- The value of a nonce, as bytes. -/
def proofOfWork (matrix : Matrix) (header : Bytes 72) (nonce : UInt64) : Bytes 32 :=
  let first := digest "ProofOfWorkHash" (header.items ++ (toLeBytes nonce).items)
  digest "HeavyHash" (waveMix (product matrix first)).items

theorem proof_of_work_computed (state : HeavyHash.State) (nonce : UInt64) :
    wordsToBytes (calculatePow f1600 state nonce) =
      proofOfWork state.matrix state.powHashHeader nonce := by
  rw [calculatePow, heavyHash, heavy_hasher_digest, pow_hasher_digest state.contains]
  exact congrArg (fun bytes => digest "HeavyHash" bytes.items) (words_to_bytes_chunk _)

/-- The hashers are the digests of their domains, whatever they are given, and start with the
permuted domain blocks, the padding of their messages absorbed. -/
theorem hashers_digest (prePowHash : Hash) (timestamp nonce : UInt64) (words : Words) :
    wordsToBytes (PowHasher.finalizeWithNonce f1600 (PowHasher.new prePowHash timestamp) nonce) =
        digest "ProofOfWorkHash" ((wordsToBytes prePowHash).items ++ (toLeBytes timestamp).items ++
          List.replicate 32 0 ++ (toLeBytes nonce).items) ∧
      wordsToBytes (HeavyHasher.hash f1600 words) =
        digest "HeavyHash" (wordsToBytes words).items ∧
      Initialised (utf8 "ProofOfWorkHash") 10 powInitialState ∧
      Initialised (utf8 "HeavyHash") 4 heavyInitialState := by
  have contains : Contains (PowHasher.new prePowHash timestamp) (powHeader prePowHash timestamp) :=
    (HeavyHash.State.new (randMatrixNoRankCheck fun _ => 0) prePowHash prePowHash
      timestamp).contains
  exact ⟨pow_hasher_digest contains nonce, heavy_hasher_digest words, pow_initialised,
    heavy_initialised⟩

end KeryxMiner.KeccakDomains
