import KeryxMiner.AiPayloads
import KeryxMiner.PrefixCodes

/-!
The three payloads are written and read back without loss, and of the bytes that
are read nothing is left out.
-/

namespace KeryxMiner.PayloadCodecs

open AiPayloads ByteCodec PrefixCodes

/-! Words. -/

theorem encode_word {bytes : List UInt8} {width size : Nat} (sized : bytes.length = width)
    (wide : 256 ^ width = 2 ^ size) : encode width (decode bytes % 2 ^ size) = bytes := by
  have small := decode_lt bytes
  rw [sized, wide] at small
  rw [Nat.mod_eq_of_lt small, ← sized, encode_decode]

theorem slice_length {data : List UInt8} {start size : Nat} (long : start + size ≤ data.length) :
    ((data.drop start).take size).length = size := by
  rw [List.length_take, List.length_drop]
  omega

theorem encode_u64 {data : List UInt8} {start : Nat} (long : start + 8 ≤ data.length) :
    encode 8 (UInt64.ofNat (decode ((data.drop start).take 8))).toNat =
      (data.drop start).take 8 := by
  rw [UInt64.toNat_ofNat', encode_word (slice_length long) rfl]

theorem encode_u32 {data : List UInt8} {start : Nat} (long : start + 4 ≤ data.length) :
    encode 4 (UInt32.ofNat (decode ((data.drop start).take 4))).toNat =
      (data.drop start).take 4 := by
  rw [UInt32.toNat_ofNat', encode_word (slice_length long) rfl]

theorem encode_u16 {data : List UInt8} {start : Nat} (long : start + 2 ≤ data.length) :
    encode 2 (UInt16.ofNat (decode ((data.drop start).take 2))).toNat =
      (data.drop start).take 2 := by
  rw [UInt16.toNat_ofNat', encode_word (slice_length long) rfl]

/-! A format, with the lengths from `low` to `high`. -/

section Formats
variable {Payload : Type}

structure ExactCodec (low high : Nat) (serialize : Payload → List UInt8)
    (deserialize : List UInt8 → Option Payload) : Prop where
  round_trip : ∀ payload, low ≤ (serialize payload).length ∧ (serialize payload).length ≤ high →
    deserialize (serialize payload) = some payload
  canonical : ∀ data payload, deserialize data = some payload → serialize payload = data
  rejects : ∀ data, deserialize data = none ↔ ¬ (low ≤ data.length ∧ data.length ≤ high)

/-- What is read from a written payload is written alike. -/
theorem exact_codec {low high : Nat} {serialize : Payload → List UInt8}
    {deserialize : List UInt8 → Option Payload} (injective : Function.Injective serialize)
    (canonical : ∀ data payload, deserialize data = some payload → serialize payload = data)
    (rejects : ∀ data, deserialize data = none ↔ ¬ (low ≤ data.length ∧ data.length ≤ high)) :
    ExactCodec low high serialize deserialize where
  round_trip payload sized := by
    cases parsed : deserialize (serialize payload) with
    | none => exact absurd sized ((rejects _).mp parsed)
    | some other => rw [injective (canonical _ other parsed)]
  canonical := canonical
  rejects := rejects

end Formats

theorem request_injective : Function.Injective AiRequestPayload.serialize := by
  have front : Separates (fun _ : AiRequestPayload => True) _ _ :=
    (((separates_bytes 32 (·.modelId)).append
      (separates_word 4 (·.maxTokens.toNat) fun request _ => request.maxTokens.toNat_lt)).append
      (separates_word 8 (·.inferenceReward.toNat) fun request _ =>
        request.inferenceReward.toNat_lt)).append
      (separates_word 8 (·.priorityFee.toNat) fun request _ => request.priorityFee.toNat_lt)
  intro left right same
  obtain ⟨fields, prompts⟩ := front left right trivial trivial _ _ same
  obtain ⟨modelId, maxTokens, inferenceReward, priorityFee, prompt⟩ := left
  obtain ⟨modelId', maxTokens', inferenceReward', priorityFee', prompt'⟩ := right
  simp only [Prod.mk.injEq, UInt32.toNat_inj, UInt64.toNat_inj] at fields
  obtain ⟨⟨⟨rfl, rfl⟩, rfl⟩, rfl⟩ := fields
  obtain rfl : prompt = prompt' := prompts
  rfl

theorem request_codec : ExactCodec minAiRequestPayloadLen maxAiRequestPayloadLen
    AiRequestPayload.serialize AiRequestPayload.deserialize := by
  apply exact_codec request_injective
  · intro data payload parsed
    unfold AiRequestPayload.deserialize at parsed
    split at parsed
    · rename_i sized
      obtain rfl := Option.some.inj parsed
      have long : 52 ≤ data.length := sized.1
      rw [AiRequestPayload.serialize, encode_u32 (by omega), encode_u64 (by omega),
        encode_u64 (by omega), ← List.take_add, ← List.take_add, ← List.take_add,
        List.take_append_drop]
    · cases parsed
  · intro data
    simp [AiRequestPayload.deserialize]

theorem response_injective : Function.Injective AiResponsePayload.serialize := by
  have front : Separates (fun _ : AiResponsePayload => True) _ _ :=
    (((separates_bytes 32 (·.requestHash)).append
      (separates_word 8 (·.challengeWindowEnd.toNat) fun response _ =>
        response.challengeWindowEnd.toNat_lt)).append
      (separates_bytes 34 (·.responseIpfsCid))).append
      (separates_word 4 (·.responseLength.toNat) fun response _ =>
        response.responseLength.toNat_lt)
  intro left right same
  have fields := front.injective trivial trivial same
  obtain ⟨requestHash, challengeWindowEnd, responseIpfsCid, responseLength⟩ := left
  obtain ⟨requestHash', challengeWindowEnd', responseIpfsCid', responseLength'⟩ := right
  simp only [Prod.mk.injEq, UInt32.toNat_inj, UInt64.toNat_inj] at fields
  obtain ⟨⟨⟨rfl, rfl⟩, rfl⟩, rfl⟩ := fields
  rfl

theorem response_codec : ExactCodec aiResponsePayloadLen aiResponsePayloadLen
    AiResponsePayload.serialize AiResponsePayload.deserialize := by
  apply exact_codec response_injective
  · intro data payload parsed
    unfold AiResponsePayload.deserialize at parsed
    split at parsed
    · rename_i sized
      obtain rfl := Option.some.inj parsed
      have long : data.length = 78 := sized
      rw [AiResponsePayload.serialize, encode_u64 (by omega), encode_u32 (by omega),
        ← List.take_add, ← List.take_add, ← List.take_add, List.take_of_length_le (by omega)]
    · cases parsed
  · intro data
    simp only [AiResponsePayload.deserialize, dite_eq_right_iff, reduceCtorEq, imp_false]
    omega

theorem challenge_injective : Function.Injective AiChallengePayload.serialize := by
  have front : Separates (fun _ : AiChallengePayload => True) _ _ :=
    (((separates_bytes 32 (·.responseHash)).append
      (separates_word 8 (·.challengerDeposit.toNat) fun challenge _ =>
        challenge.challengerDeposit.toNat_lt)).append
      (separates_word 2 (·.challengerSpkVersion.toNat) fun challenge _ =>
        challenge.challengerSpkVersion.toNat_lt)).append
      (separates_bytes 32 (·.challengerSpk))
  intro left right same
  obtain ⟨fields, proofs⟩ := front left right trivial trivial _ _ same
  obtain ⟨responseHash, challengerDeposit, spkVersion, challengerSpk, proofData⟩ := left
  obtain ⟨responseHash', challengerDeposit', spkVersion', challengerSpk', proofData'⟩ := right
  simp only [Prod.mk.injEq, UInt16.toNat_inj, UInt64.toNat_inj] at fields
  obtain ⟨⟨⟨rfl, rfl⟩, rfl⟩, rfl⟩ := fields
  obtain rfl : proofData = proofData' := proofs
  rfl

theorem challenge_codec : ExactCodec minAiChallengePayloadLen maxAiChallengePayloadLen
    AiChallengePayload.serialize AiChallengePayload.deserialize := by
  apply exact_codec challenge_injective
  · intro data payload parsed
    unfold AiChallengePayload.deserialize at parsed
    split at parsed
    · rename_i sized
      obtain rfl := Option.some.inj parsed
      have long : 74 ≤ data.length := sized.1
      rw [AiChallengePayload.serialize, encode_u64 (by omega), encode_u16 (by omega),
        ← List.take_add, ← List.take_add, ← List.take_add, List.take_append_drop]
    · cases parsed
  · intro data
    simp [AiChallengePayload.deserialize]

/-- Over every value and every byte string, with a response of one length only. -/
theorem payload_codecs_exact :
    ExactCodec minAiRequestPayloadLen maxAiRequestPayloadLen AiRequestPayload.serialize
        AiRequestPayload.deserialize ∧
      ExactCodec aiResponsePayloadLen aiResponsePayloadLen AiResponsePayload.serialize
        AiResponsePayload.deserialize ∧
      ExactCodec minAiChallengePayloadLen maxAiChallengePayloadLen AiChallengePayload.serialize
        AiChallengePayload.deserialize :=
  ⟨request_codec, response_codec, challenge_codec⟩

end KeryxMiner.PayloadCodecs
