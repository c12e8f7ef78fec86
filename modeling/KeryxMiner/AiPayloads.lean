import KeryxMiner.ByteCodec

/-!
Payloads of `inference/src/ai_payload.rs`, and what the model store of
`src/slm.rs` answers to its clients.
-/

namespace KeryxMiner.AiPayloads

open ByteCodec

structure Slm where
  loadedModelIds : List (Bytes 32)
  isModelReady : Bytes 32 → Bool

def subnetworkIdAiRequestHex : String := "0300000000000000000000000000000000000000"
def subnetworkIdAiResponseHex : String := "0400000000000000000000000000000000000000"
def minAiRequestPayloadLen : Nat := 52
def maxAiRequestPayloadLen : Nat := 4096
def aiResponsePayloadLen : Nat := 78
def minAiChallengePayloadLen : Nat := 74
def maxAiChallengePayloadLen : Nat := 32768

structure AiRequestPayload where
  modelId : Bytes 32
  maxTokens : UInt32
  inferenceReward : UInt64
  priorityFee : UInt64
  prompt : List UInt8
  deriving DecidableEq

def AiRequestPayload.serialize (request : AiRequestPayload) : List UInt8 :=
  request.modelId.items ++ encode 4 request.maxTokens.toNat ++
    encode 8 request.inferenceReward.toNat ++ encode 8 request.priorityFee.toNat ++ request.prompt

def AiRequestPayload.deserialize (data : List UInt8) : Option AiRequestPayload :=
  if sized : minAiRequestPayloadLen ≤ data.length ∧ data.length ≤ maxAiRequestPayloadLen then
    some {
      modelId := ⟨data.take 32, by
        have long : 52 ≤ data.length := sized.1
        rw [List.length_take]
        omega⟩
      maxTokens := UInt32.ofNat (decode ((data.drop 32).take 4))
      inferenceReward := UInt64.ofNat (decode ((data.drop 36).take 8))
      priorityFee := UInt64.ofNat (decode ((data.drop 44).take 8))
      prompt := data.drop 52 }
  else none

structure AiResponsePayload where
  requestHash : Bytes 32
  challengeWindowEnd : UInt64
  responseIpfsCid : Bytes 34
  responseLength : UInt32
  deriving DecidableEq

def AiResponsePayload.serialize (response : AiResponsePayload) : List UInt8 :=
  response.requestHash.items ++ encode 8 response.challengeWindowEnd.toNat ++
    response.responseIpfsCid.items ++ encode 4 response.responseLength.toNat

def AiResponsePayload.deserialize (data : List UInt8) : Option AiResponsePayload :=
  if sized : data.length = aiResponsePayloadLen then
    some {
      requestHash := ⟨data.take 32, by
        have long : data.length = 78 := sized
        rw [List.length_take]
        omega⟩
      challengeWindowEnd := UInt64.ofNat (decode ((data.drop 32).take 8))
      responseIpfsCid := ⟨(data.drop 40).take 34, by
        have long : data.length = 78 := sized
        rw [List.length_take, List.length_drop]
        omega⟩
      responseLength := UInt32.ofNat (decode ((data.drop 74).take 4)) }
  else none

structure AiChallengePayload where
  responseHash : Bytes 32
  challengerDeposit : UInt64
  challengerSpkVersion : UInt16
  challengerSpk : Bytes 32
  proofData : List UInt8
  deriving DecidableEq

def AiChallengePayload.serialize (challenge : AiChallengePayload) : List UInt8 :=
  challenge.responseHash.items ++ encode 8 challenge.challengerDeposit.toNat ++
    encode 2 challenge.challengerSpkVersion.toNat ++ challenge.challengerSpk.items ++
    challenge.proofData

def AiChallengePayload.deserialize (data : List UInt8) : Option AiChallengePayload :=
  if sized : minAiChallengePayloadLen ≤ data.length ∧ data.length ≤ maxAiChallengePayloadLen then
    some {
      responseHash := ⟨data.take 32, by
        have long : 74 ≤ data.length := sized.1
        rw [List.length_take]
        omega⟩
      challengerDeposit := UInt64.ofNat (decode ((data.drop 32).take 8))
      challengerSpkVersion := UInt16.ofNat (decode ((data.drop 40).take 2))
      challengerSpk := ⟨(data.drop 42).take 32, by
        have long : 74 ≤ data.length := sized.1
        rw [List.length_take, List.length_drop]
        omega⟩
      proofData := data.drop 74 }
  else none

end KeryxMiner.AiPayloads
