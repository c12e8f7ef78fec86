import KeryxMiner.GrpcClient
import KeryxMiner.HeaderBytes

/-!
What `compute_rpc_txid` hashes is the unsigned transaction and nothing else. The
hex crate is a parameter, so texts that it decodes alike count as equal.
-/

namespace KeryxMiner.TransactionIds

open ByteCodec GrpcClient PrefixCodes RpcMessages

structure UnsignedInput where
  previousTxid : Bytes 32
  index : UInt32
  sequence : UInt64
  deriving DecidableEq

structure UnsignedOutput where
  amount : UInt64
  scriptVersion : UInt32
  script : List UInt8
  deriving DecidableEq

structure UnsignedTransaction where
  version : UInt32
  inputs : List UnsignedInput
  outputs : List UnsignedOutput
  lockTime : UInt64
  subnetworkId : Bytes 20
  gas : UInt64
  payload : List UInt8
  deriving DecidableEq

def UnsignedInput.stream (input : UnsignedInput) : List UInt8 :=
  input.previousTxid.items ++ encode 4 input.index.toNat ++ encode 8 0 ++
    encode 8 input.sequence.toNat

def UnsignedOutput.stream (output : UnsignedOutput) : List UInt8 :=
  encode 8 output.amount.toNat ++ encode 2 output.scriptVersion.toNat ++
    (encode 8 output.script.length ++ output.script)

def UnsignedTransaction.stream (tx : UnsignedTransaction) : List UInt8 :=
  encode 2 tx.version.toNat ++ counted 8 UnsignedInput.stream tx.inputs ++
    counted 8 UnsignedOutput.stream tx.outputs ++ encode 8 tx.lockTime.toNat ++
    tx.subnetworkId.items ++ encode 8 tx.gas.toNat ++
    (encode 8 tx.payload.length ++ tx.payload)

section Parsing

variable (crates : NodeCrates)

/-- Decoded text of one length. -/
def sizedHex (size : Nat) (text : String) : Option (Bytes size) := do
  let bytes ← decodeHex crates text
  if sized : bytes.length = size then some ⟨bytes, sized⟩ else none

def unsignedInput (input : RpcTransactionInput) : Option UnsignedInput := do
  let previous ← input.previousOutpoint
  let txid ← sizedHex crates 32 previous.transactionId
  some ⟨txid, previous.index, input.sequence⟩

def unsignedOutput (output : RpcTransactionOutput) : Option UnsignedOutput := do
  let spk ← output.scriptPublicKey
  let script ← decodeHex crates spk.scriptPublicKey
  some ⟨output.amount, spk.version, script⟩

def unsignedTransaction (tx : RpcTransaction) : Option UnsignedTransaction := do
  let inputs ← tx.inputs.mapM (unsignedInput crates)
  let outputs ← tx.outputs.mapM (unsignedOutput crates)
  let subnetworkId ← sizedHex crates 20 tx.subnetworkId
  let payload ← decodeHex crates tx.payload
  some {
    version := tx.version
    inputs
    outputs
    lockTime := tx.lockTime
    subnetworkId
    gas := tx.gas
    payload }

theorem input_bytes_eq (input : RpcTransactionInput) :
    inputBytes crates input = (unsignedInput crates input).map UnsignedInput.stream := by
  unfold inputBytes unsignedInput sizedHex
  cases input.previousOutpoint with
  | none => rfl
  | some previous =>
      simp only [Option.bind_eq_bind, Option.bind_some]
      cases decodeHex crates previous.transactionId with
      | none => rfl
      | some txid => by_cases sized : txid.length = 32 <;> simp [sized, UnsignedInput.stream]

theorem output_bytes_eq (output : RpcTransactionOutput) :
    outputBytes crates output = (unsignedOutput crates output).map UnsignedOutput.stream := by
  unfold outputBytes unsignedOutput
  cases output.scriptPublicKey with
  | none => rfl
  | some spk =>
      cases decodeHex crates spk.scriptPublicKey <;>
        simp [UnsignedOutput.stream, List.append_assoc]

/-- The stream is that of the unsigned transaction, and is missing only with it. -/
theorem txid_stream_eq (tx : RpcTransaction) :
    txidStream crates tx = (unsignedTransaction crates tx).map UnsignedTransaction.stream := by
  unfold txidStream unsignedTransaction sizedHex
  rw [funext (input_bytes_eq crates), funext (output_bytes_eq crates), map_m_map, map_m_map]
  cases inputsParsed : tx.inputs.mapM (unsignedInput crates) with
  | none => rfl
  | some inputs =>
    cases outputsParsed : tx.outputs.mapM (unsignedOutput crates) with
    | none => rfl
    | some outputs =>
      cases decodeHex crates tx.subnetworkId with
      | none => rfl
      | some subnetwork =>
        by_cases sized : subnetwork.length = 20
        · cases decodeHex crates tx.payload <;>
            simp [sized, UnsignedTransaction.stream, counted, (map_m_parsed inputsParsed).1,
              (map_m_parsed outputsParsed).1, List.flatMap_def, List.append_assoc]
        · cases decodeHex crates tx.payload <;> simp [sized]

end Parsing

/-! The parts of the stream can be told apart. -/

theorem input_separates : Separates (fun _ => True) id UnsignedInput.stream := by
  have txid : Separates (fun _ => True) UnsignedInput.previousTxid
      fun input => input.previousTxid.items := separates_bytes 32 _
  have index : Separates (fun _ => True) (fun input => input.index.toNat)
      fun input : UnsignedInput => encode 4 input.index.toNat :=
    separates_word 4 _ fun input _ => input.index.toNat_lt
  have empty : Separates (fun _ => True) (fun _ => 0) fun _ : UnsignedInput => encode 8 0 :=
    separates_word 8 _ fun _ _ => by omega
  have sequence : Separates (fun _ => True) (fun input => input.sequence.toNat)
      fun input : UnsignedInput => encode 8 input.sequence.toNat :=
    separates_word 8 _ fun input _ => input.sequence.toNat_lt
  refine (((txid.append index).append empty).append sequence).view fun left right same => ?_
  simp only [Prod.mk.injEq, UInt32.toNat_inj, UInt64.toNat_inj] at same
  cases left
  cases right
  simpa [and_assoc] using same

structure UnsignedOutput.Writable (output : UnsignedOutput) : Prop where
  version : output.scriptVersion.toNat < 256 ^ 2
  script : output.script.length < 256 ^ 8

theorem output_separates : Separates UnsignedOutput.Writable id UnsignedOutput.stream := by
  have amount : Separates UnsignedOutput.Writable (fun output => output.amount.toNat)
      fun output => encode 8 output.amount.toNat :=
    separates_word 8 _ fun output _ => output.amount.toNat_lt
  have version : Separates UnsignedOutput.Writable (fun output => output.scriptVersion.toNat)
      fun output => encode 2 output.scriptVersion.toNat :=
    separates_word 2 _ fun _ writable => writable.version
  have script : Separates UnsignedOutput.Writable UnsignedOutput.script
      fun output => encode 8 output.script.length ++ output.script :=
    separates_var_bytes 8 _ fun _ writable => writable.script
  refine ((amount.append version).append script).view fun left right same => ?_
  simp only [Prod.mk.injEq, UInt32.toNat_inj, UInt64.toNat_inj] at same
  cases left
  cases right
  simpa [and_assoc] using same

structure UnsignedTransaction.Writable (tx : UnsignedTransaction) : Prop where
  version : tx.version.toNat < 256 ^ 2
  inputs : Countable 8 (fun _ => True) tx.inputs
  outputs : Countable 8 UnsignedOutput.Writable tx.outputs
  payload : tx.payload.length < 256 ^ 8

theorem transaction_separates :
    Separates UnsignedTransaction.Writable id UnsignedTransaction.stream := by
  have version : Separates UnsignedTransaction.Writable (fun tx => tx.version.toNat)
      fun tx => encode 2 tx.version.toNat :=
    separates_word 2 _ fun _ writable => writable.version
  have inputs : Separates UnsignedTransaction.Writable (fun tx => tx.inputs.map id)
      fun tx => counted 8 UnsignedInput.stream tx.inputs :=
    (input_separates.counted 8).field UnsignedTransaction.inputs fun _ writable => writable.inputs
  have outputs : Separates UnsignedTransaction.Writable (fun tx => tx.outputs.map id)
      fun tx => counted 8 UnsignedOutput.stream tx.outputs :=
    (output_separates.counted 8).field UnsignedTransaction.outputs
      fun _ writable => writable.outputs
  have word (get : UnsignedTransaction → UInt64) :
      Separates UnsignedTransaction.Writable (fun tx => (get tx).toNat)
        fun tx => encode 8 (get tx).toNat :=
    separates_word 8 _ fun tx _ => (get tx).toNat_lt
  have subnetwork : Separates UnsignedTransaction.Writable UnsignedTransaction.subnetworkId
      fun tx => tx.subnetworkId.items := separates_bytes 20 _
  have payload : Separates UnsignedTransaction.Writable UnsignedTransaction.payload
      fun tx => encode 8 tx.payload.length ++ tx.payload :=
    separates_var_bytes 8 _ fun _ writable => writable.payload
  have lists := (version.append inputs).append outputs
  have whole := (((lists.append (word UnsignedTransaction.lockTime)).append subnetwork).append
    (word UnsignedTransaction.gas)).append payload
  refine whole.view fun left right same => ?_
  simp only [Prod.mk.injEq, UInt32.toNat_inj, UInt64.toNat_inj, List.map_id] at same
  cases left
  cases right
  simpa [and_assoc] using same

/-! Transactions with versions of 16 bits and lengths that a `Vec` can have. -/

section Committing

variable (crates : NodeCrates)

structure Admitted (tx : RpcTransaction) : Prop where
  version : tx.version.toNat < 2 ^ 16
  scriptVersions : ∀ output ∈ tx.outputs, ∀ spk, output.scriptPublicKey = some spk →
    spk.version.toNat < 2 ^ 16
  inputs : tx.inputs.length < 2 ^ 64
  outputs : tx.outputs.length < 2 ^ 64
  scripts : ∀ output ∈ tx.outputs, ∀ spk script, output.scriptPublicKey = some spk →
    decodeHex crates spk.scriptPublicKey = some script → script.length < 2 ^ 64
  payload : ∀ payload, decodeHex crates tx.payload = some payload → payload.length < 2 ^ 64

variable {crates}

theorem admitted_output {tx : RpcTransaction} (admitted : Admitted crates tx)
    {output : RpcTransactionOutput} (present : output ∈ tx.outputs) {parsed : UnsignedOutput}
    (read : unsignedOutput crates output = some parsed) : parsed.Writable := by
  obtain ⟨spk, hasSpk, decoded⟩ := Option.bind_eq_some_iff.mp read
  obtain ⟨script, hasScript, built⟩ := Option.bind_eq_some_iff.mp decoded
  obtain rfl := Option.some.inj built
  exact ⟨admitted.scriptVersions output present spk hasSpk,
    admitted.scripts output present spk script hasSpk hasScript⟩

theorem admitted_writable {tx : RpcTransaction} (admitted : Admitted crates tx)
    {parsed : UnsignedTransaction} (read : unsignedTransaction crates tx = some parsed) :
    parsed.Writable := by
  obtain ⟨inputs, inputsRead, read⟩ := Option.bind_eq_some_iff.mp read
  obtain ⟨outputs, outputsRead, read⟩ := Option.bind_eq_some_iff.mp read
  obtain ⟨subnetworkId, -, read⟩ := Option.bind_eq_some_iff.mp read
  obtain ⟨payload, payloadRead, built⟩ := Option.bind_eq_some_iff.mp read
  obtain rfl := Option.some.inj built
  obtain ⟨inputCount, -⟩ := map_m_parsed inputsRead
  obtain ⟨outputCount, sources⟩ := map_m_parsed outputsRead
  constructor
  · exact admitted.version
  · exact ⟨inputCount.trans_lt admitted.inputs, fun _ _ => trivial⟩
  · refine ⟨outputCount.trans_lt admitted.outputs, fun output member => ?_⟩
    obtain ⟨source, present, outputRead⟩ := sources output member
    exact admitted_output admitted present outputRead
  · exact admitted.payload payload payloadRead

/-- The transaction without what a signature or the node adds to it. -/
def bare (tx : RpcTransaction) : RpcTransaction :=
  { tx with
    inputs := tx.inputs.map fun input =>
      { input with signatureScript := "", sigOpCount := 0, verboseData := none }
    outputs := tx.outputs.map fun output => { output with verboseData := none }
    mass := 0
    verboseData := none }

theorem txid_stream_bare (tx : RpcTransaction) :
    txidStream crates (bare tx) = txidStream crates tx := by
  unfold txidStream bare
  simp only [List.mapM_map, List.length_map]
  rfl

/-- Two streams are equal exactly when the unsigned transactions are; signatures,
signature counts, the mass and verbose data are not in them. -/
theorem txid_commits (left right : RpcTransaction) (leftAdmitted : Admitted crates left)
    (rightAdmitted : Admitted crates right) (leftId rightId : String)
    (leftComputed : computeRpcTxid crates left = some leftId)
    (rightComputed : computeRpcTxid crates right = some rightId) :
    (∃ leftParsed rightParsed, unsignedTransaction crates left = some leftParsed ∧
      unsignedTransaction crates right = some rightParsed ∧
      (txidStream crates left = txidStream crates right ↔ leftParsed = rightParsed)) ∧
      (bare left = bare right → txidStream crates left = txidStream crates right) := by
  obtain ⟨leftStream, leftWritten, -⟩ := Option.map_eq_some_iff.mp leftComputed
  obtain ⟨rightStream, rightWritten, -⟩ := Option.map_eq_some_iff.mp rightComputed
  obtain ⟨leftParsed, leftRead, -⟩ :=
    Option.map_eq_some_iff.mp ((txid_stream_eq crates left).symm.trans leftWritten)
  obtain ⟨rightParsed, rightRead, -⟩ :=
    Option.map_eq_some_iff.mp ((txid_stream_eq crates right).symm.trans rightWritten)
  constructor
  · refine ⟨leftParsed, rightParsed, leftRead, rightRead, ?_, ?_⟩
    · intro same
      rw [txid_stream_eq, txid_stream_eq, leftRead, rightRead] at same
      exact transaction_separates.injective (admitted_writable leftAdmitted leftRead)
        (admitted_writable rightAdmitted rightRead) (Option.some.inj same)
    · rintro rfl
      rw [txid_stream_eq, txid_stream_eq, leftRead, rightRead]
  · intro same
    rw [← txid_stream_bare left, same, txid_stream_bare]

end Committing

/-! A signed transaction before and after its input is signed again. -/

def hexBytes (text : String) : Except String (List UInt8) :=
  match HeaderBytes.decodeToSlice (HeaderBytes.utf8 text)
      (List.replicate ((HeaderBytes.utf8 text).length / 2) 0) with
  | .ok bytes => .ok bytes
  | .error _ => .error "Invalid character"

def hexCrates : NodeCrates where
  escrow := {
    hexDecode := hexBytes
    hexEncode := fun bytes => String.ofList
      (bytes.flatMap fun b => [Nat.digitChar (b.toNat / 16), Nat.digitChar (b.toNat % 16)])
    blake2b := fun _ _ => zeroBytes 32
    fromDigestSlice := .ok
    signSchnorr := fun _ _ => zeroBytes 64 }
  blake2b _ := zeroBytes 64
  fromUtf8Lossy _ := ""
  fromSlice _ := none
  registry := []
  debugError text := text

def signedTransaction (signatureScript : String) : RpcTransaction where
  version := 0
  inputs := [⟨some ⟨HeaderBytes.digits "1f", 2⟩, signatureScript, 9, 1, none⟩]
  outputs := [⟨5000, some ⟨0, "20aabbac"⟩, none⟩]
  lockTime := 0
  subnetworkId := "0300000000000000000000000000000000000000"
  gas := 0
  payload := "4b5258"
  mass := 0
  verboseData := none

theorem signed_admitted (signatureScript : String) :
    Admitted hexCrates (signedTransaction signatureScript) := by
  have script : decodeHex hexCrates "20aabbac" = some [0x20, 0xaa, 0xbb, 0xac] := by decide
  have payload : decodeHex hexCrates "4b5258" = some [0x4b, 0x52, 0x58] := by decide
  constructor
  case scripts =>
    simp only [signedTransaction, List.mem_singleton, forall_eq, Option.some.injEq]
    rintro _ bytes rfl decoded
    obtain rfl := Option.some.inj (script.symm.trans decoded)
    simp
  all_goals simp [signedTransaction, payload]

theorem txid_commits_resigned :
    (∃ leftParsed rightParsed,
      unsignedTransaction hexCrates (signedTransaction "") = some leftParsed ∧
      unsignedTransaction hexCrates (signedTransaction "41ff") = some rightParsed ∧
      (txidStream hexCrates (signedTransaction "") =
        txidStream hexCrates (signedTransaction "41ff") ↔ leftParsed = rightParsed)) ∧
      (bare (signedTransaction "") = bare (signedTransaction "41ff") →
        txidStream hexCrates (signedTransaction "") =
          txidStream hexCrates (signedTransaction "41ff")) :=
  txid_commits (signedTransaction "") (signedTransaction "41ff") (signed_admitted "")
    (signed_admitted "41ff") (HeaderBytes.digits "00") (HeaderBytes.digits "00")
    (by decide +kernel) (by decide +kernel)

end KeryxMiner.TransactionIds
