/-!
The node messages of `proto/rpc.proto`, with the fields the modelled code reads or
sets. A message field is an `Option`, a repeated field a list; the fields with a
default here are those the escrow code never sets.
-/

namespace KeryxMiner.RpcMessages

structure RpcOutpoint where
  transactionId : String
  index : UInt32
  deriving DecidableEq

structure RpcTransactionInputVerboseData where
  deriving DecidableEq

structure RpcTransactionInput where
  previousOutpoint : Option RpcOutpoint
  signatureScript : String
  sequence : UInt64
  sigOpCount : UInt32
  verboseData : Option RpcTransactionInputVerboseData := none
  deriving DecidableEq

structure RpcScriptPublicKey where
  version : UInt32
  scriptPublicKey : String
  deriving DecidableEq

structure RpcTransactionOutputVerboseData where
  scriptPublicKeyType : String
  scriptPublicKeyAddress : String
  deriving DecidableEq

structure RpcTransactionOutput where
  amount : UInt64
  scriptPublicKey : Option RpcScriptPublicKey
  verboseData : Option RpcTransactionOutputVerboseData := none
  deriving DecidableEq

structure RpcTransactionVerboseData where
  transactionId : String
  deriving DecidableEq

structure RpcTransaction where
  version : UInt32
  inputs : List RpcTransactionInput
  outputs : List RpcTransactionOutput
  lockTime : UInt64
  subnetworkId : String
  gas : UInt64
  payload : String
  mass : UInt64
  verboseData : Option RpcTransactionVerboseData
  deriving DecidableEq

structure RpcBlockLevelParents where
  parentHashes : List String
  deriving DecidableEq

structure RpcBlockHeader where
  version : UInt32 := 0
  parents : List RpcBlockLevelParents := []
  hashMerkleRoot : String := ""
  acceptedIdMerkleRoot : String := ""
  utxoCommitment : String := ""
  timestamp : Int64 := 0
  bits : UInt32 := 0
  nonce : UInt64 := 0
  daaScore : UInt64
  blueWork : String := ""
  pruningPoint : String := ""
  blueScore : UInt64 := 0
  deriving DecidableEq

structure RpcBlockVerboseData where
  hash : String
  mergeSetRedsHashes : List String
  deriving DecidableEq

structure RpcBlock where
  header : Option RpcBlockHeader
  transactions : List RpcTransaction
  verboseData : Option RpcBlockVerboseData
  deriving DecidableEq

end KeryxMiner.RpcMessages
