/-!
The lines of `src/client/stratum/statum_codec.rs`. Of a difficulty, a 32-bit
float, only what `integer_decode` gives for its reciprocal is kept.
-/

namespace KeryxMiner.StratumMessages

inductive ErrorCode where
  | unknown
  | jobNotFound
  | duplicateShare
  | lowDifficultyShare
  | unauthorized
  | notSubscribed
  deriving DecidableEq

structure StratumError where
  code : ErrorCode
  text : String
  deriving DecidableEq

/-- The mantissa and the exponent of the reciprocal. -/
structure Difficulty where
  mantissa : UInt64
  exponent : Int16
  deriving DecidableEq

inductive MiningNotify where
  | withTask (id : String) (headerHash : Vector UInt64 4) (timestamp daaScore : UInt64)
      (taskJson : String)
  | shortV2 (id : String) (headerHash : Vector UInt64 4) (timestamp daaScore : UInt64)
  | short (id : String) (headerHash : Vector UInt64 4) (timestamp : UInt64)
  | long (id previous first second : String) (branches : List String)
      (version bits time : String) (clean : Bool)
  deriving DecidableEq

inductive MiningSubmit where
  | withCid (address jobId nonce opoiTag ipfsCid : String)
  | withTag (address jobId nonce opoiTag : String)
  | short (address jobId nonce : String)
  deriving DecidableEq

inductive MiningSubscribe where
  | default (agent : String)
  | options (agent protocol : String)
  deriving DecidableEq

inductive SetExtranonce where
  | plain (extranonce : String) (nonceSize : UInt32)
  | plainEth (extranonce : String)
  deriving DecidableEq

inductive StratumCommand where
  | setExtranonce (extranonce : SetExtranonce)
  | miningSetDifficulty (difficulty : Difficulty)
  | miningNotify (notify : MiningNotify)
  | subscribe (subscribe : MiningSubscribe)
  | authorize (address password : String)
  | miningSubmit (submit : MiningSubmit)
  | miningDeclareCapabilities (modelIds : List String)
  | miningChallenge (modelIdHex nonceHex : String)
  | miningChallengeResponse (modelIdHex nonceHex result : String)
  deriving DecidableEq

inductive StratumResult where
  | plain (accepted : Option Bool)
  | eth (accepted : Bool) (text : String)
  | subscribe (subscriptions : List (String × String)) (extranonce : String) (nonceSize : UInt32)
  deriving DecidableEq

inductive StratumLinePayload where
  | stratumCommand (command : StratumCommand)
  | stratumResult (result : StratumResult)
  deriving DecidableEq

structure StratumLine where
  id : Option UInt32
  payload : StratumLinePayload
  jsonrpc : Option String
  error : Option StratumError
  deriving DecidableEq

end KeryxMiner.StratumMessages
