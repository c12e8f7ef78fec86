import KeryxMiner.HeaderBytes
import KeryxMiner.HeavyHash
import KeryxMiner.MinerJobs
import KeryxMiner.SharedWeights
import KeryxMiner.Targets

/-!
`pow::State` of `src/pow.rs` with all that it computes from a block, and the blocks it makes of
winning nonces. A node computes the same state from the block it is sent.
-/

namespace KeryxMiner.BlockSubmission

open ByteCodec HeaderBytes HeavyHash MinerJobs PomKernel PomPrimitives PossessionProof RpcMessages
open Targets WeightIndex

/-- A block with its `pom_proof`, empty when there is none. -/
structure Block where
  rpc : RpcBlock
  pomProof : List UInt8

inductive BlockSeed where
  | fullBlock (block : Block)
  | partialBlock (share : PartialBlock)

/-! The matrix of a header. -/

def keryxMatrixSaltV1 : List UInt8 := utf8 "KERYX:KeryxHash-v1:2026-04-12:xx"

def keryxMatrixSaltV2 : List UInt8 := utf8 "KERYX:KeryxHash-v2:2026-05-29:xx"

def keryxMatrixSaltV4 : List UInt8 := utf8 "KERYX:KeryxHash-v4:2026-06-07:xx"

def powSaltV2ActivationDaa : UInt64 := 17275000

def powSaltV4ActivationDaa : UInt64 := 21932751

def activeSaltVersion (daaScore : UInt64) : UInt8 :=
  if powSaltV4ActivationDaa ≤ daaScore then 4
  else if powSaltV2ActivationDaa ≤ daaScore then 2
  else 1

def salted (hash : Hash) (saltVersion : UInt8) : List UInt8 :=
  let salt :=
    if saltVersion = 1 then keryxMatrixSaltV1
    else if saltVersion = 2 then keryxMatrixSaltV2
    else keryxMatrixSaltV4
  List.zipWith (· ^^^ ·) (wordsToBytes hash).items salt

/-! `State::new`. -/

structure PowState where
  id : Nat
  pow : HeavyHash.State
  block : BlockSeed
  nonceMask : UInt64
  nonceFixed : UInt64
  daaScore : UInt64

/-- `Uint256` and the header hash of a share, as the hashers take them. -/
def words (limbs : Limbs) : Words := ⟨limbs.toList, by simp⟩

section State
variable (headerHash : List UInt8 → Hash) (firstFullRank : List UInt8 → Matrix)

/-- The hashing state: `firstFullRank` is the loop of `Matrix::generate` over its generator. -/
def hashing (prePowHash : Hash) (timestamp : UInt64) (target : Words) (daaScore : UInt64) :
    HeavyHash.State :=
  HeavyHash.State.new (firstFullRank (salted prePowHash (activeSaltVersion daaScore))) target
    prePowHash timestamp

/-- `none` is a panic. -/
def PowState.new (id : Nat) (blockSeed : BlockSeed) : Option (Except String PowState) :=
  match blockSeed with
  | .fullBlock block =>
      match block.rpc.header with
      | none => some (.error "Header is missing")
      | some header => do
          let target ← u256FromCompactTarget header.bits
          let stream ← serializeHeader true header
          return .ok {
            id
            pow := hashing firstFullRank (headerHash stream) header.timestamp.toUInt64 target
              header.daaScore
            block := blockSeed
            nonceMask := 0xffffffffffffffff
            nonceFixed := 0
            daaScore := header.daaScore }
  | .partialBlock share => some (.ok {
      id
      pow := hashing firstFullRank (words share.headerHash) share.timestamp (words share.target)
        share.daaScore
      block := blockSeed
      nonceMask := share.nonceMask
      nonceFixed := share.nonceFixed
      daaScore := share.daaScore })

end State

/-! `generate_block_if_pow` and `generate_block_if_pom`. -/

/-- `header.nonce = nonce`. -/
def Block.withNonce (block : Block) (nonce : UInt64) : Block :=
  { block with rpc := { block.rpc with
      header := block.rpc.header.map fun header => { header with nonce := nonce } } }

def hexDigit (value : UInt8) : Char :=
  Char.ofNat (if value < 10 then 48 + value.toNat else 87 + value.toNat)

/-- `LowerHex` of `Uint256`, the least significant byte first. -/
def lowerHex (x : Words) : String :=
  String.ofList ((wordsToBytes x).items.flatMap fun byte =>
    [hexDigit (byte / 16), hexDigit (byte % 16)])

def generateBlockIfPow (f1600 : Lanes → Lanes) (state : PowState) (nonce : UInt64) :
    Option BlockSeed :=
  if checkPow f1600 state.pow nonce then
    match state.block with
    | .fullBlock block => some (.fullBlock (block.withNonce nonce))
    | .partialBlock share => some (.partialBlock { share with
        nonce
        hash := some (lowerHex (calculatePow f1600 state.pow nonce)) })
  else none

def pomOpenings : Nat := 32

/-- The hash and the time that the walk is seeded with. -/
def PowState.pph (state : PowState) : Bytes 32 :=
  ⟨state.pow.powHashHeader.items.take 32, by simp [state.pow.powHashHeader.sized]⟩

def PowState.timestamp (state : PowState) : UInt64 :=
  fromLeBytes ((state.pow.powHashHeader.items.drop 32).take 8)

/-- `borsh` writes the proof as `toVec`; the first `none` is a panic. -/
def generateBlockIfPom (blake : Blake (Bytes 32))
    (toVec : PomProof (Bytes 32) → Option (List UInt8)) (state : PowState) (nonce : UInt64)
    (index : Index) (tier : UInt8) : Option (Option BlockSeed) := do
  let seed := pomBlockSeed state.pph state.timestamp nonce
  let finalState ← walkFinal seed index.nChunks pomWalkSteps.toNat (readChunk index)
  if leLeq (pomPowValue finalState state.pph) (wordsToBytes state.pow.target) then
    let proof ← buildProof blake tier state.pph nonce seed index.nChunks pomWalkSteps.toNat
      pomOpenings (readChunk index) (merklePath blake index)
    return do
      let bytes ← toVec proof
      match state.block with
      | .fullBlock block => some (.fullBlock { block.withNonce nonce with pomProof := bytes })
      | .partialBlock _ => none
  else return none

/-! What a node computes from the block it is sent. -/

/-- The nonce, the hash of a share and the proof are all that mining adds. -/
def BlockSeed.unmined : BlockSeed → BlockSeed
  | .fullBlock block => .fullBlock { block.withNonce 0 with pomProof := [] }
  | .partialBlock share => .partialBlock { share with nonce := 0, hash := none }

def BlockSeed.nonce : BlockSeed → Option UInt64
  | .fullBlock block => block.rpc.header.map RpcBlockHeader.nonce
  | .partialBlock share => some share.nonce

/-- The pre-pow hash is taken without nonce and time. -/
theorem pre_pow_nonce (header : RpcBlockHeader) (nonce : UInt64) :
    serializeHeader true { header with nonce } = serializeHeader true header := rfl

section Recomputed
variable {headerHash : List UInt8 → Hash} {firstFullRank : List UInt8 → Matrix} {id : Nat}
  {blockSeed : BlockSeed} {state : PowState}

/-- What `State::new` reads of a full block. -/
structure Reads (headerHash : List UInt8 → Hash) (firstFullRank : List UInt8 → Matrix)
    (header : RpcBlockHeader) (target : Words) (stream : List UInt8) (state : PowState) :
    Prop where
  compact : u256FromCompactTarget header.bits = some target
  written : serializeHeader true header = some stream
  whole : state = {
    id := state.id
    pow := hashing firstFullRank (headerHash stream) header.timestamp.toUInt64 target
      header.daaScore
    block := state.block
    nonceMask := 0xffffffffffffffff
    nonceFixed := 0
    daaScore := header.daaScore }

theorem made_full {block : Block}
    (made : PowState.new headerHash firstFullRank id (.fullBlock block) = some (.ok state)) :
    state.block = .fullBlock block ∧ ∃ header target stream, block.rpc.header = some header ∧
      Reads headerHash firstFullRank header target stream state := by
  rw [PowState.new] at made
  cases present : block.rpc.header with
  | none =>
      rw [present] at made
      cases made
  | some header =>
      rw [present] at made
      obtain ⟨target, compact, made⟩ := Option.bind_eq_some_iff.mp made
      obtain ⟨stream, written, made⟩ := Option.bind_eq_some_iff.mp made
      obtain rfl := Except.ok.inj (Option.some.inj made)
      exact ⟨rfl, header, target, stream, rfl, compact, written, rfl⟩

theorem Reads.recomputes {header other : RpcBlockHeader} {target : Words} {stream : List UInt8}
    (reads : Reads headerHash firstFullRank header target stream state)
    (nonce : UInt64) (same : other = { header with nonce }) (block : Block)
    (present : block.rpc.header = some other) (again : Nat) :
    PowState.new headerHash firstFullRank again (.fullBlock block) =
      some (.ok { state with id := again, block := .fullBlock block }) := by
  obtain ⟨compact, written, whole⟩ := reads
  subst same
  rw [PowState.new, present]
  dsimp only
  rw [compact, pre_pow_nonce, written, whole]
  rfl

theorem with_nonce_header {block : Block} {header : RpcBlockHeader}
    (present : block.rpc.header = some header) (nonce : UInt64) :
    (block.withNonce nonce).rpc.header = some { header with nonce } := by
  simp only [Block.withNonce, present, Option.map_some]

theorem with_nonce_unmined (block : Block) (nonce : UInt64) (proof : List UInt8) :
    BlockSeed.unmined (.fullBlock ⟨(block.withNonce nonce).rpc, proof⟩) =
      BlockSeed.unmined (.fullBlock block) := by
  simp only [BlockSeed.unmined, Block.withNonce, Option.map_map]
  rfl

/-- A block or share made of a winning nonce: from it a node computes the state that was mined,
in which the nonce it carries passes; nothing else of the job has changed. -/
theorem pow_block_recomputed {f1600 : Lanes → Lanes} {nonce : UInt64} {mined : BlockSeed}
    (made : PowState.new headerHash firstFullRank id blockSeed = some (.ok state))
    (found : generateBlockIfPow f1600 state nonce = some mined) :
    (∀ again, PowState.new headerHash firstFullRank again mined =
      some (.ok { state with id := again, block := mined })) ∧
    mined.nonce = some nonce ∧ checkPow f1600 state.pow nonce = true ∧
    mined.unmined = blockSeed.unmined := by
  rw [generateBlockIfPow] at found
  split at found
  · rename_i passes
    cases blockSeed with
    | fullBlock block =>
        obtain ⟨same, header, target, stream, present, reads⟩ := made_full made
        rw [same] at found
        obtain rfl := Option.some.inj found
        have changed := with_nonce_header present nonce
        refine ⟨reads.recomputes nonce rfl _ changed, ?_, passes,
          with_nonce_unmined block nonce _⟩
        rw [BlockSeed.nonce, changed]
        rfl
    | partialBlock share =>
        obtain rfl := Except.ok.inj (Option.some.inj made)
        obtain rfl := Option.some.inj found
        exact ⟨fun _ => rfl, rfl, passes, rfl⟩
  · cases found

/-- What the workers' loops read of a state. -/
def BlockSeed.plain : BlockSeed → MinerJobs.BlockSeed
  | .fullBlock block => .fullBlock block.rpc
  | .partialBlock share => .partialBlock share

def PowState.job (state : PowState) : Job where
  id := state.id
  block := state.block.plain
  nonceMask := state.nonceMask
  nonceFixed := state.nonceFixed
  daaScore := state.daaScore

theorem new_job (made : PowState.new headerHash firstFullRank id blockSeed = some (.ok state)) :
    Job.new id blockSeed.plain = .ok state.job := by
  cases blockSeed with
  | fullBlock block =>
      obtain ⟨_, header, _, _, present, _⟩ := made_full made
      rw [BlockSeed.plain, Job.new, present]
      rw [PowState.new, present] at made
      obtain ⟨_, _, made⟩ := Option.bind_eq_some_iff.mp made
      obtain ⟨_, _, made⟩ := Option.bind_eq_some_iff.mp made
      obtain rfl := Except.ok.inj (Option.some.inj made)
      rfl
  | partialBlock share =>
      obtain rfl := Except.ok.inj (Option.some.inj made)
      rfl

end Recomputed

end KeryxMiner.BlockSubmission
