import KeryxMiner.BlockSubmission
import KeryxMiner.MinerWorkers
import KeryxMiner.ModelResidency

/-!
The proof-of-model rounds of `launch_gpu_miner` in `src/miner.rs` on one block: a launch over the
resident weights, the host's proof for its winner, and what a node finds in the block submitted.
-/

namespace KeryxMiner.BlockSearch

open BlockSubmission ByteCodec CheckpointTree ChunkLayout GpuWalk HeavyHash HonestProof MinerWorkers
open ModMagic PomKernel PomMining PomPrimitives PossessionProof ProofSoundness SharedWeights
open WeightIndex

/-! Proofs that `borsh` can write: every list has fewer than 2^32 items. -/

structure SizedOpening (op : PomOpening (Bytes 32)) : Prop where
  weights : op.weightPath.length < 2 ^ 32
  before : op.tracePathBefore.length < 2 ^ 32
  after : op.tracePathAfter.length < 2 ^ 32

structure SizedProof (proof : PomProof (Bytes 32)) : Prop where
  initial : proof.initialTracePath.length < 2 ^ 32
  final : proof.finalTracePath.length < 2 ^ 32
  openings : proof.openings.length < 2 ^ 32
  each : ∀ op ∈ proof.openings, SizedOpening op

section Prover
variable (blake : Blake (Bytes 32))

theorem proof_length (nodes : List (Bytes 32)) (idx : Nat) {steps : List (Bytes 32)}
    (proved : merkleProof blake nodes idx = some steps) : steps.length ≤ nodes.length := by
  fun_induction merkleProof blake nodes idx generalizing steps with
  | case1 nodes idx several ih =>
      obtain ⟨sib, _, rest⟩ := Option.bind_eq_some_iff.mp proved
      obtain ⟨others, above, same⟩ := Option.bind_eq_some_iff.mp rest
      obtain rfl := Option.some.inj same
      have shorter := next_level_shorter blake several
      have lower := ih above
      rw [List.length_cons]
      omega
  | case2 nodes idx single =>
      obtain rfl := Option.some.inj proved
      exact Nat.zero_le _

theorem trace_length {nChunks : Nat} {readChunk : Nat → Option Words} (k : Nat) {state : UInt64}
    {off : Nat} {pushed : List UInt64}
    (traced : traceLoop nChunks readChunk k state off = some pushed) : pushed.length = k := by
  induction k generalizing state off pushed with
  | zero =>
      obtain rfl := Option.some.inj traced
      rfl
  | succ k ih =>
      obtain ⟨chunk, _, traced⟩ := Option.bind_eq_some_iff.mp traced
      obtain ⟨rest, later, same⟩ := Option.bind_eq_some_iff.mp traced
      obtain rfl := Option.some.inj same
      rw [List.length_cons, ih later]

/-- The tier is the caller's, and no list of the proof is longer than what it opens. -/
theorem build_proof_sized {tier : UInt8} {prePowHash : Bytes 32} {nonce seed : UInt64}
    {nChunks k t : Nat} {readChunk : Nat → Option Words}
    {weightPath : Nat → Option (List (Bytes 32))} {proof : PomProof (Bytes 32)}
    (several : 0 < nChunks) (steps : k + 1 < 2 ^ 32) (draws : t < 2 ^ 32)
    (short : ∀ off < nChunks, ∀ path, weightPath off = some path → path.length < 2 ^ 32)
    (built : buildProof blake tier prePowHash nonce seed nChunks k t readChunk weightPath =
      some proof) : proof.tier = tier ∧ SizedProof proof := by
  rw [buildProof] at built
  obtain ⟨pushed, traced, built⟩ := Option.bind_eq_some_iff.mp built
  obtain ⟨traceRoot, _, built⟩ := Option.bind_eq_some_iff.mp built
  obtain ⟨finalState, _, built⟩ := Option.bind_eq_some_iff.mp built
  obtain ⟨openings, opened, built⟩ := Option.bind_eq_some_iff.mp built
  obtain ⟨initial, atStart, built⟩ := Option.bind_eq_some_iff.mp built
  obtain ⟨finish, atEnd, same⟩ := Option.bind_eq_some_iff.mp built
  obtain rfl := Option.some.inj same
  have leaves : ((seed :: pushed).map (traceLeaf blake)).length = k + 1 := by
    rw [List.length_map, List.length_cons, trace_length k traced]
  have path : ∀ idx path, merkleProof blake ((seed :: pushed).map (traceLeaf blake)) idx =
      some path → path.length < 2 ^ 32 := by
    intro idx path proved
    have bound := proof_length blake _ idx proved
    omega
  refine ⟨rfl, path 0 initial atStart, path k finish atEnd, ?_, ?_⟩
  · have drawn := (PrefixCodes.map_m_parsed opened).1
    rw [challenges, List.length_map, List.length_range] at drawn
    rwa [drawn]
  · intro op member
    obtain ⟨i, _, open_i⟩ := (PrefixCodes.map_m_parsed opened).2 op member
    rw [openStep] at open_i
    obtain ⟨before, _, open_i⟩ := Option.bind_eq_some_iff.mp open_i
    obtain ⟨chunk, _, open_i⟩ := Option.bind_eq_some_iff.mp open_i
    obtain ⟨weights, read, open_i⟩ := Option.bind_eq_some_iff.mp open_i
    obtain ⟨low, below, open_i⟩ := Option.bind_eq_some_iff.mp open_i
    obtain ⟨high, above, same⟩ := Option.bind_eq_some_iff.mp open_i
    obtain rfl := Option.some.inj same
    exact ⟨short _ (Nat.mod_lt _ several) weights read, path i low below, path (i + 1) high above⟩

end Prover

/-! One nonce. -/

/-- What a node finds in the block that is submitted. -/
structure Accepted (headerHash : List UInt8 → Hash) (firstFullRank : List UInt8 → Matrix)
    (blake : Blake (Bytes 32)) (toVec : PomProof (Bytes 32) → Option (List UInt8))
    (chunks : List (Bytes 32)) (tier : UInt8) (block : Block) (nonce : UInt64) (mined : Block) :
    Prop where
  unmined : BlockSeed.unmined (.fullBlock mined) = BlockSeed.unmined (.fullBlock block)
  carried : BlockSeed.nonce (.fullBlock mined) = some nonce
  verified : ∃ state proof rT,
    PowState.new headerHash firstFullRank 0 (.fullBlock mined) = some (.ok state) ∧
    toVec proof = some mined.pomProof ∧ proof.tier = tier ∧
    merkleRoot blake (chunks.map (chunkLeaf blake)) = some rT ∧
    verifyProof blake state.pph nonce (pomBlockSeed state.pph state.timestamp nonce) proof
      chunks.length pomWalkSteps.toNat pomOpenings rT (wordsToBytes state.pow.target) = true

/-- The walk of the nonce over the chunks meets the block's target. -/
def Wins (chunks : List (Bytes 32)) (state : PowState) (nonce : UInt64) : Prop :=
  Meets chunks state.pph state.timestamp (wordsToBytes state.pow.target) pomWalkSteps.toNat nonce

section Nonce
variable {headerHash : List UInt8 → Hash} {firstFullRank : List UInt8 → Matrix}
  {blake : Blake (Bytes 32)} {toVec : PomProof (Bytes 32) → Option (List UInt8)}
  {chunks : List (Bytes 32)} {index : Index} {id : Nat} {block : Block} {state : PowState}
  {nonce : UInt64}

theorem index_walk (indexes : Indexes blake chunks index) (nonempty : chunks ≠ [])
    (seed : UInt64) (k : Nat) :
    walkFinal seed index.nChunks k (readChunk index) =
      walkFinal seed chunks.length k (chunkReader chunks) := by
  rw [indexes.count, walkFinal, walk_loop_congr (index_reads_chunks indexes) nonempty]
  rfl

theorem block_missed (indexes : Indexes blake chunks index) (nonempty : chunks ≠ [])
    (tier : UInt8) (missed : ¬ Wins chunks state nonce) :
    generateBlockIfPom blake toVec state nonce index tier = some none := by
  obtain ⟨final, walked⟩ := walk_final_present nonempty
    (pomBlockSeed state.pph state.timestamp nonce) pomWalkSteps.toNat
  have above : ¬ leLeq (pomPowValue final state.pph) (wordsToBytes state.pow.target) = true :=
    fun meets => missed ⟨final, walked, meets⟩
  rw [generateBlockIfPom, index_walk indexes nonempty, walked, Option.bind_eq_bind,
    Option.bind_some, if_neg above]
  rfl

theorem block_found (indexes : Indexes blake chunks index) (tall : 32 < chunks.length)
    (small : chunks.length < 2 ^ 32)
    (writes : ∀ proof, SizedProof proof → ∃ bytes, toVec proof = some bytes) (tier : UInt8)
    (made : PowState.new headerHash firstFullRank id (.fullBlock block) = some (.ok state))
    (wins : Wins chunks state nonce) :
    ∃ mined, generateBlockIfPom blake toVec state nonce index tier =
        some (some (.fullBlock mined)) ∧
      Accepted headerHash firstFullRank blake toVec chunks tier block nonce mined := by
  have nonempty : chunks ≠ [] := List.ne_nil_of_length_pos (by omega)
  obtain ⟨final, walked, meets⟩ := wins
  have root := index_root indexes tall
  have paths := index_paths indexes nonempty
  obtain ⟨proof, built, _, _, accepted⟩ := build_proof_accepted blake chunks nonempty index.rT root
    (readChunk index) (index_reads_chunks indexes) (merklePath blake index) paths (by decide)
    pomOpenings tier state.pph nonce _ _ final walked meets
  obtain ⟨tiered, sized⟩ := build_proof_sized blake (by omega) (by decide) (by decide)
    (fun off inside path read => by
      rw [paths off inside] at read
      have bound := proof_length blake _ off read
      rw [List.length_map] at bound
      omega) built
  obtain ⟨bytes, written⟩ := writes proof sized
  obtain ⟨same, header, target, stream, present, reads⟩ := made_full made
  have changed := with_nonce_header present nonce
  have recomputed := reads.recomputes nonce rfl ⟨(block.withNonce nonce).rpc, bytes⟩ changed 0
  refine ⟨⟨(block.withNonce nonce).rpc, bytes⟩, ?_, with_nonce_unmined block nonce bytes, ?_, ?_⟩
  · rw [generateBlockIfPom, index_walk indexes nonempty, walked, Option.bind_eq_bind,
      Option.bind_some, if_pos meets, indexes.count, built, same]
    change some (Option.bind (toVec proof) _) = _
    rw [written]
    rfl
  · rw [BlockSeed.nonce, changed]
    rfl
  · exact ⟨_, proof, index.rT, recomputed, written, tiered, root, accepted⟩

end Nonce

/-! The rounds of a worker on one block. -/

/-- What `mine` finds for the device. -/
inductive Launch where
  | absent
  | failed
  /-- `order` is that of the threads. -/
  | ran (memory : DeviceMemory) (miner : PomGpuMiner) (order : List (Nat × Nat))

/-- A turn of the loop, with what `active_index` answers in it. -/
structure Round where
  launch : Launch
  activeIndex : Option (Index × UInt8)

/-- The `mine` of a device; an error has no winner. -/
def mineDevice (launch : Launch) (prePowHash : Bytes 32) (timestamp : UInt64) (target : Bytes 32)
    (start batch : UInt64) : Option UInt64 :=
  match launch with
  | .absent => none
  | .failed => none
  | .ran memory miner order =>
      match mine miner memory order prePowHash timestamp target start batch with
      | .ok found => found
      | .error _ => none

def currentTier (miningTier : Option ModelResidency.ModelId) (daa : UInt64) : Option UInt8 :=
  miningTier.bind fun modelId => ModelResidency.pomTierIndex modelId daa

section Rounds
variable (blake : Blake (Bytes 32)) (toVec : PomProof (Bytes 32) → Option (List UInt8))
  (miningTier : Option ModelResidency.ModelId) (state : PowState)

/-- A winner without an index or a tier is dropped. -/
def gpuRound (round : Round) (pomNonce : UInt64) : Option (Option BlockSeed) :=
  match mineDevice round.launch state.pph state.timestamp (wordsToBytes state.pow.target) pomNonce
      pomBatch with
  | none => some none
  | some nonce =>
      match round.activeIndex with
      | none => some none
      | some (index, _) =>
          match currentTier miningTier state.daaScore with
          | none => some none
          | some tier => generateBlockIfPom blake toVec state nonce index tier

/-- A full block ends the work on its state. -/
def gpuRounds : List Round → UInt64 → Option (Option BlockSeed)
  | [], _ => some none
  | round :: rounds, pomNonce => do
      match ← gpuRound blake toVec miningTier state round pomNonce with
      | some mined => some (some mined)
      | none => gpuRounds rounds (pomNonce + pomBatch)

end Rounds

/-- The launch ran, and its winner would be made a block. -/
def Round.Effective (round : Round) : Prop :=
  (∃ memory miner order, round.launch = .ran memory miner order) ∧ round.activeIndex.isSome

def InBatch (start nonce : UInt64) : Prop :=
  ∃ i < pomBatch.toNat, nonce = start + UInt64.ofNat i

/-- The nonces of the rounds, one batch each, and those of the rounds that can make a block. -/
def Tried (counts : Round → Prop) : List Round → UInt64 → UInt64 → Prop
  | [], _, _ => False
  | round :: rounds, start, nonce =>
      counts round ∧ InBatch start nonce ∨ Tried counts rounds (start + pomBatch) nonce

theorem tried_single {counts : Round → Prop} {round : Round} {start nonce : UInt64} :
    Tried counts [round] start nonce ↔ counts round ∧ InBatch start nonce := by
  simp only [Tried, or_false]

/-- The miner is over the chunks of a model that its tables and its modulo are made for. -/
structure Installed (memory : DeviceMemory) (gguf : Gguf) (chunks : List (Bytes 32))
    (miner : PomGpuMiner) : Prop where
  readable : Readable gguf
  layout : canonicalChunks gguf = some chunks
  tall : 32 < chunks.length
  small : chunks.length < 2 ^ 32
  divides : ExactDivisor (UInt64.ofNat chunks.length)
  loads : Loads memory gguf miner
  few : miner.gather.bases.length ≤ 1024

theorem installed_prepared {memory : DeviceMemory} {gguf : Gguf} {chunks : List (Bytes 32)}
    {miner : PomGpuMiner} (installed : Installed memory gguf chunks miner)
    (prePowHash : Bytes 32) (timestamp : UInt64) (target : Bytes 32) (start batch : UInt64) :
    Prepared memory (kernelArgs miner prePowHash timestamp target start batch) chunks := by
  obtain ⟨readable, layout, tall, small, divides, loads, few⟩ := installed
  obtain ⟨gathered, rows, total, nonempty⟩ := loads.gathers readable layout small
  have count : UInt64.ofNat chunks.length = miner.nTotalChunks := by
    rw [← total, UInt64.ofNat_toNat]
  rw [count] at divides
  refine ⟨gathered, ?_, few, nonempty, small, total, ?_⟩
  · change miner.tensorCount.toNat = miner.gather.bases.length
    rw [rows, UInt32.toNat_ofNat']
    exact Nat.mod_eq_of_lt (Nat.lt_of_le_of_lt few (by decide))
  · exact ((reduces_iff miner.nTotalChunks (by omega)).mpr divides).1

/-- The block of a nonce of the rounds, or none where no nonce of a round that could make one does,
but the sentinel. -/
inductive Searched (headerHash : List UInt8 → Hash) (firstFullRank : List UInt8 → Matrix)
    (blake : Blake (Bytes 32)) (toVec : PomProof (Bytes 32) → Option (List UInt8))
    (chunks : List (Bytes 32)) (index : Index) (miningTier : Option ModelResidency.ModelId)
    (block : Block) (state : PowState) (rounds : List Round) (start : UInt64) :
    Option BlockSeed → Prop
  | submitted (nonce : UInt64) (mined : Block) (tier : UInt8)
      (inside : Tried Round.Effective rounds start nonce)
      (chosen : currentTier miningTier state.daaScore = some tier)
      (accepted : Accepted headerHash firstFullRank blake toVec chunks tier block nonce mined) :
      Searched headerHash firstFullRank blake toVec chunks index miningTier block state rounds start
        (some (.fullBlock mined))
  | exhausted (missed : ∀ tier, currentTier miningTier state.daaScore = some tier → ∀ nonce,
        Tried Round.Effective rounds start nonce → nonce ≠ sentinel →
          generateBlockIfPom blake toVec state nonce index tier = some none) :
      Searched headerHash firstFullRank blake toVec chunks index miningTier block state rounds start
        none

/-- What a round relies on: a launch that ran has an installed miner and all threads of the grid,
and the index is the one of the model. -/
structure Placed (gguf : Gguf) (chunks : List (Bytes 32)) (index : Index) (round : Round) :
    Prop where
  installed : ∀ memory miner order, round.launch = .ran memory miner order →
    Installed memory gguf chunks miner
  every : ∀ memory miner order, round.launch = .ran memory miner order →
    order.Perm (threads (gridOf pomBatch).toNat)
  active : ∀ found, round.activeIndex = some found → found.1 = index

section Search
variable {headerHash : List UInt8 → Hash} {firstFullRank : List UInt8 → Matrix}
  {blake : Blake (Bytes 32)} {toVec : PomProof (Bytes 32) → Option (List UInt8)} {gguf : Gguf}
  {chunks : List (Bytes 32)} {index : Index} {miningTier : Option ModelResidency.ModelId}
  {id : Nat} {block : Block} {state : PowState}

/-- A launch names a nonce of its batch that wins, or no other of them does. -/
theorem launch_finds (state : PowState) {memory : DeviceMemory} {miner : PomGpuMiner}
    {order : List (Nat × Nat)}
    (installed : Installed memory gguf chunks miner)
    (every : order.Perm (threads (gridOf pomBatch).toNat)) (pomNonce : UInt64) :
    (∃ nonce, mineDevice (.ran memory miner order) state.pph state.timestamp
        (wordsToBytes state.pow.target) pomNonce pomBatch = some nonce ∧
      InBatch pomNonce nonce ∧ Wins chunks state nonce) ∨
    (mineDevice (.ran memory miner order) state.pph state.timestamp
        (wordsToBytes state.pow.target) pomNonce pomBatch = none ∧
      ∀ nonce, InBatch pomNonce nonce → nonce ≠ sentinel → ¬ Wins chunks state nonce) := by
  have prepared := installed_prepared installed state.pph state.timestamp
    (wordsToBytes state.pow.target) pomNonce pomBatch
  have passes := kernel_passes_meets prepared rfl rfl
  obtain ⟨after, launched, lowered⟩ := launch_lowers
    (fun nonce => (passes nonce).imp fun _ tested => tested.1) order sentinel
  have won : mineDevice (.ran memory miner order) state.pph state.timestamp
      (wordsToBytes state.pow.target) pomNonce pomBatch =
        if after = sentinel then none else some after := by
    rw [mineDevice, mine, if_neg (by decide), launched]
  by_cases untouched : after = sentinel
  · rw [if_pos untouched] at won
    refine .inr ⟨won, ?_⟩
    rintro nonce ⟨i, inside, rfl⟩ other wins
    refine other ?_
    have within : UInt64.ofNat i < pomBatch := by
      rw [UInt64.lt_iff_toNat_lt, UInt64.toNat_ofNat']
      exact Nat.lt_of_le_of_lt (Nat.mod_le _ _) inside
    obtain ⟨thread, member, own⟩ := thread_of_nonce (by decide) within
    obtain ⟨hit, tested, decides⟩ := passes (pomNonce + UInt64.ofNat i)
    have least := lowered.least thread (every.mem_iff.mpr member) (pomNonce + UInt64.ofNat i)
      ⟨own ▸ within, by rw [own]; rfl, by rw [tested, decides.mpr wins]⟩
    rw [untouched] at least
    exact UInt64.le_antisymm (below_sentinel _) least
  · rw [if_neg untouched] at won
    obtain ⟨thread, _, within, own, hit⟩ := lowered.source.resolve_left untouched
    obtain ⟨_, tested, decides⟩ := passes after
    rw [tested] at hit
    refine .inl ⟨after, won, ⟨(gid thread).toNat, UInt64.lt_iff_toNat_lt.mp within, ?_⟩,
      decides.mp (Option.some.inj hit)⟩
    rw [UInt64.ofNat_toNat]
    exact own

theorem gpu_round (miningTier : Option ModelResidency.ModelId)
    (indexes : Indexes blake chunks index) (tall : 32 < chunks.length)
    (writes : ∀ proof, SizedProof proof → ∃ bytes, toVec proof = some bytes)
    (made : PowState.new headerHash firstFullRank id (.fullBlock block) = some (.ok state))
    {round : Round} (placed : Placed gguf chunks index round) (pomNonce : UInt64) :
    ∃ result, gpuRound blake toVec miningTier state round pomNonce = some result ∧
      Searched headerHash firstFullRank blake toVec chunks index miningTier block state [round]
        pomNonce result := by
  obtain ⟨launch, active⟩ := round
  have idle : gpuRound blake toVec miningTier state ⟨launch, active⟩ pomNonce = some none →
      ¬ Round.Effective ⟨launch, active⟩ →
        ∃ result, gpuRound blake toVec miningTier state ⟨launch, active⟩ pomNonce = some result ∧
          Searched headerHash firstFullRank blake toVec chunks index miningTier block state
            [⟨launch, active⟩] pomNonce result := by
    intro nothing barren
    refine ⟨none, nothing, .exhausted ?_⟩
    intro tier _ nonce tried _
    exact absurd (tried_single.mp tried).1 barren
  cases launch with
  | absent =>
      refine idle rfl ?_
      rintro ⟨⟨_, _, _, ran⟩, _⟩
      cases ran
  | failed =>
      refine idle rfl ?_
      rintro ⟨⟨_, _, _, ran⟩, _⟩
      cases ran
  | ran memory miner order =>
      have installed := placed.installed memory miner order rfl
      have nonempty : chunks ≠ [] := List.ne_nil_of_length_pos (by omega)
      rcases launch_finds state installed (placed.every memory miner order rfl) pomNonce with
        ⟨nonce, found, inside, wins⟩ | ⟨nothing, missed⟩
      · cases active with
        | none =>
            refine idle (by rw [gpuRound, found]) ?_
            rintro ⟨_, unset⟩
            cases unset
        | some entry =>
            obtain ⟨held, stored⟩ := entry
            obtain rfl : held = index := placed.active (held, stored) rfl
            cases chosen : currentTier miningTier state.daaScore with
            | none =>
                refine ⟨none, by simp only [gpuRound, found, chosen], .exhausted ?_⟩
                intro tier known
                cases chosen.symm.trans known
            | some tier =>
                obtain ⟨mined, built, accepted⟩ :=
                  block_found indexes tall installed.small writes tier made wins
                refine ⟨_, by simp only [gpuRound, found, chosen, built],
                  .submitted nonce mined tier
                    (tried_single.mpr ⟨⟨⟨_, _, _, rfl⟩, rfl⟩, inside⟩) chosen accepted⟩
      · refine ⟨none, by rw [gpuRound, nothing], .exhausted ?_⟩
        intro tier _ nonce tried other
        exact block_missed indexes nonempty tier
          (missed nonce (tried_single.mp tried).2 other)

/-- Any number of rounds on one block: the first winner's block is accepted, and rounds without
one have passed no nonce over but the sentinel. -/
theorem search_submits_accepted (served : Served gguf)
    (layout : canonicalChunks gguf = some chunks) (tall : 32 < chunks.length)
    (built : buildFresh blake gguf = .ok index)
    (writes : ∀ proof, SizedProof proof → ∃ bytes, toVec proof = some bytes)
    (made : PowState.new headerHash firstFullRank id (.fullBlock block) = some (.ok state))
    (rounds : List Round) (placed : ∀ round ∈ rounds, Placed gguf chunks index round)
    (pomNonce : UInt64) :
    ∃ result, gpuRounds blake toVec miningTier state rounds pomNonce = some result ∧
      Searched headerHash firstFullRank blake toVec chunks index miningTier block state rounds
        pomNonce result := by
  have nonempty : chunks ≠ [] := List.ne_nil_of_length_pos (by omega)
  obtain ⟨found, same, indexes⟩ := build_fresh_indexes blake gguf served chunks layout nonempty
  obtain rfl := Except.ok.inj (built.symm.trans same)
  induction rounds generalizing pomNonce with
  | nil => exact ⟨none, rfl, .exhausted fun _ _ _ inside => inside.elim⟩
  | cons round rounds ih =>
      obtain ⟨result, ran, searched⟩ := gpu_round miningTier indexes tall writes made
        (placed round (List.mem_cons_self ..)) pomNonce
      rw [gpuRounds, ran]
      cases searched with
      | submitted nonce mined tier inside chosen accepted =>
          have first := tried_single.mp inside
          exact ⟨_, rfl, .submitted nonce mined tier (.inl first) chosen accepted⟩
      | exhausted missed =>
          obtain ⟨later, continued, rest⟩ := ih
            (fun other member => placed other (List.mem_cons_of_mem _ member))
            (pomNonce + pomBatch)
          refine ⟨later, continued, ?_⟩
          cases rest with
          | submitted nonce mined tier inside chosen accepted =>
              exact .submitted nonce mined tier (.inr inside) chosen accepted
          | exhausted missed_later =>
              refine .exhausted fun tier chosen nonce inside other => ?_
              obtain early | late := inside
              · exact missed tier chosen nonce (tried_single.mpr early) other
              · exact missed_later tier chosen nonce late other

end Search

/-! A model of one tensor. -/

def sampleChunks : List (Bytes 32) := List.replicate 33 (numbered 5)

def sampleMemory : DeviceMemory := fun address => (concat sampleChunks)[address]?.getD 0

def sampleMiner : PomGpuMiner where
  gather := { bases := [0], prefixSums := [0, 33] }
  tensorCount := 1
  nTotalChunks := 33

def borshVec (items : List (Bytes 32)) : List UInt8 := encode 4 items.length ++ concat items

def borshOpening (op : PomOpening (Bytes 32)) : List UInt8 :=
  (toLeBytes op.stateBefore).items ++ op.chunk.items ++ borshVec op.weightPath ++
    borshVec op.tracePathBefore ++ borshVec op.tracePathAfter

def borshProof (proof : PomProof (Bytes 32)) : List UInt8 :=
  [proof.tier] ++ proof.traceRoot.items ++ proof.powValue.items ++
    (toLeBytes proof.finalState).items ++ borshVec proof.initialTracePath ++
    borshVec proof.finalTracePath ++ encode 4 proof.openings.length ++
    proof.openings.flatMap borshOpening

theorem sample_loaded : load (fun _ => 0) (ggufOfChunks sampleChunks) = .ok sampleMiner := by
  have length : (concat sampleChunks).length = 1056 := by
    rw [concat_length, sampleChunks, List.length_replicate]
  have sorted : (ggufOfChunks sampleChunks).sorted =
      [⟨"weights", 0, some (concat sampleChunks)⟩] := by
    simp [Gguf.sorted, ggufOfChunks]
  have gathered : gatherTensor (fun _ => 0) { bases := [], prefixSums := [0] }
      ⟨"weights", 0, some (concat sampleChunks)⟩ =
        .ok { bases := [0], prefixSums := [0, 33] } := by
    simp only [gatherTensor, length]
    rfl
  simp only [load, sorted, List.foldlM_cons, gathered]
  rfl

theorem sample_resident : Resident sampleMemory (fun _ => 0) (ggufOfChunks sampleChunks) := by
  intro tensor member bytes loaded i inside
  obtain rfl := List.mem_singleton.mp member
  obtain rfl := Option.some.inj loaded
  have zero : (0 : UInt64).toNat = 0 := rfl
  rw [sampleMemory, zero, Nat.zero_add, List.getElem?_eq_getElem inside, Option.getD_some]

theorem sample_installed :
    Installed sampleMemory (ggufOfChunks sampleChunks) sampleChunks sampleMiner where
  readable := ⟨List.nodup_singleton _, by
    intro tensor member
    obtain rfl := List.mem_singleton.mp member
    rfl⟩
  layout := of_chunks_layout _
  tall := by decide
  small := by decide
  divides := by decide
  loads := .alone (fun _ => 0) sample_loaded sample_resident
  few := by decide

def sampleHash (_ : List UInt8) : Hash := words (Vector.replicate 4 0)

def sampleMatrix (_ : List UInt8) : Matrix := randMatrixNoRankCheck UInt64.ofNat

def sampleBlock : Block := ⟨⟨some (HeaderBytes.sampleHeader "AB"), [], none⟩, []⟩

theorem sample_made (headerHash : List UInt8 → Hash) (firstFullRank : List UInt8 → Matrix) :
    ∃ state, PowState.new headerHash firstFullRank 0 (.fullBlock sampleBlock) =
      some (.ok state) := by
  obtain ⟨target, compact, _⟩ := Targets.compact_value (HeaderBytes.sampleHeader "AB").bits
  obtain ⟨stream, written⟩ : ∃ stream,
      HeaderBytes.serializeHeader true (HeaderBytes.sampleHeader "AB") = some stream :=
    Option.isSome_iff_exists.mp (by decide +kernel)
  rw [PowState.new, sampleBlock]
  dsimp only
  rw [compact, written]
  exact ⟨_, rfl⟩

/-- The miner is not there yet, a launch before the index is set, one that fails, and two more. -/
def sampleRounds (index : Index) : List Round :=
  let all := threads (gridOf pomBatch).toNat
  [⟨.absent, none⟩, ⟨.ran sampleMemory sampleMiner all, none⟩, ⟨.failed, some (index, 1)⟩,
    ⟨.ran sampleMemory sampleMiner all, some (index, 1)⟩,
    ⟨.ran sampleMemory sampleMiner all.reverse, some (index, 1)⟩]

theorem sample_placed (index : Index) :
    ∀ round ∈ sampleRounds index, Placed (ggufOfChunks sampleChunks) sampleChunks index round := by
  have orders : ∀ round ∈ sampleRounds index, ∀ memory miner order,
      round.launch = .ran memory miner order → memory = sampleMemory ∧ miner = sampleMiner ∧
        order.Perm (threads (gridOf pomBatch).toNat) := by
    simp only [sampleRounds, List.forall_mem_cons, reduceCtorEq, Launch.ran.injEq, and_imp]
    refine ⟨by simp, ?_, by simp, ?_, ?_, by simp⟩
    · rintro memory miner order rfl rfl rfl
      exact ⟨rfl, rfl, List.Perm.refl _⟩
    · rintro memory miner order rfl rfl rfl
      exact ⟨rfl, rfl, List.Perm.refl _⟩
    · rintro memory miner order rfl rfl rfl
      exact ⟨rfl, rfl, List.reverse_perm _⟩
  intro round member
  constructor
  · intro memory miner order ran
    obtain ⟨rfl, rfl, _⟩ := orders round member memory miner order ran
    exact sample_installed
  · intro memory miner order ran
    exact (orders round member memory miner order ran).2.2
  · intro found active
    simp only [sampleRounds, List.mem_cons, List.not_mem_nil, or_false] at member
    rcases member with rfl | rfl | rfl | rfl | rfl
    all_goals cases active
    all_goals rfl

theorem search_submits_sample :
    ∃ state index,
      PowState.new sampleHash sampleMatrix 0 (.fullBlock sampleBlock) = some (.ok state) ∧
      buildFresh heightBlake (ggufOfChunks sampleChunks) = .ok index ∧
      ∃ result, gpuRounds heightBlake (fun proof => some (borshProof proof))
          (some ModelResidency.gemma34b) state (sampleRounds index) 7 = some result ∧
        Searched sampleHash sampleMatrix heightBlake (fun proof => some (borshProof proof))
          sampleChunks index (some ModelResidency.gemma34b) sampleBlock state (sampleRounds index)
          7 result := by
  obtain ⟨state, made⟩ := sample_made sampleHash sampleMatrix
  obtain ⟨index, built, _⟩ := build_fresh_indexes heightBlake _ (of_chunks_served _) sampleChunks
    (of_chunks_layout _) (by decide)
  refine ⟨state, index, made, built, ?_⟩
  exact search_submits_accepted (of_chunks_served _) (of_chunks_layout _) (by decide) built
    (fun proof _ => ⟨borshProof proof, rfl⟩) made _ (sample_placed index) 7

end KeryxMiner.BlockSearch
