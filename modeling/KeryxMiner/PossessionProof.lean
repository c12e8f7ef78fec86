import KeryxMiner.MerkleLevels
import KeryxMiner.PomPrimitives

/-!
The possession proof of `src/pom.rs`: dense Merkle roots and paths, the
Fiat-Shamir draw, the walk, the prover and the verifier. Digests are abstract:
`Blake` gives the digest of each kind of hashed string and the first word of
each Fiat-Shamir digest. `ofBytes` instantiates both from one hash of byte
strings, with the byte layouts of the source. A panic is `none`.
-/

namespace KeryxMiner.PossessionProof

open ByteCodec PomPrimitives

/-- The strings hashed into trees: 8-byte states, 32-byte chunks and the
64-byte concatenations of two digests. -/
inductive Preimage (Digest : Type) where
  | state (bytes : Bytes 8)
  | chunk (bytes : Bytes 32)
  | pair (left right : Digest)

structure Blake (Digest : Type) where
  hash : Preimage Digest → Digest
  /-- pre_pow_hash, nonce, trace_root, pow_value and the challenge number. -/
  draw : Bytes 32 → UInt64 → Digest → Bytes 32 → UInt64 → UInt64

def Preimage.bytes : Preimage (Bytes 32) → List UInt8
  | .state bytes => bytes.items
  | .chunk bytes => bytes.items
  | .pair left right => left.items ++ right.items

def ofBytes (blake : List UInt8 → Bytes 32) : Blake (Bytes 32) where
  hash preimage := blake preimage.bytes
  draw prePowHash nonce traceRoot powValue j :=
    let fs := prePowHash.items ++ (toLeBytes nonce).items ++ traceRoot.items ++ powValue.items
    let seed := blake fs
    let d := blake (seed.items ++ (toLeBytes j).items)
    fromLeBytes (d.items.take 8)

structure PomOpening (Digest : Type) where
  stateBefore : UInt64
  chunk : Bytes 32
  weightPath : List Digest
  tracePathBefore : List Digest
  tracePathAfter : List Digest

structure PomProof (Digest : Type) where
  tier : UInt8
  traceRoot : Digest
  powValue : Bytes 32
  finalState : UInt64
  initialTracePath : List Digest
  finalTracePath : List Digest
  openings : List (PomOpening Digest)

variable {Digest : Type} (blake : Blake Digest)

def traceLeaf (state : UInt64) : Digest := blake.hash (.state (toLeBytes state))

def chunkLeaf (chunk : Bytes 32) : Digest := blake.hash (.chunk chunk)

def hashPair (left right : Digest) : Digest := blake.hash (.pair left right)

/-- The inner loop shared by `merkle_root`, `merkle_proof` and `fold_levels`. -/
def nextLevel (nodes : List Digest) : List Digest :=
  MerkleLevels.parents (hashPair blake) nodes

theorem next_level_shorter {nodes : List Digest} (several : 1 < nodes.length) :
    (nextLevel blake nodes).length < nodes.length := by
  rw [nextLevel, MerkleLevels.parents_length]
  omega

def merkleRoot (nodes : List Digest) : Option Digest :=
  if _several : 1 < nodes.length then merkleRoot (nextLevel blake nodes) else nodes[0]?
termination_by nodes.length
decreasing_by exact next_level_shorter blake _several

def levelSibling (nodes : List Digest) (idx : Nat) : Option Digest :=
  let sibIdx := if idx % 2 = 0 then idx + 1 else idx - 1
  -- a node without a right neighbour is its own sibling
  if sibIdx < nodes.length then nodes[sibIdx]? else nodes[idx]?

def merkleProof (nodes : List Digest) (idx : Nat) : Option (List Digest) :=
  if _several : 1 < nodes.length then do
    let sib ← levelSibling nodes idx
    let rest ← merkleProof (nextLevel blake nodes) (idx / 2)
    some (sib :: rest)
  else some []
termination_by nodes.length
decreasing_by exact next_level_shorter blake _several

def verifyMerkle [DecidableEq Digest] (leaf : Digest) (index : Nat) (path : List Digest)
    (root : Digest) : Bool :=
  -- index bits above the length of the path are never looked at
  decide (MerkleLevels.climb (hashPair blake) leaf index path = root)

/-- `t` step indices, each reduced modulo the walk length. -/
def challenges (prePowHash : Bytes 32) (nonce : UInt64) (traceRoot : Digest)
    (powValue : Bytes 32) (t k : Nat) : List Nat :=
  (List.range t).map fun j =>
    (blake.draw prePowHash nonce traceRoot powValue (UInt64.ofNat j)).toNat % k

/-- The loop of `walk_final`: the next read is at the state modulo `n_chunks`. -/
def walkLoop (nChunks : Nat) (readChunk : Nat → Option Words) :
    Nat → UInt64 → Nat → Option UInt64
  | 0, state, _ => some state
  | k + 1, state, off => do
      let chunk ← readChunk off
      let state := transition state chunk
      walkLoop nChunks readChunk k state (state.toNat % nChunks)

def walkFinal (seed : UInt64) (nChunks k : Nat) (readChunk : Nat → Option Words) :
    Option UInt64 :=
  walkLoop nChunks readChunk k seed (seed.toNat % nChunks)

/-- The same loop, recording the states it pushes. -/
def traceLoop (nChunks : Nat) (readChunk : Nat → Option Words) :
    Nat → UInt64 → Nat → Option (List UInt64)
  | 0, _, _ => some []
  | k + 1, state, off => do
      let chunk ← readChunk off
      let state := transition state chunk
      let rest ← traceLoop nChunks readChunk k state (state.toNat % nChunks)
      some (state :: rest)

def openStep (nChunks : Nat) (readChunk : Nat → Option Words)
    (weightPath : Nat → Option (List Digest)) (trace : List UInt64)
    (traceLeaves : List Digest) (i : Nat) : Option (PomOpening Digest) := do
  let sb ← (trace)[i]?
  let off := sb.toNat % nChunks
  let chunk ← readChunk off
  let weights ← weightPath off
  let before ← merkleProof blake traceLeaves i
  let after ← merkleProof blake traceLeaves (i + 1)
  some {
    stateBefore := sb
    chunk := wordsToBytes chunk
    weightPath := weights
    tracePathBefore := before
    tracePathAfter := after }

def buildProof (tier : UInt8) (prePowHash : Bytes 32) (nonce seed : UInt64) (nChunks k t : Nat)
    (readChunk : Nat → Option Words) (weightPath : Nat → Option (List Digest)) :
    Option (PomProof Digest) := do
  let pushed ← traceLoop nChunks readChunk k seed (seed.toNat % nChunks)
  let trace := seed :: pushed
  let traceLeaves := trace.map (traceLeaf blake)
  let traceRoot ← merkleRoot blake traceLeaves
  let finalState ← (trace)[k]?
  let powValue := pomPowValue finalState prePowHash
  let chs := challenges blake prePowHash nonce traceRoot powValue t k
  let openings ← chs.mapM (openStep blake nChunks readChunk weightPath trace traceLeaves)
  let initialTracePath ← merkleProof blake traceLeaves 0
  let finalTracePath ← merkleProof blake traceLeaves k
  some { tier, traceRoot, powValue, finalState, initialTracePath, finalTracePath, openings }

def verifyOpening [DecidableEq Digest] (traceRoot : Digest) (nChunks : Nat) (rT : Digest)
    (op : PomOpening Digest) (i : Nat) : Bool :=
  if !verifyMerkle blake (traceLeaf blake op.stateBefore) i op.tracePathBefore traceRoot then
    false
  else
    let off := op.stateBefore.toNat % nChunks
    if !verifyMerkle blake (chunkLeaf blake op.chunk) off op.weightPath rT then false
    else
      let stateAfter := transition op.stateBefore (chunkToWords op.chunk)
      verifyMerkle blake (traceLeaf blake stateAfter) (i + 1) op.tracePathAfter traceRoot

def verifyProof [DecidableEq Digest] (prePowHash : Bytes 32) (nonce seed : UInt64)
    (proof : PomProof Digest) (nChunks k t : Nat) (rT : Digest) (target : Bytes 32) : Bool :=
  if proof.openings.length ≠ t then false
  else if pomPowValue proof.finalState prePowHash ≠ proof.powValue then false
  else if !leLeq proof.powValue target then false
  else if !verifyMerkle blake (traceLeaf blake seed) 0 proof.initialTracePath
      proof.traceRoot then false
  else if !verifyMerkle blake (traceLeaf blake proof.finalState) k proof.finalTracePath
      proof.traceRoot then false
  else
    -- drawn from the commitment the proof itself carries
    let chs := challenges blake prePowHash nonce proof.traceRoot proof.powValue t k
    (proof.openings.zip chs).all fun (op, i) =>
      verifyOpening blake proof.traceRoot nChunks rT op i

/-! The dense loops compute the levels of one hash tree. -/

theorem merkle_root_eq (nodes : List Digest) :
    merkleRoot blake nodes = MerkleLevels.root (hashPair blake) nodes := by
  induction nodes using merkleRoot.induct blake with
  | case1 nodes several ih =>
      rw [merkleRoot, dif_pos several, ih, nextLevel,
        MerkleLevels.root_parents (hashPair blake) nodes several]
  | case2 nodes several =>
      rw [merkleRoot, dif_neg several, MerkleLevels.root, Nat.clog_of_right_le_one (by omega)]
      rfl

theorem level_sibling_eq (nodes : List Digest) (idx : Nat) :
    levelSibling nodes idx = MerkleLevels.sibling nodes idx := by
  by_cases inside : (if idx % 2 = 0 then idx + 1 else idx - 1) < nodes.length
  · simp only [levelSibling, MerkleLevels.sibling, if_pos inside,
      List.getElem?_eq_getElem inside]
  · simp only [levelSibling, MerkleLevels.sibling, if_neg inside,
      List.getElem?_eq_none (Nat.le_of_not_lt inside)]

theorem merkle_proof_eq (nodes : List Digest) (idx : Nat) :
    merkleProof blake nodes idx =
      MerkleLevels.path (hashPair blake) (Nat.clog 2 nodes.length) nodes idx := by
  induction nodes, idx using merkleProof.induct blake with
  | case1 nodes idx several ih =>
      rw [merkleProof, dif_pos several, MerkleLevels.clog_parents several, level_sibling_eq, ih,
        nextLevel, MerkleLevels.parents_length]
      rfl
  | case2 nodes idx several =>
      rw [merkleProof, dif_neg several, Nat.clog_of_right_le_one (by omega)]
      rfl

theorem verify_merkle_iff [DecidableEq Digest] (leaf : Digest) (index : Nat)
    (path : List Digest) (root : Digest) :
    verifyMerkle blake leaf index path root = true ↔
      MerkleLevels.climb (hashPair blake) leaf index path = root := by
  simp [verifyMerkle]

/-- What an accepted opening establishes. -/
theorem verify_opening_iff [DecidableEq Digest] (traceRoot : Digest) (nChunks : Nat)
    (rT : Digest) (op : PomOpening Digest) (i : Nat) :
    verifyOpening blake traceRoot nChunks rT op i = true ↔
      verifyMerkle blake (traceLeaf blake op.stateBefore) i op.tracePathBefore traceRoot = true ∧
      verifyMerkle blake (chunkLeaf blake op.chunk) (op.stateBefore.toNat % nChunks)
        op.weightPath rT = true ∧
      verifyMerkle blake (traceLeaf blake (transition op.stateBefore (chunkToWords op.chunk)))
        (i + 1) op.tracePathAfter traceRoot = true := by
  by_cases before :
      verifyMerkle blake (traceLeaf blake op.stateBefore) i op.tracePathBefore traceRoot = true
  · by_cases weight : verifyMerkle blake (chunkLeaf blake op.chunk)
        (op.stateBefore.toNat % nChunks) op.weightPath rT = true
    · simp [verifyOpening, before, weight]
    · simp [verifyOpening, before, weight]
  · simp [verifyOpening, before]

theorem verify_proof_iff [DecidableEq Digest] (prePowHash : Bytes 32) (nonce seed : UInt64)
    (proof : PomProof Digest) (nChunks k t : Nat) (rT : Digest) (target : Bytes 32) :
    verifyProof blake prePowHash nonce seed proof nChunks k t rT target = true ↔
      proof.openings.length = t ∧
      pomPowValue proof.finalState prePowHash = proof.powValue ∧
      leLeq proof.powValue target = true ∧
      verifyMerkle blake (traceLeaf blake seed) 0 proof.initialTracePath proof.traceRoot = true ∧
      verifyMerkle blake (traceLeaf blake proof.finalState) k proof.finalTracePath
        proof.traceRoot = true ∧
      ∀ entry ∈ proof.openings.zip
          (challenges blake prePowHash nonce proof.traceRoot proof.powValue t k),
        verifyOpening blake proof.traceRoot nChunks rT entry.1 entry.2 = true := by
  unfold verifyProof
  by_cases count : proof.openings.length = t
  · by_cases value : pomPowValue proof.finalState prePowHash = proof.powValue
    · cases leLeq proof.powValue target <;>
        cases verifyMerkle blake (traceLeaf blake seed) 0 proof.initialTracePath
          proof.traceRoot <;>
        cases verifyMerkle blake (traceLeaf blake proof.finalState) k proof.finalTracePath
          proof.traceRoot <;>
        simp [count, value]
    · simp [value]
  · simp [count]

/-! One step of the walk, and the walk as repeated steps. -/

def advance (nChunks : Nat) (readChunk : Nat → Option Words) (state : UInt64) : Option UInt64 :=
  (readChunk (state.toNat % nChunks)).map (transition state)

theorem walk_loop_succ (nChunks : Nat) (readChunk : Nat → Option Words) (k : Nat)
    (state : UInt64) :
    walkLoop nChunks readChunk (k + 1) state (state.toNat % nChunks) =
      (walkLoop nChunks readChunk k state (state.toNat % nChunks)).bind
        (advance nChunks readChunk) := by
  induction k generalizing state with
  | zero =>
      cases found : readChunk (state.toNat % nChunks) <;> simp [walkLoop, advance, found]
  | succ k ih =>
      rw [walkLoop, walkLoop]
      cases readChunk (state.toNat % nChunks) with
      | none => rfl
      | some chunk => exact ih (transition state chunk)

theorem walk_final_succ (seed : UInt64) (nChunks k : Nat) (readChunk : Nat → Option Words) :
    walkFinal seed nChunks (k + 1) readChunk =
      (walkFinal seed nChunks k readChunk).bind (advance nChunks readChunk) :=
  walk_loop_succ nChunks readChunk k seed

end KeryxMiner.PossessionProof
