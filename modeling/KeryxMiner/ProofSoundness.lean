import KeryxMiner.MerkleBinding
import KeryxMiner.PossessionProof

/-!
What `verify_proof` binds. The weight tree is rooted at an honest `R_T`, so its
openings are exact for every path the prover sends. The trace tree is committed
by the prover: `verify_merkle` drops the index bits above the path length, so
two openings of one trace index agree only when their paths have equal length.
-/

namespace KeryxMiner.ProofSoundness

open ByteCodec PomPrimitives PossessionProof MerkleLevels MerkleBinding

variable {Digest : Type} (blake : Blake Digest)

/-- Leaves of both trees are hashes of 8-byte or 32-byte strings. -/
def IsLeaf (digest : Digest) : Prop :=
  (∃ state, digest = traceLeaf blake state) ∨ ∃ chunk, digest = chunkLeaf blake chunk

def chunkReader (chunks : List (Bytes 32)) (off : Nat) : Option Words :=
  chunks[off]?.map chunkToWords

def Covered (chs : List Nat) (k : Nat) : Prop := ∀ i < k, i ∈ chs

/-- The tests made before any path is folded. -/
def RefusedEarly (prePowHash : Bytes 32) (t : Nat) (target : Bytes 32)
    (proof : PomProof Digest) : Prop :=
  proof.openings.length ≠ t ∨ pomPowValue proof.finalState prePowHash ≠ proof.powValue ∨
    leLeq proof.powValue target = false

def stateAfter (op : PomOpening Digest) : UInt64 :=
  transition op.stateBefore (chunkToWords op.chunk)

/-- One opening for each step, each starting in the state the one before it computes. -/
structure Chain (proof : PomProof Digest) (chs : List Nat) (k : Nat)
    (trace : Nat → PomOpening Digest) : Prop where
  opened : ∀ i < k, (trace i, i) ∈ proof.openings.zip chs
  next : ∀ i, i + 1 < k → stateAfter (trace i) = (trace (i + 1)).stateBefore
  last : ∀ i, i + 1 = k → stateAfter (trace i) = proof.finalState

/-- Every opening after step `i` carries a path of the same length as every
opening before step `i + 1`, and as the final path when `i + 1 = k`. -/
def LinkedTrace (proof : PomProof Digest) (chs : List Nat) (k : Nat) : Prop :=
  ∀ entry ∈ proof.openings.zip chs,
    (∀ next ∈ proof.openings.zip chs, next.2 = entry.2 + 1 →
      entry.1.tracePathAfter.length = next.1.tracePathBefore.length) ∧
    (entry.2 + 1 = k → entry.1.tracePathAfter.length = proof.finalTracePath.length)

/-- The proofs whose final state is not left open: refused by a test on values, drawn for too
few steps, or with openings that chain. -/
def FinalStateBound (prePowHash : Bytes 32) (nonce : UInt64) (k t : Nat) (target : Bytes 32)
    (proof : PomProof Digest) : Prop :=
  let chs := challenges blake prePowHash nonce proof.traceRoot proof.powValue t k
  RefusedEarly prePowHash t target proof ∨ ¬ Covered chs k ∨ ∃ trace, Chain proof chs k trace

/-- The soundness property of one verifier input. -/
def FinalStateSound [DecidableEq Digest] (chunks : List (Bytes 32)) (rT : Digest) (k t : Nat)
    (prePowHash : Bytes 32) (nonce seed : UInt64) (target : Bytes 32)
    (proof : PomProof Digest) : Prop :=
  verifyProof blake prePowHash nonce seed proof chunks.length k t rT target = true →
  Covered (challenges blake prePowHash nonce proof.traceRoot proof.powValue t k) k →
  walkFinal seed chunks.length k (chunkReader chunks) = some proof.finalState

section Binding
variable {blake}
variable (faithful : Function.Injective blake.hash)
include faithful

theorem separated : Separated (hashPair blake) (IsLeaf blake) where
  faithful := by
    intro left left' right right' same
    have pair := faithful same
    simpa using pair
  apart := by
    rintro left right (⟨state, same⟩ | ⟨chunk, same⟩)
    · exact absurd (faithful same) (by simp)
    · exact absurd (faithful same) (by simp)

theorem trace_leaf_injective {first second : UInt64}
    (same : traceLeaf blake first = traceLeaf blake second) : first = second := by
  have bytes := faithful same
  exact toLeBytes_injective (by simpa using bytes)

theorem chunk_leaf_injective {first second : Bytes 32}
    (same : chunkLeaf blake first = chunkLeaf blake second) : first = second := by
  have bytes := faithful same
  simpa using bytes

variable [DecidableEq Digest]

theorem opened_chunk (chunks : List (Bytes 32)) (rT : Digest)
    (rooted : merkleRoot blake (chunks.map (chunkLeaf blake)) = some rT)
    (chunk : Bytes 32) {off : Nat} (inside : off < chunks.length) (path : List Digest)
    (opened : verifyMerkle blake (chunkLeaf blake chunk) off path rT = true) :
    chunks[off]? = some chunk := by
  have leaves : ∀ node ∈ chunks.map (chunkLeaf blake), IsLeaf blake node := by
    intro node member
    obtain ⟨chunk, _, rfl⟩ := List.mem_map.mp member
    exact Or.inr ⟨chunk, rfl⟩
  have present := opened_leaf (separated faithful) leaves
    ((merkle_root_eq blake _).symm.trans rooted) (Or.inr ⟨chunk, rfl⟩) (by simpa using inside) path
    ((verify_merkle_iff blake _ _ _ _).mp opened)
  rw [List.getElem?_map, Option.map_eq_some_iff] at present
  obtain ⟨stored, found, same⟩ := present
  rw [found, chunk_leaf_injective faithful same]

theorem same_length_state (traceRoot : Digest) (index : Nat) {first second : UInt64}
    {left right : List Digest} (lengths : left.length = right.length)
    (firstOpened : verifyMerkle blake (traceLeaf blake first) index left traceRoot = true)
    (secondOpened : verifyMerkle blake (traceLeaf blake second) index right traceRoot = true) :
    first = second := by
  rw [verify_merkle_iff] at firstOpened secondOpened
  exact trace_leaf_injective faithful (climb_injective _ (separated faithful).faithful
    _ _ index left right lengths (firstOpened.trans secondOpened.symm))

theorem first_index_state (traceRoot : Digest) {first second : UInt64}
    {left right : List Digest}
    (firstOpened : verifyMerkle blake (traceLeaf blake first) 0 left traceRoot = true)
    (secondOpened : verifyMerkle blake (traceLeaf blake second) 0 right traceRoot = true) :
    first = second := by
  rw [verify_merkle_iff] at firstOpened secondOpened
  exact trace_leaf_injective faithful (leftmost_unique (separated faithful)
    (Or.inl ⟨first, rfl⟩) (Or.inl ⟨second, rfl⟩) left right
    (firstOpened.trans secondOpened.symm))

/-- An accepted opening performs one step of the real walk. -/
theorem opening_advances (chunks : List (Bytes 32)) (nonempty : chunks ≠ []) (rT : Digest)
    (rooted : merkleRoot blake (chunks.map (chunkLeaf blake)) = some rT)
    (traceRoot : Digest) (op : PomOpening Digest) (i : Nat)
    (accepted : verifyOpening blake traceRoot chunks.length rT op i = true) :
    advance chunks.length (chunkReader chunks) op.stateBefore = some (stateAfter op) := by
  obtain ⟨_, weight, _⟩ := (verify_opening_iff blake traceRoot chunks.length rT op i).mp accepted
  have inside : op.stateBefore.toNat % chunks.length < chunks.length :=
    Nat.mod_lt _ (List.length_pos_iff.mpr nonempty)
  have present := opened_chunk faithful chunks rT rooted op.chunk inside op.weightPath weight
  simp [advance, chunkReader, present, stateAfter]

end Binding

theorem covered_entry (openings : List (PomOpening Digest)) (chs : List Nat)
    (lengths : openings.length = chs.length) {i : Nat} (member : i ∈ chs) :
    ∃ op, (op, i) ∈ openings.zip chs := by
  obtain ⟨position, inside, same⟩ := List.mem_iff_getElem.mp member
  refine ⟨openings[position], List.mem_iff_getElem.mpr ⟨position, by simp [lengths, inside], ?_⟩⟩
  simp [same]

theorem covered_trace (openings : List (PomOpening Digest)) (chs : List Nat)
    (lengths : openings.length = chs.length) {k : Nat} (positive : 1 ≤ k)
    (covered : Covered chs k) :
    ∃ trace : Nat → PomOpening Digest, ∀ i < k, (trace i, i) ∈ openings.zip chs := by
  obtain ⟨spare, _⟩ := covered_entry openings chs lengths (covered 0 positive)
  have chosen : ∀ i, ∃ op, i < k → (op, i) ∈ openings.zip chs := by
    intro i
    by_cases within : i < k
    · obtain ⟨op, member⟩ := covered_entry openings chs lengths (covered i within)
      exact ⟨op, fun _ => member⟩
    · exact ⟨spare, fun inside => absurd inside within⟩
  exact Classical.skolem.mp chosen

section Accepted
variable {blake}
variable [DecidableEq Digest]
variable {chunks : List (Bytes 32)} {rT : Digest} {k t : Nat} {prePowHash target : Bytes 32}
variable {nonce seed : UInt64} {proof : PomProof Digest}

theorem drawn_lengths
    (verified : verifyProof blake prePowHash nonce seed proof chunks.length k t rT target = true) :
    proof.openings.length =
      (challenges blake prePowHash nonce proof.traceRoot proof.powValue t k).length := by
  obtain ⟨count, _⟩ := (verify_proof_iff blake _ _ _ _ _ _ _ _ _).mp verified
  simp [count, challenges]

theorem not_refused_early
    (verified : verifyProof blake prePowHash nonce seed proof chunks.length k t rT target = true) :
    ¬ RefusedEarly prePowHash t target proof := by
  obtain ⟨count, value, meets, _⟩ := (verify_proof_iff blake _ _ _ _ _ _ _ _ _).mp verified
  rintro (wrong | wrong | wrong)
  · exact wrong count
  · exact wrong value
  · exact absurd (meets.symm.trans wrong) (by decide)

/-- Paths of one length at consecutive steps make the openings a chain. -/
theorem linked_chain (faithful : Function.Injective blake.hash)
    (verified : verifyProof blake prePowHash nonce seed proof chunks.length k t rT target = true)
    (linked : LinkedTrace proof
      (challenges blake prePowHash nonce proof.traceRoot proof.powValue t k) k)
    {trace : Nat → PomOpening Digest}
    (opened : ∀ i < k, (trace i, i) ∈ proof.openings.zip
      (challenges blake prePowHash nonce proof.traceRoot proof.powValue t k)) :
    Chain proof (challenges blake prePowHash nonce proof.traceRoot proof.powValue t k) k trace := by
  obtain ⟨_, _, _, _, final, accepted⟩ := (verify_proof_iff blake _ _ _ _ _ _ _ _ _).mp verified
  refine ⟨opened, fun i within => ?_, fun i top => ?_⟩
  · obtain ⟨_, _, after⟩ :=
      (verify_opening_iff blake _ _ _ _ _).mp (accepted _ (opened i (by omega)))
    obtain ⟨before, _, _⟩ :=
      (verify_opening_iff blake _ _ _ _ _).mp (accepted _ (opened (i + 1) within))
    -- the opening after step i and the one before step i + 1 address one leaf
    have link := (linked _ (opened i (by omega))).1 _ (opened (i + 1) within) rfl
    exact same_length_state faithful proof.traceRoot (i + 1) link after before
  · obtain ⟨_, _, after⟩ :=
      (verify_opening_iff blake _ _ _ _ _).mp (accepted _ (opened i (by omega)))
    have link := (linked _ (opened i (by omega))).2 top
    subst top
    exact same_length_state faithful proof.traceRoot (i + 1) link after final

variable (faithful : Function.Injective blake.hash) (nonempty : chunks ≠ [])
variable (rooted : merkleRoot blake (chunks.map (chunkLeaf blake)) = some rT)
include faithful nonempty rooted

/-- Along a chain the state opened before each step is the walk's own. -/
theorem chain_states
    (verified : verifyProof blake prePowHash nonce seed proof chunks.length k t rT target = true)
    {trace : Nat → PomOpening Digest}
    (chain : Chain proof
      (challenges blake prePowHash nonce proof.traceRoot proof.powValue t k) k trace)
    (i : Nat) (step : i < k) :
    walkFinal seed chunks.length i (chunkReader chunks) = some (trace i).stateBefore := by
  obtain ⟨_, _, _, initial, _, accepted⟩ := (verify_proof_iff blake _ _ _ _ _ _ _ _ _).mp verified
  induction i with
  | zero =>
      obtain ⟨before, _, _⟩ :=
        (verify_opening_iff blake _ _ _ _ _).mp (accepted _ (chain.opened 0 step))
      -- index 0 has no bits to drop, so it binds for every path length
      rw [first_index_state faithful proof.traceRoot before initial]
      rfl
  | succ i ih =>
      have advanced := opening_advances faithful chunks nonempty rT rooted proof.traceRoot
        (trace i) i (accepted _ (chain.opened i (by omega)))
      rw [walk_final_succ, ih (by omega), Option.bind_some, advanced, chain.next i step]

theorem chain_final (positive : 1 ≤ k)
    (verified : verifyProof blake prePowHash nonce seed proof chunks.length k t rT target = true)
    {trace : Nat → PomOpening Digest}
    (chain : Chain proof
      (challenges blake prePowHash nonce proof.traceRoot proof.powValue t k) k trace) :
    walkFinal seed chunks.length k (chunkReader chunks) = some proof.finalState := by
  obtain ⟨_, _, _, _, _, accepted⟩ := (verify_proof_iff blake _ _ _ _ _ _ _ _ _).mp verified
  obtain ⟨last, rfl⟩ : ∃ last, last + 1 = k := ⟨k - 1, by omega⟩
  have advanced := opening_advances faithful chunks nonempty rT rooted proof.traceRoot
    (trace last) last (accepted _ (chain.opened last (by omega)))
  rw [walk_final_succ, chain_states faithful nonempty rooted verified chain last (by omega),
    Option.bind_some, advanced, chain.last last rfl]

/-- Openings that carry the walk's own states are a chain. -/
theorem states_chain
    (verified : verifyProof blake prePowHash nonce seed proof chunks.length k t rT target = true)
    {trace : Nat → PomOpening Digest}
    (opened : ∀ i < k, (trace i, i) ∈ proof.openings.zip
      (challenges blake prePowHash nonce proof.traceRoot proof.powValue t k))
    (states : ∀ i < k,
      walkFinal seed chunks.length i (chunkReader chunks) = some (trace i).stateBefore)
    (final : walkFinal seed chunks.length k (chunkReader chunks) = some proof.finalState) :
    Chain proof (challenges blake prePowHash nonce proof.traceRoot proof.powValue t k) k trace := by
  obtain ⟨_, _, _, _, _, accepted⟩ := (verify_proof_iff blake _ _ _ _ _ _ _ _ _).mp verified
  have computed : ∀ i < k, walkFinal seed chunks.length (i + 1) (chunkReader chunks) =
      some (stateAfter (trace i)) := by
    intro i within
    rw [walk_final_succ, states i within, Option.bind_some]
    exact opening_advances faithful chunks nonempty rT rooted proof.traceRoot (trace i) i
      (accepted _ (opened i within))
  refine ⟨opened, fun i within => ?_, fun i top => ?_⟩
  · exact Option.some.inj ((computed i (by omega)).symm.trans (states (i + 1) within))
  · exact Option.some.inj ((computed i (by omega)).symm.trans (top ▸ final))

end Accepted

end KeryxMiner.ProofSoundness
