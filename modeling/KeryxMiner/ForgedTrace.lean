import KeryxMiner.HonestProof

/-!
What is missing without linked trace paths. The honest trace tree can be placed
below a larger root whose other branch opens the last index, with a shorter
path, to any state whatsoever.
-/

namespace KeryxMiner.ForgedTrace

open ByteCodec PomPrimitives PossessionProof ProofSoundness HonestProof MerkleLevels MerkleBinding

/-- The path of index `k` whose last sibling is taken on the left. -/
def branchPath {Digest : Type} (filler : Digest) (k : Nat) : List Digest :=
  List.replicate (Nat.log 2 k) filler

theorem climb_branch {Digest : Type} (combine : Digest → Digest → Digest) (leaf filler top : Digest)
    {k : Nat} (positive : 1 ≤ k) :
    climb combine leaf k (branchPath filler k ++ [top]) =
      combine top (climb combine leaf k (branchPath filler k)) := by
  have low := Nat.pow_log_le_self 2 (x := k) (by omega)
  have high := Nat.lt_pow_succ_log_self Nat.one_lt_two k
  have leading : k / 2 ^ Nat.log 2 k = 1 := by
    apply Nat.div_eq_of_lt_le
    · omega
    · rw [Nat.pow_succ] at high
      omega
  rw [climb_last, branchPath, List.length_replicate, leading]
  rfl

section Forger
variable {Digest : Type} (blake : Blake Digest) [DecidableEq Digest]

/-- A proof for any chosen final state, accepted whatever is challenged. -/
theorem forged_proof_accepted (chunks : List (Bytes 32)) (nonempty : chunks ≠ []) (rT : Digest)
    (rooted : merkleRoot blake (chunks.map (chunkLeaf blake)) = some rT) {k : Nat}
    (positive : 1 ≤ k) (t : Nat) (prePowHash : Bytes 32) (nonce seed : UInt64)
    (target : Bytes 32) (state : UInt64)
    (meets : leLeq (pomPowValue state prePowHash) target = true) :
    ∃ proof : PomProof Digest, proof.finalState = state ∧
      verifyProof blake prePowHash nonce seed proof chunks.length k t rT target = true := by
  obtain ⟨pushed, _, count, states⟩ :=
    trace_loop_walk (fun _ _ => rfl : ReadsChunks chunks (chunkReader chunks)) nonempty k seed
  have length : (seed :: pushed).length = k + 1 := by simp [count]
  obtain ⟨top, committed⟩ := merkle_root_present blake ((seed :: pushed).map (traceLeaf blake))
    (by simp)
  -- the larger root: the honest trace on the left, a tree that opens `state` on the right
  obtain ⟨branch, shape⟩ :
      ∃ branch, climb (hashPair blake) (traceLeaf blake state) k (branchPath top k) = branch :=
    ⟨_, rfl⟩
  have above : climb (hashPair blake) top 0 [branch] = hashPair blake top branch := rfl
  have honest := fun i (member : i ∈ challenges blake prePowHash nonce (hashPair blake top branch)
      (pomPowValue state prePowHash) t k) =>
    open_step_accepted blake chunks nonempty rT rooted (chunkReader chunks) (fun _ _ => rfl)
      (merkleProof blake (chunks.map (chunkLeaf blake))) (fun _ _ => rfl) seed k (seed :: pushed)
      length states top committed [branch] i (challenge_inside blake positive _ _ _ _ _ i member)
  obtain ⟨openings, _, total, entries⟩ := map_all
    (openStep blake chunks.length (chunkReader chunks)
      (merkleProof blake (chunks.map (chunkLeaf blake))) (seed :: pushed)
      ((seed :: pushed).map (traceLeaf blake))) _ fun i member =>
        (honest i member).imp fun _ facts => facts.1
  obtain ⟨initial, _, _, initial_climb⟩ := extended_path blake _ top committed 0
    (traceLeaf blake seed) (by simp) [branch]
  refine ⟨⟨0, hashPair blake top branch, pomPowValue state prePowHash, state, initial ++ [branch],
    branchPath top k ++ [top], openings.map (extendOpening [branch])⟩, rfl, ?_⟩
  rw [verify_proof_iff]
  refine ⟨by simp [total, challenges], rfl, meets, ?_, ?_, ?_⟩
  · exact (verify_merkle_iff blake _ _ _ _).mpr (initial_climb.trans above)
  · rw [verify_merkle_iff, climb_branch (hashPair blake) _ top top positive, shape]
  · intro entry member
    rw [List.zip_map_left] at member
    obtain ⟨original, listed, rfl⟩ := List.mem_map.mp member
    obtain ⟨op, built, _, _, accepted⟩ := honest original.2 (List.of_mem_zip listed).2
    obtain rfl := Option.some.inj (built.symm.trans (entries original listed))
    rw [above] at accepted
    exact accepted

end Forger

/-- An accepted proof ends in the state of the walk when its openings chain, which says that each
of them shows a state of the walk; trace paths of linked lengths are a chain. Nothing else binds
the final state: the verifier accepts a proof with any state that meets the target. -/
theorem final_state_bound_by_chain {Digest : Type} [DecidableEq Digest] (blake : Blake Digest)
    (faithful : Function.Injective blake.hash) (chunks : List (Bytes 32)) (nonempty : chunks ≠ [])
    (rT : Digest) (rooted : merkleRoot blake (chunks.map (chunkLeaf blake)) = some rT)
    (k t : Nat) (positive : 1 ≤ k) (prePowHash : Bytes 32) (nonce seed : UInt64)
    (target : Bytes 32) :
    (∀ proof : PomProof Digest, FinalStateBound blake prePowHash nonce k t target proof →
      FinalStateSound blake chunks rT k t prePowHash nonce seed target proof) ∧
    (∀ proof : PomProof Digest,
      verifyProof blake prePowHash nonce seed proof chunks.length k t rT target = true →
      ∀ trace : Nat → PomOpening Digest,
      (∀ i < k, (trace i, i) ∈ proof.openings.zip
        (challenges blake prePowHash nonce proof.traceRoot proof.powValue t k)) →
      (Chain proof (challenges blake prePowHash nonce proof.traceRoot proof.powValue t k) k trace ↔
        (∀ i < k,
          walkFinal seed chunks.length i (chunkReader chunks) = some (trace i).stateBefore) ∧
        walkFinal seed chunks.length k (chunkReader chunks) = some proof.finalState)) ∧
    (∀ proof : PomProof Digest,
      verifyProof blake prePowHash nonce seed proof chunks.length k t rT target = true →
      LinkedTrace proof (challenges blake prePowHash nonce proof.traceRoot proof.powValue t k) k →
      FinalStateBound blake prePowHash nonce k t target proof) ∧
    (∀ state : UInt64, leLeq (pomPowValue state prePowHash) target = true →
      ∃ proof : PomProof Digest, proof.finalState = state ∧
        verifyProof blake prePowHash nonce seed proof chunks.length k t rT target = true) := by
  refine ⟨?_, ?_, ?_, ?_⟩
  · rintro proof (refused | uncovered | ⟨trace, chain⟩) verified covered
    · exact absurd refused (not_refused_early verified)
    · exact absurd covered uncovered
    · exact chain_final faithful nonempty rooted positive verified chain
  · intro proof verified trace opened
    constructor
    · intro chain
      exact ⟨chain_states faithful nonempty rooted verified chain,
        chain_final faithful nonempty rooted positive verified chain⟩
    · rintro ⟨states, final⟩
      exact states_chain faithful nonempty rooted verified opened states final
  · intro proof verified linked
    by_cases covered :
        Covered (challenges blake prePowHash nonce proof.traceRoot proof.powValue t k) k
    · obtain ⟨trace, opened⟩ :=
        covered_trace proof.openings _ (drawn_lengths verified) positive covered
      exact Or.inr (Or.inr ⟨trace, linked_chain faithful verified linked opened⟩)
    · exact Or.inr (Or.inl covered)
  · intro state meets
    exact forged_proof_accepted blake chunks nonempty rT rooted positive t prePowHash nonce seed
      target state meets

/-! A hash without collisions: the digest is the hashed term. Every step is drawn in turn. -/

inductive FreeDigest where
  | state (bytes : Bytes 8)
  | chunk (bytes : Bytes 32)
  | pair (left right : FreeDigest)
  deriving DecidableEq

def freeBlake : Blake FreeDigest where
  hash
    | .state bytes => .state bytes
    | .chunk bytes => .chunk bytes
    | .pair left right => .pair left right
  draw _ _ _ _ j := j

theorem free_injective : Function.Injective freeBlake.hash := by
  intro first second same
  cases first <;> cases second <;> simp_all [freeBlake]

def zeroChunk : Bytes 32 := ⟨List.replicate 32 0, rfl⟩

def countedChunk : Bytes 32 := ⟨(List.range 32).map UInt8.ofNat, rfl⟩

theorem free_root : merkleRoot freeBlake ([zeroChunk, countedChunk].map (chunkLeaf freeBlake)) =
    some (.pair (.chunk zeroChunk) (.chunk countedChunk)) := by
  simp only [merkle_root_eq]
  rfl

/-- Two steps from state 7: the odd states read the second chunk, the even ones the first. -/
theorem two_chunk_walk : walkFinal 7 [zeroChunk, countedChunk].length 2
    (chunkReader [zeroChunk, countedChunk]) = some 13225839796362995591 := by
  decide

theorem own_value_meets (value : Bytes 32) : leLeq value value = true :=
  (le_leq_iff value value).mpr (Nat.le_refl _)

theorem free_covered (traceRoot : FreeDigest) (powValue : Bytes 32) :
    Covered (challenges freeBlake zeroChunk 7 traceRoot powValue 2 2) 2 := by
  intro i inside
  have steps : challenges freeBlake zeroChunk 7 traceRoot powValue 2 2 = [0, 1] := rfl
  rw [steps]
  obtain rfl | rfl : i = 0 ∨ i = 1 := by omega
  · exact List.mem_cons_self
  · exact List.mem_cons_of_mem _ List.mem_cons_self

theorem final_state_bound_two_chunks :
    ∃ proof : PomProof FreeDigest,
      FinalStateBound freeBlake zeroChunk 7 2 2 (pomPowValue 13225839796362995591 zeroChunk)
        proof ∧
      verifyProof freeBlake zeroChunk 7 7 proof [zeroChunk, countedChunk].length 2 2
        (.pair (.chunk zeroChunk) (.chunk countedChunk))
        (pomPowValue 13225839796362995591 zeroChunk) = true ∧
      walkFinal 7 [zeroChunk, countedChunk].length 2 (chunkReader [zeroChunk, countedChunk]) =
        some proof.finalState := by
  obtain ⟨proof, _, _, linked, accepted⟩ := build_proof_accepted freeBlake
    [zeroChunk, countedChunk] (by simp) _ free_root (chunkReader [zeroChunk, countedChunk])
    (fun _ _ => rfl) (merkleProof freeBlake ([zeroChunk, countedChunk].map (chunkLeaf freeBlake)))
    (fun _ _ => rfl) (by decide : 1 ≤ 2) 2 0 zeroChunk 7 7 _ _ two_chunk_walk (own_value_meets _)
  obtain ⟨sound, _, bound, _⟩ := final_state_bound_by_chain freeBlake free_injective
    [zeroChunk, countedChunk] (by simp) _ free_root 2 2 (by decide) zeroChunk 7 7
    (pomPowValue 13225839796362995591 zeroChunk)
  have held := bound proof accepted linked
  exact ⟨proof, held, accepted, sound proof held accepted (free_covered _ _)⟩

/-- The walk ends in state 13225839796362995591, and a proof that ends in state 1 is accepted. -/
theorem forged_final_state :
    ¬ ∀ (Digest : Type) (_ : DecidableEq Digest) (blake : Blake Digest),
      Function.Injective blake.hash → ∀ (chunks : List (Bytes 32)) (rT : Digest), chunks ≠ [] →
      merkleRoot blake (chunks.map (chunkLeaf blake)) = some rT → ∀ k t : Nat, 1 ≤ k →
      ∀ (prePowHash : Bytes 32) (nonce seed : UInt64) (target : Bytes 32)
        (proof : PomProof Digest),
        FinalStateSound blake chunks rT k t prePowHash nonce seed target proof := by
  intro claimed
  obtain ⟨proof, chosen, accepted⟩ := forged_proof_accepted freeBlake [zeroChunk, countedChunk]
    (by simp) _ free_root (by decide : 1 ≤ 2) 2 zeroChunk 7 7 (pomPowValue 1 zeroChunk) 1
    (own_value_meets _)
  have sound := claimed FreeDigest inferInstance freeBlake free_injective
    [zeroChunk, countedChunk] _ (by simp) free_root 2 2 (by decide) zeroChunk 7 7
    (pomPowValue 1 zeroChunk) proof accepted (free_covered _ _)
  rw [two_chunk_walk, chosen] at sound
  exact absurd sound (by decide)

end KeryxMiner.ForgedTrace
