import KeryxMiner.ProofSoundness

/-!
What the prover produces. Its trace is the walk itself, its openings carry paths
to the root of the trace tree, and the verifier accepts them. The openings are
stated with `extra` siblings above the trace root: none for the prover's own
proof, one for a trace tree placed below a larger root.
-/

namespace KeryxMiner.HonestProof

open ByteCodec PomPrimitives PossessionProof ProofSoundness MerkleLevels

variable {Digest : Type} (blake : Blake Digest)

/-! Collecting results in a fallible loop. -/

theorem map_all {Item Result : Type} (f : Item → Option Result) (items : List Item)
    (defined : ∀ item ∈ items, ∃ result, f item = some result) :
    ∃ results, items.mapM f = some results ∧ results.length = items.length ∧
      ∀ entry ∈ results.zip items, f entry.2 = some entry.1 := by
  induction items with
  | nil => exact ⟨[], rfl, rfl, by simp⟩
  | cons item rest ih =>
      obtain ⟨result, found⟩ := defined item (by simp)
      obtain ⟨results, mapped, length, entries⟩ :=
        ih fun later member => defined later (List.mem_cons_of_mem _ member)
      refine ⟨result :: results, by simp [found, mapped], by simp [length], ?_⟩
      intro entry member
      rcases List.mem_cons.mp member with rfl | later
      · exact found
      · exact entries entry later

/-! Paths of a tree placed below a larger root. -/

theorem extended_path (nodes : List Digest) (top : Digest)
    (rooted : merkleRoot blake nodes = some top) (idx : Nat) (node : Digest)
    (present : nodes[idx]? = some node) (extra : List Digest) :
    ∃ steps, merkleProof blake nodes idx = some steps ∧
      steps.length = Nat.clog 2 nodes.length ∧
      climb (hashPair blake) node idx (steps ++ extra) = climb (hashPair blake) top 0 extra := by
  obtain ⟨inside, _⟩ := List.getElem?_eq_some_iff.mp present
  obtain ⟨steps, dense, length⟩ :=
    path_present (hashPair blake) (Nat.clog 2 nodes.length) nodes idx inside
  have climbed := climb_root (hashPair blake) nodes idx node steps present dense
  rw [← merkle_root_eq, rooted] at climbed
  refine ⟨steps, by rw [merkle_proof_eq, dense], length, ?_⟩
  rw [climb_append, length, top_index inside, ← Option.some.inj climbed]

theorem honest_path (nodes : List Digest) (top : Digest)
    (rooted : merkleRoot blake nodes = some top) (idx : Nat) (node : Digest)
    (present : nodes[idx]? = some node) :
    ∃ steps, merkleProof blake nodes idx = some steps ∧
      steps.length = Nat.clog 2 nodes.length ∧ climb (hashPair blake) node idx steps = top := by
  obtain ⟨steps, dense, length, climbed⟩ :=
    extended_path blake nodes top rooted idx node present []
  exact ⟨steps, dense, length, by rwa [List.append_nil] at climbed⟩

theorem merkle_root_present (nodes : List Digest) (nonempty : nodes ≠ []) :
    ∃ top, merkleRoot blake nodes = some top := by
  obtain ⟨top, _, found⟩ := root_eq (hashPair blake) nodes nonempty
  exact ⟨top, by rw [merkle_root_eq, found]⟩

/-! The recorded trace is the walk. -/

/-- The chunk reader of an index over `chunks`, as far as the walk uses it. -/
def ReadsChunks (chunks : List (Bytes 32)) (readChunk : Nat → Option Words) : Prop :=
  ∀ off < chunks.length, readChunk off = chunkReader chunks off

theorem reads_chunk {chunks : List (Bytes 32)} {readChunk : Nat → Option Words}
    (reads : ReadsChunks chunks readChunk) (nonempty : chunks ≠ []) (state : UInt64) :
    ∃ chunk, chunks[state.toNat % chunks.length]? = some chunk ∧
      readChunk (state.toNat % chunks.length) = some (chunkToWords chunk) := by
  have inside : state.toNat % chunks.length < chunks.length :=
    Nat.mod_lt _ (List.length_pos_iff.mpr nonempty)
  have present := List.getElem?_eq_getElem inside
  exact ⟨_, present, by rw [reads _ inside, chunkReader, present, Option.map_some]⟩

theorem walk_loop_congr {chunks : List (Bytes 32)} {readChunk : Nat → Option Words}
    (reads : ReadsChunks chunks readChunk) (nonempty : chunks ≠ []) (k : Nat) (state : UInt64) :
    walkLoop chunks.length readChunk k state (state.toNat % chunks.length) =
      walkLoop chunks.length (chunkReader chunks) k state (state.toNat % chunks.length) := by
  induction k generalizing state with
  | zero => rfl
  | succ k ih =>
      have inside : state.toNat % chunks.length < chunks.length :=
        Nat.mod_lt _ (List.length_pos_iff.mpr nonempty)
      rw [walkLoop, walkLoop, reads _ inside]
      simp only [ih]

/-- Entry `i` of the trace is the state after `i` steps. -/
theorem trace_loop_walk {chunks : List (Bytes 32)} {readChunk : Nat → Option Words}
    (reads : ReadsChunks chunks readChunk) (nonempty : chunks ≠ []) (k : Nat) (seed : UInt64) :
    ∃ pushed, traceLoop chunks.length readChunk k seed (seed.toNat % chunks.length) = some pushed ∧
      pushed.length = k ∧
      ∀ i ≤ k, (seed :: pushed)[i]? = walkFinal seed chunks.length i (chunkReader chunks) := by
  induction k generalizing seed with
  | zero =>
      refine ⟨[], rfl, rfl, fun i inside => ?_⟩
      obtain rfl : i = 0 := by omega
      rfl
  | succ k ih =>
      obtain ⟨chunk, present, read⟩ := reads_chunk reads nonempty seed
      obtain ⟨pushed, traced, length, states⟩ := ih (transition seed (chunkToWords chunk))
      refine ⟨transition seed (chunkToWords chunk) :: pushed, ?_, by simp [length], ?_⟩
      · simp only [traceLoop, read, traced, Option.bind_eq_bind, Option.bind_some]
      · intro i inside
        cases i with
        | zero => rfl
        | succ i =>
            have dense : chunkReader chunks (seed.toNat % chunks.length) =
                some (chunkToWords chunk) := by
              rw [chunkReader, present, Option.map_some]
            rw [List.getElem?_cons_succ, states i (by omega), walkFinal, walkFinal, walkLoop, dense]
            rfl

theorem walk_final_present {chunks : List (Bytes 32)} (nonempty : chunks ≠ []) (seed : UInt64)
    (k : Nat) :
    ∃ final, walkFinal seed chunks.length k (chunkReader chunks) = some final := by
  obtain ⟨pushed, _, length, states⟩ :=
    trace_loop_walk (fun _ _ => rfl : ReadsChunks chunks (chunkReader chunks)) nonempty k seed
  have last : k < (seed :: pushed).length := by simp [length]
  exact ⟨_, (states k (Nat.le_refl _)).symm.trans (List.getElem?_eq_getElem last)⟩

/-! Honest openings. -/

def extendOpening (extra : List Digest) (op : PomOpening Digest) : PomOpening Digest :=
  { op with
    tracePathBefore := op.tracePathBefore ++ extra
    tracePathAfter := op.tracePathAfter ++ extra }

theorem extend_nothing (op : PomOpening Digest) : extendOpening [] op = op := by
  simp [extendOpening]

theorem challenge_inside {k : Nat} (positive : 1 ≤ k) (prePowHash : Bytes 32) (nonce : UInt64)
    (traceRoot : Digest) (powValue : Bytes 32) (t : Nat) :
    ∀ i ∈ challenges blake prePowHash nonce traceRoot powValue t k, i < k := by
  intro i member
  obtain ⟨j, _, rfl⟩ := List.mem_map.mp member
  exact Nat.mod_lt _ positive

section Prover
variable [DecidableEq Digest]
variable (chunks : List (Bytes 32)) (nonempty : chunks ≠ []) (rT : Digest)
variable (rooted : merkleRoot blake (chunks.map (chunkLeaf blake)) = some rT)
variable (readChunk : Nat → Option Words) (reads : ReadsChunks chunks readChunk)
variable (weightPath : Nat → Option (List Digest))
variable (paths : ∀ off < chunks.length,
  weightPath off = merkleProof blake (chunks.map (chunkLeaf blake)) off)
include nonempty rooted reads paths

/-- Opening any step of the walk succeeds, and is accepted below every root the
trace tree is placed under. -/
theorem open_step_accepted (seed : UInt64) (k : Nat) (visited : List UInt64)
    (length : visited.length = k + 1)
    (states : ∀ i ≤ k, visited[i]? = walkFinal seed chunks.length i (chunkReader chunks))
    (top : Digest) (committed : merkleRoot blake (visited.map (traceLeaf blake)) = some top)
    (extra : List Digest) (i : Nat) (step : i < k) :
    ∃ op, openStep blake chunks.length readChunk weightPath visited
        (visited.map (traceLeaf blake)) i = some op ∧
      op.tracePathBefore.length = Nat.clog 2 (k + 1) ∧
      op.tracePathAfter.length = Nat.clog 2 (k + 1) ∧
      verifyOpening blake (climb (hashPair blake) top 0 extra) chunks.length rT
        (extendOpening extra op) i = true := by
  have before : visited[i]? = some visited[i] := List.getElem?_eq_getElem (by omega)
  have walked := (states i (by omega)).symm.trans before
  obtain ⟨chunk, present, read⟩ := reads_chunk reads nonempty visited[i]
  have inside : visited[i].toNat % chunks.length < chunks.length :=
    Nat.mod_lt _ (List.length_pos_iff.mpr nonempty)
  have after : visited[i + 1]? = some (transition visited[i] (chunkToWords chunk)) := by
    rw [states (i + 1) (by omega), walk_final_succ, walked, Option.bind_some, advance, chunkReader,
      present]
    rfl
  obtain ⟨weights, opened_chunk, _, weight_climb⟩ := honest_path blake _ rT rooted
    (visited[i].toNat % chunks.length) (chunkLeaf blake chunk) (by rw [List.getElem?_map, present]; rfl)
  obtain ⟨low, opened_low, low_length, low_climb⟩ := extended_path blake _ top committed i
    (traceLeaf blake visited[i]) (by rw [List.getElem?_map, before]; rfl) extra
  obtain ⟨high, opened_high, high_length, high_climb⟩ := extended_path blake _ top committed (i + 1)
    (traceLeaf blake (transition visited[i] (chunkToWords chunk)))
    (by rw [List.getElem?_map, after]; rfl) extra
  refine ⟨{ stateBefore := visited[i], chunk := wordsToBytes (chunkToWords chunk),
            weightPath := weights, tracePathBefore := low, tracePathAfter := high }, ?_, ?_, ?_,
    ?_⟩
  · simp only [openStep, before, read, paths _ inside, opened_chunk, opened_low, opened_high,
      Option.bind_eq_bind, Option.bind_some]
  · rw [low_length, List.length_map, length]
  · rw [high_length, List.length_map, length]
  · rw [verify_opening_iff]
    simp only [extendOpening, verify_merkle_iff, words_to_bytes_chunk]
    exact ⟨low_climb, weight_climb, high_climb⟩

/-- The prover succeeds, its proof ends in the state of the walk with all trace
paths of one length, and the verifier accepts it under every target the
proof-of-work value meets. -/
theorem build_proof_accepted {k : Nat} (positive : 1 ≤ k) (t : Nat) (tier : UInt8)
    (prePowHash : Bytes 32) (nonce seed : UInt64) (target : Bytes 32) (final : UInt64)
    (walked : walkFinal seed chunks.length k (chunkReader chunks) = some final)
    (meets : leLeq (pomPowValue final prePowHash) target = true) :
    ∃ proof, buildProof blake tier prePowHash nonce seed chunks.length k t readChunk weightPath =
        some proof ∧ proof.finalState = final ∧
      LinkedTrace proof
        (challenges blake prePowHash nonce proof.traceRoot proof.powValue t k) k ∧
      verifyProof blake prePowHash nonce seed proof chunks.length k t rT target = true := by
  obtain ⟨pushed, traced, count, states⟩ := trace_loop_walk reads nonempty k seed
  have length : (seed :: pushed).length = k + 1 := by simp [count]
  obtain ⟨top, committed⟩ := merkle_root_present blake ((seed :: pushed).map (traceLeaf blake))
    (by simp)
  have last : (seed :: pushed)[k]? = some final := by rw [states k (Nat.le_refl _), walked]
  have honest := fun i (member : i ∈ challenges blake prePowHash nonce top
      (pomPowValue final prePowHash) t k) =>
    open_step_accepted blake chunks nonempty rT rooted readChunk reads weightPath paths seed k
      (seed :: pushed) length states top committed [] i
      (challenge_inside blake positive _ _ _ _ _ i member)
  -- every challenged step opens, so the loop over the challenges succeeds
  obtain ⟨openings, opened, total, entries⟩ := map_all
    (openStep blake chunks.length readChunk weightPath (seed :: pushed)
      ((seed :: pushed).map (traceLeaf blake))) _ fun i member =>
        (honest i member).imp fun _ facts => facts.1
  have shown : ∀ entry ∈ openings.zip
      (challenges blake prePowHash nonce top (pomPowValue final prePowHash) t k),
      entry.1.tracePathBefore.length = Nat.clog 2 (k + 1) ∧
      entry.1.tracePathAfter.length = Nat.clog 2 (k + 1) ∧
      verifyOpening blake top chunks.length rT entry.1 entry.2 = true := by
    intro entry member
    obtain ⟨op, built, before, after, accepted⟩ :=
      honest entry.2 (List.of_mem_zip member).2
    obtain rfl := Option.some.inj (built.symm.trans (entries entry member))
    rw [extend_nothing] at accepted
    exact ⟨before, after, accepted⟩
  obtain ⟨initial, opened_initial, _, initial_climb⟩ := honest_path blake _ top committed 0
    (traceLeaf blake seed) (by simp)
  obtain ⟨finish, opened_finish, finish_length, finish_climb⟩ := honest_path blake _ top committed k
    (traceLeaf blake final) (by rw [List.getElem?_map, last]; rfl)
  rw [List.length_map, length] at finish_length
  refine ⟨⟨tier, top, pomPowValue final prePowHash, final, initial, finish, openings⟩, ?_, rfl, ?_,
    ?_⟩
  · simp only [buildProof, traced, committed, last, opened, opened_initial, opened_finish,
      Option.bind_eq_bind, Option.bind_some]
  · intro entry member
    obtain ⟨_, after, _⟩ := shown entry member
    refine ⟨fun next later _ => ?_, fun _ => after.trans finish_length.symm⟩
    exact after.trans (shown next later).1.symm
  · rw [verify_proof_iff]
    refine ⟨by simp [total, challenges], rfl, meets, ?_, ?_, fun entry member => ?_⟩
    · exact (verify_merkle_iff blake _ _ _ _).mpr initial_climb
    · exact (verify_merkle_iff blake _ _ _ _).mpr finish_climb
    · exact (shown entry member).2.2

end Prover

end KeryxMiner.HonestProof
