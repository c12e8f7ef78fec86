import KeryxMiner.HonestProof
import KeryxMiner.SparsePaths

/-!
`mine_pom` over a freshly built index: the nonce range is searched from below,
and the winning proof, whose weight paths come from the sparse tree, is accepted
by the verifier under the index's own `R_T`.
-/

namespace KeryxMiner.PomMining

open ByteCodec PomPrimitives PossessionProof ProofSoundness HonestProof
open WeightIndex CheckpointTree ChunkLayout SparsePaths

def saturatingAdd (a b : UInt64) : UInt64 :=
  if a.toNat + b.toNat < 2 ^ 64 then a + b else 0xFFFFFFFFFFFFFFFF

section Search
variable (blake : Blake (Bytes 32)) (index : Index) (tier : UInt8) (prePowHash : Bytes 32)
variable (timestamp : UInt64) (target : Bytes 32) (k t : Nat)

/-- `none` is a panic, `some none` an exhausted range. -/
def mineLoop : Nat → UInt64 → Option (Option (UInt64 × PomProof (Bytes 32)))
  | 0, _ => some none
  | remaining + 1, nonce => do
      let seed := pomBlockSeed prePowHash timestamp nonce
      let finalState ← walkFinal seed index.nChunks k (readChunk index)
      if leLeq (pomPowValue finalState prePowHash) target then
        let proof ← buildProof blake tier prePowHash nonce seed index.nChunks k t
          (readChunk index) (merklePath blake index)
        some (some (nonce, proof))
      else mineLoop remaining (nonce + 1)

def minePom (nonceStart maxNonces : UInt64) : Option (Option (UInt64 × PomProof (Bytes 32))) :=
  mineLoop blake index tier prePowHash timestamp target k t
    ((saturatingAdd nonceStart maxNonces).toNat - nonceStart.toNat) nonceStart

end Search

theorem saturating_add_toNat (a b : UInt64) :
    (saturatingAdd a b).toNat = min (a.toNat + b.toNat) (2 ^ 64 - 1) := by
  by_cases fits : a.toNat + b.toNat < 2 ^ 64
  · rw [saturatingAdd, if_pos fits, UInt64.toNat_add]
    omega
  · rw [saturatingAdd, if_neg fits]
    have top : (0xFFFFFFFFFFFFFFFF : UInt64).toNat = 2 ^ 64 - 1 := rfl
    omega

/-- The walk of this nonce over `chunks` meets the target. -/
def Meets (chunks : List (Bytes 32)) (prePowHash : Bytes 32) (timestamp : UInt64)
    (target : Bytes 32) (k : Nat) (nonce : UInt64) : Prop :=
  ∃ final, walkFinal (pomBlockSeed prePowHash timestamp nonce) chunks.length k
      (chunkReader chunks) = some final ∧
    leLeq (pomPowValue final prePowHash) target = true

/-- The lowest nonce of `low ≤ nonce < high` that meets the target, with an
accepted proof; nothing only when none does. -/
def LowestProved (blake : Blake (Bytes 32)) (chunks : List (Bytes 32)) (rT : Bytes 32)
    (prePowHash : Bytes 32) (timestamp : UInt64) (target : Bytes 32) (k t low high : Nat) :
    Option (UInt64 × PomProof (Bytes 32)) → Prop
  | some (nonce, proof) =>
      (low ≤ nonce.toNat ∧ nonce.toNat < high) ∧
      Meets chunks prePowHash timestamp target k nonce ∧
      (∀ earlier : UInt64, low ≤ earlier.toNat → earlier.toNat < nonce.toNat →
        ¬ Meets chunks prePowHash timestamp target k earlier) ∧
      verifyProof blake prePowHash nonce (pomBlockSeed prePowHash timestamp nonce) proof
        chunks.length k t rT target = true
  | none => ∀ nonce : UInt64, low ≤ nonce.toNat → nonce.toNat < high →
      ¬ Meets chunks prePowHash timestamp target k nonce

section Fresh
variable {blake : Blake (Bytes 32)} {chunks : List (Bytes 32)} {index : Index}

theorem index_reads_chunks (indexes : Indexes blake chunks index) :
    ReadsChunks chunks (readChunk index) := by
  intro off inside
  rw [readChunk, indexes.reads off inside, chunkReader]

theorem index_root (indexes : Indexes blake chunks index) (tall : 32 < chunks.length) :
    merkleRoot blake (chunks.map (chunkLeaf blake)) = some index.rT := by
  have root := tall_root blake (chunks.map (chunkLeaf blake)) (by rwa [List.length_map])
  rw [← root, builtRoot, indexes.tree, Option.map_some]

theorem index_paths (indexes : Indexes blake chunks index) (nonempty : chunks ≠ []) :
    ∀ off < chunks.length,
      merklePath blake index off = merkleProof blake (chunks.map (chunkLeaf blake)) off := by
  intro off inside
  have sparse := indexes_sparse indexes nonempty
  exact sparse_path_eq sparse (plain_reads_levels sparse) off (by rwa [List.length_map])

/-- A missed nonce can be added below the range. -/
theorem lowest_below_missed {rT prePowHash target : Bytes 32} {timestamp nonce : UInt64}
    {k t high : Nat} {result : Option (UInt64 × PomProof (Bytes 32))}
    (missed : ¬ Meets chunks prePowHash timestamp target k nonce)
    (lowest : LowestProved blake chunks rT prePowHash timestamp target k t (nonce.toNat + 1) high
      result) :
    LowestProved blake chunks rT prePowHash timestamp target k t nonce.toNat high result := by
  have first : ∀ other : UInt64, nonce.toNat ≤ other.toNat → ¬ nonce.toNat + 1 ≤ other.toNat →
      other = nonce := fun other low above => UInt64.toNat_inj.mp (by omega)
  cases result with
  | none =>
      intro other low bound
      by_cases later : nonce.toNat + 1 ≤ other.toNat
      · exact lowest other later bound
      · rw [first other low later]
        exact missed
  | some found =>
      obtain ⟨inside, hit, minimal, accepted⟩ := lowest
      refine ⟨⟨by omega, inside.2⟩, hit, fun other low bound => ?_, accepted⟩
      by_cases later : nonce.toNat + 1 ≤ other.toNat
      · exact minimal other later bound
      · rw [first other low later]
        exact missed

theorem mine_loop_lowest (indexes : Indexes blake chunks index) (tall : 32 < chunks.length)
    (tier : UInt8) (prePowHash : Bytes 32) (timestamp : UInt64) (target : Bytes 32) {k : Nat}
    (positive : 1 ≤ k) (t remaining : Nat) (nonce : UInt64)
    (bound : nonce.toNat + remaining < 2 ^ 64) :
    ∃ result, mineLoop blake index tier prePowHash timestamp target k t remaining nonce =
        some result ∧
      LowestProved blake chunks index.rT prePowHash timestamp target k t nonce.toNat
        (nonce.toNat + remaining) result := by
  have nonempty : chunks ≠ [] := by
    intro empty
    simp [empty] at tall
  induction remaining generalizing nonce with
  | zero =>
      refine ⟨none, rfl, fun other low high => ?_⟩
      omega
  | succ remaining ih =>
      obtain ⟨final, walked⟩ :=
        walk_final_present nonempty (pomBlockSeed prePowHash timestamp nonce) k
      have reads := index_reads_chunks indexes
      have own : walkFinal (pomBlockSeed prePowHash timestamp nonce) index.nChunks k
          (readChunk index) = some final := by
        rw [indexes.count, walkFinal, walk_loop_congr reads nonempty]
        exact walked
      simp only [mineLoop, own, Option.bind_eq_bind, Option.bind_some]
      by_cases meets : leLeq (pomPowValue final prePowHash) target = true
      · obtain ⟨proof, built, _, _, accepted⟩ := build_proof_accepted blake chunks nonempty
          index.rT (index_root indexes tall) (readChunk index) reads (merklePath blake index)
          (index_paths indexes nonempty) positive t tier prePowHash nonce _ target final walked
          meets
        rw [if_pos meets, indexes.count, built]
        refine ⟨some (nonce, proof), rfl, ⟨Nat.le_refl _, by omega⟩, ⟨final, walked, meets⟩, ?_,
          accepted⟩
        intro earlier low high
        omega
      · have missed : ¬ Meets chunks prePowHash timestamp target k nonce := by
          rintro ⟨other, reached, hit⟩
          rw [walked] at reached
          rw [← Option.some.inj reached] at hit
          exact meets hit
        have step : (nonce + 1).toNat = nonce.toNat + 1 := by
          rw [UInt64.toNat_add]
          have one : (1 : UInt64).toNat = 1 := rfl
          omega
        -- the rest of the range starts one above, without wrapping
        rw [if_neg meets]
        obtain ⟨result, mined, lowest⟩ := ih (nonce + 1) (by omega)
        rw [step, Nat.add_right_comm nonce.toNat 1 remaining] at lowest
        exact ⟨result, mined, lowest_below_missed missed lowest⟩

end Fresh

/-- Over every model of more than 32 chunks the built index has the dense root,
and mining with it never panics and returns the lowest nonce that meets the
target, with a proof the verifier accepts, or nothing when no nonce does. -/
theorem mined_proof_accepted (blake : Blake (Bytes 32)) (gguf : Gguf) (served : Served gguf)
    (chunks : List (Bytes 32)) (layout : canonicalChunks gguf = some chunks)
    (tall : 32 < chunks.length) :
    ∃ index, buildFresh blake gguf = .ok index ∧ index.nChunks = chunks.length ∧
      merkleRoot blake (chunks.map (chunkLeaf blake)) = some index.rT ∧
      ∀ (tier : UInt8) (prePowHash : Bytes 32) (timestamp : UInt64) (target : Bytes 32)
        (k t : Nat) (start max : UInt64), 1 ≤ k →
        ∃ result, minePom blake index tier prePowHash timestamp target k t start max =
            some result ∧
          LowestProved blake chunks index.rT prePowHash timestamp target k t start.toNat
            (saturatingAdd start max).toNat result := by
  have nonempty : chunks ≠ [] := by
    intro empty
    simp [empty] at tall
  obtain ⟨index, built, indexes⟩ := build_fresh_indexes blake gguf served chunks layout nonempty
  refine ⟨index, built, indexes.count, index_root indexes tall, ?_⟩
  intro tier prePowHash timestamp target k t start max positive
  have bound := saturating_add_toNat start max
  have small := start.toNat_lt
  obtain ⟨result, mined, lowest⟩ := mine_loop_lowest indexes tall tier prePowHash timestamp target
    positive t ((saturatingAdd start max).toNat - start.toNat) start (by omega)
  refine ⟨result, mined, ?_⟩
  rwa [show start.toNat + ((saturatingAdd start max).toNat - start.toNat) =
    (saturatingAdd start max).toNat by omega] at lowest

theorem mined_proof_accepted_shortest :
    ∃ index,
      buildFresh heightBlake (ggufOfChunks (List.replicate 33 (numbered 5))) = .ok index ∧
      index.nChunks = (List.replicate 33 (numbered 5)).length ∧
      merkleRoot heightBlake ((List.replicate 33 (numbered 5)).map (chunkLeaf heightBlake)) =
        some index.rT ∧
      ∃ result, minePom heightBlake index 1 (numbered 9) 123 (numbered 255) 4 3 0 10 =
          some result ∧
        LowestProved heightBlake (List.replicate 33 (numbered 5)) index.rT (numbered 9) 123
          (numbered 255) 4 3 (0 : UInt64).toNat (saturatingAdd 0 10).toNat result := by
  obtain ⟨index, built, count, root, mines⟩ := mined_proof_accepted heightBlake _
    (of_chunks_served _) (List.replicate 33 (numbered 5)) (of_chunks_layout _)
    (by rw [List.length_replicate]; decide)
  exact ⟨index, built, count, root,
    mines 1 (numbered 9) 123 (numbered 255) 4 3 0 10 (by decide)⟩

end KeryxMiner.PomMining
