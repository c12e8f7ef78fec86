import KeryxMiner.PossessionProof
import KeryxMiner.WordPermutations

/-!
The steps of a walk as permutations of its state: nonces whose walks read the same
chunks keep apart.
-/

namespace KeryxMiner.DistinctWork

open ByteCodec PomPrimitives PossessionProof WordPermutations

/-! The mixer and the transition. -/

def mixed : Equiv.Perm UInt64 :=
  (xorShifted 30 (by decide)).trans
    ((multiplied 0xbf58476d1ce4e5b9 0x96de1b173f119089 (by decide)).trans
      ((xorShifted 27 (by decide)).trans
        ((multiplied 0x94d049bb133111eb 0x319642b2d24d8ec3 (by decide)).trans
          (xorShifted 31 (by decide)))))

theorem mix64_eq : mix64 = mixed := rfl

theorem mix64_injective : Function.Injective mix64 := by
  rw [mix64_eq]
  exact mixed.injective

def stepped (chunk : Words) : Equiv.Perm UInt64 := (folded Equiv.xor chunk.items).trans mixed

theorem transition_eq (state : UInt64) (chunk : Words) :
    transition state chunk = stepped chunk state := by
  have absorbed : chunk.items.foldl (fun h w => h ^^^ w) state =
      folded Equiv.xor chunk.items state := by
    rw [folded_apply]
    exact List.foldl_ext _ _ _ fun h w _ => UInt64.xor_comm h w
  rw [transition, absorbed, mix64_eq, stepped, Equiv.trans_apply]

/-! The seed and the value. -/

theorem mix_left_injective (word : UInt64) : Function.Injective fun state => mix64 (state ^^^ word) :=
  mix64_injective.comp (xor_left_involutive word).injective

theorem seed_injective (prePowHash : Bytes 32) (timestamp : UInt64) :
    Function.Injective (pomBlockSeed prePowHash timestamp) := by
  intro nonce other same
  have hashed := mix_left_injective _ (mix_left_injective _ (mix_left_injective _
    (mix_left_injective _ same)))
  exact mix_left_injective _ (mix_left_injective timestamp hashed)

/-- The first word of the value determines the state. -/
theorem value_injective (prePowHash : Bytes 32) :
    Function.Injective fun final => pomPowValue final prePowHash := by
  intro final other same
  have words := congrArg FixedArray.items (words_to_bytes_injective same)
  have first := mix64_injective (List.head_eq_of_cons_eq words)
  exact (xor_left_involutive _).injective ((xor_left_involutive _).injective first)

/-! Walks. -/

section Walks
variable (nChunks : Nat) (readChunk : Nat → Option Words)

/-- The chunks that the loop of `walk_final` reads. -/
def readLoop : Nat → UInt64 → Nat → Option (List Words)
  | 0, _, _ => some []
  | k + 1, state, off => do
      let chunk ← readChunk off
      let state := transition state chunk
      let rest ← readLoop k state (state.toNat % nChunks)
      some (chunk :: rest)

def readSequence (seed : UInt64) (k : Nat) : Option (List Words) :=
  readLoop nChunks readChunk k seed (seed.toNat % nChunks)

theorem walk_loop_reads {k : Nat} {state : UInt64} {off : Nat} {chunks : List Words}
    (reads : readLoop nChunks readChunk k state off = some chunks) :
    walkLoop nChunks readChunk k state off = some (folded stepped chunks state) := by
  induction k generalizing state off chunks with
  | zero =>
      obtain rfl := Option.some.inj reads
      rfl
  | succ k ih =>
      obtain ⟨chunk, read, continues⟩ := Option.bind_eq_some_iff.mp reads
      obtain ⟨rest, later, whole⟩ := Option.bind_eq_some_iff.mp continues
      obtain rfl := Option.some.inj whole
      rw [walkLoop, read, Option.bind_eq_bind, Option.bind_some]
      exact (ih later).trans (by rw [transition_eq]; rfl)

end Walks

/-- No two nonces lead to one seed, no two states to one state or value. -/
structure Distinct (prePowHash : Bytes 32) (timestamp : UInt64) : Prop where
  seeds : Function.Injective (pomBlockSeed prePowHash timestamp)
  transitions : ∀ chunk, Function.Bijective fun state => transition state chunk
  values : Function.Injective fun final => pomPowValue final prePowHash
  walks : ∀ nChunks k readChunk chunks nonce other, nonce ≠ other →
    readSequence nChunks readChunk (pomBlockSeed prePowHash timestamp nonce) k = some chunks →
    readSequence nChunks readChunk (pomBlockSeed prePowHash timestamp other) k = some chunks →
    ∃ final last,
      walkFinal (pomBlockSeed prePowHash timestamp nonce) nChunks k readChunk = some final ∧
      walkFinal (pomBlockSeed prePowHash timestamp other) nChunks k readChunk = some last ∧
      pomPowValue final prePowHash ≠ pomPowValue last prePowHash

/-- Distinct nonces never share work, along whatever chunks both of their walks read. -/
theorem nonces_distinct (prePowHash : Bytes 32) (timestamp : UInt64) :
    Distinct prePowHash timestamp := by
  constructor
  · exact seed_injective prePowHash timestamp
  · intro chunk
    have steps : (fun state => transition state chunk) = stepped chunk :=
      funext fun state => transition_eq state chunk
    rw [steps]
    exact (stepped chunk).bijective
  · exact value_injective prePowHash
  · intro nChunks k readChunk chunks nonce other apart reads others
    refine ⟨_, _, walk_loop_reads nChunks readChunk reads, walk_loop_reads nChunks readChunk others,
      fun same => apart ?_⟩
    have seeds := (folded stepped chunks).injective (value_injective prePowHash same)
    exact seed_injective prePowHash timestamp seeds

/-! Walks over equal chunks. -/

theorem steady_reads (nChunks : Nat) (chunk : Words) (k : Nat) (state : UInt64) (off : Nat) :
    readLoop nChunks (fun _ => some chunk) k state off = some (List.replicate k chunk) := by
  induction k generalizing state off with
  | zero => rfl
  | succ k ih =>
      rw [readLoop, Option.bind_eq_bind, Option.bind_some]
      dsimp only
      rw [ih]
      rfl

def steadyChunk : Words := ⟨[5, 6, 7, 8], rfl⟩

theorem nonces_distinct_steady : ∃ final last,
    walkFinal (pomBlockSeed (zeroBytes 32) 0 0) 7 256 (fun _ => some steadyChunk) = some final ∧
      walkFinal (pomBlockSeed (zeroBytes 32) 0 1) 7 256 (fun _ => some steadyChunk) = some last ∧
      pomPowValue final (zeroBytes 32) ≠ pomPowValue last (zeroBytes 32) :=
  (nonces_distinct (zeroBytes 32) 0).walks 7 256 (fun _ => some steadyChunk)
    (List.replicate 256 steadyChunk) 0 1 (by decide) (steady_reads ..) (steady_reads ..)

end KeryxMiner.DistinctWork
