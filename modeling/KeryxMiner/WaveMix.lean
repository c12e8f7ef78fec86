import KeryxMiner.HeavyHash
import KeryxMiner.WordPermutations

/-!
The inverse of `wave_mix`. A step writes one word from itself and another, which the
inverse finds unchanged.
-/

namespace KeryxMiner.WaveMix

open ByteCodec HeavyHash PomKernel PomPrimitives WordPermutations

/-! Rounds. -/

def waveStep (r i : Nat) (term : UInt64) : Equiv.Perm UInt64 :=
  ((increased term).trans (rotated (waveMixRotation i))).trans (Equiv.xor (waveMixKey (r + i)))

theorem wave_step_apply (r i : Nat) (term word : UInt64) :
    waveStep r i term word =
      rotateLeft (word + term) (waveMixRotation i) ^^^ waveMixKey (r + i) :=
  UInt64.xor_comm ..

def waveUnround (r : Nat) (w : Words4) : Words4 :=
  let w3 := (waveStep r 3 w.w0).symm w.w3
  let w1 := (waveStep r 1 w.w2).symm w.w1
  let w2 := (waveStep r 2 w3).symm w.w2
  let w0 := (waveStep r 0 w1).symm w.w0
  ⟨w0, w1, w2, w3⟩

theorem wave_round_eq (w : Words4) (r : Nat) : waveRound w r =
    ⟨waveStep r 0 w.w1 w.w0, waveStep r 1 (waveStep r 2 w.w3 w.w2) w.w1,
      waveStep r 2 w.w3 w.w2, waveStep r 3 (waveStep r 0 w.w1 w.w0) w.w3⟩ := by
  simp only [waveRound, wave_step_apply, Nat.add_zero]

def waveRounds (r : Nat) : Equiv.Perm Words4 where
  toFun w := waveRound w r
  invFun := waveUnround r
  left_inv w := by
    simp only [wave_round_eq, waveUnround, Equiv.symm_apply_apply]
  right_inv w := by
    simp only [wave_round_eq, waveUnround, Equiv.apply_symm_apply]

/-! Blocks. -/

theorem words4_array (w : Words4) : words4 (wordsToBytes (Words4.array w)) = w := by
  rw [Words4.array, words4_bytes]

def blockWords : Bytes 32 ≃ Words4 where
  toFun := words4
  invFun w := wordsToBytes (Words4.array w)
  left_inv := words_to_bytes_chunk
  right_inv := words4_array

/-- The rounds undone, the last one first. -/
def waveUnmix (bytes : Bytes 32) : Bytes 32 :=
  wordsToBytes (Words4.array
    ((List.range 4).reverse.foldl (fun w r => waveUnround r w) (words4 bytes)))

def waveMixed : Equiv.Perm (Bytes 32) :=
  (blockWords.trans (folded waveRounds (List.range 4))).trans blockWords.symm

theorem wave_mix_eq : waveMix = waveMixed := by
  funext bytes
  rw [waveMixed, Equiv.trans_apply, Equiv.trans_apply, folded_apply]
  rfl

theorem wave_unmix_eq : waveUnmix = waveMixed.symm := by
  funext bytes
  rw [waveMixed, Equiv.symm_trans_apply, Equiv.symm_trans_apply, folded_symm_apply]
  rfl

/-- The words that the final hasher absorbs determine the matrix product. -/
theorem wave_mix_invertible :
    Function.LeftInverse waveUnmix waveMix ∧ Function.RightInverse waveUnmix waveMix ∧
      Function.Injective fun product => leWords (waveMix product) := by
  rw [wave_mix_eq, wave_unmix_eq]
  exact ⟨waveMixed.symm_apply_apply, waveMixed.apply_symm_apply,
    le_words_injective.comp waveMixed.injective⟩

end KeryxMiner.WaveMix
