import KeryxMiner.PomKernel
import KeryxMiner.PomMining

/-!
The GPU walk is the host walk. The gather places every chunk under one table
row, the unrolled search finds that row, the four words gathered there are the
chunk's, and the word comparison is the byte comparison. The winner of a launch
is the least passing nonce whatever the order of the atomics.
-/

namespace KeryxMiner.GpuWalk

open ByteCodec PomPrimitives PossessionProof ProofSoundness HonestProof
open CheckpointTree WeightIndex ChunkLayout PomMining ModMagic PomKernel

/-! Words. -/

theorem pow_fold_eq (final : UInt64) (prePowHash : Bytes 32) :
    pomPowFold final (words4 prePowHash) = words4 (pomPowValue final prePowHash) := by
  simp only [pomPowValue, words4_bytes]
  rfl

theorem seed_fold_eq (prePowHash : Bytes 32) (timestamp nonce : UInt64) :
    pomSeedFold nonce timestamp (words4 prePowHash).w0 (words4 prePowHash).w1
        (words4 prePowHash).w2 (words4 prePowHash).w3 =
      pomBlockSeed prePowHash timestamp nonce := rfl

/-- The number a 32-byte value stands for, from its words. -/
theorem decode_words (c : Bytes 32) :
    decode c.items = (words4 c).w0.toNat + 2 ^ 64 * ((words4 c).w1.toNat +
      2 ^ 64 * ((words4 c).w2.toNat + 2 ^ 64 * (words4 c).w3.toNat)) := by
  have length := c.sized
  have word : ∀ offset, offset + 8 ≤ 32 →
      (fromLeBytes ((c.items.drop offset).take 8)).toNat = decode ((c.items.drop offset).take 8) := by
    intro offset inside
    apply toNat_fromLeBytes
    rw [List.length_take, List.length_drop, length]
    omega
  have peel : ∀ offset, offset + 8 ≤ 32 → decode (c.items.drop offset) =
      decode ((c.items.drop offset).take 8) + 2 ^ 64 * decode (c.items.drop (offset + 8)) := by
    intro offset inside
    have split := decode_append ((c.items.drop offset).take 8) (c.items.drop (offset + 8))
    have taken : ((c.items.drop offset).take 8).length = 8 := by
      rw [List.length_take, List.length_drop, length]
      omega
    rw [← List.drop_drop, List.take_append_drop, taken] at split
    rw [split, ← List.drop_drop]
    rfl
  have whole := peel 0 (by decide)
  rw [List.drop_zero] at whole
  have nothing : decode (c.items.drop 32) = 0 := by
    rw [List.drop_eq_nil_of_le (by omega)]
    rfl
  rw [whole, peel 8 (by decide), peel 16 (by decide), peel 24 (by decide), nothing]
  have w0 := word 0 (by decide)
  rw [List.drop_zero] at w0
  rw [← w0, ← word 8 (by decide), ← word 16 (by decide), ← word 24 (by decide)]
  rfl

theorem le_leq_words (a b : Bytes 32) : pomLeLeq (words4 a) (words4 b) = leLeq a b := by
  rw [Bool.eq_iff_iff, le_leq_iff, decode_words a, decode_words b]
  have a0 := (words4 a).w0.toNat_lt
  have a1 := (words4 a).w1.toNat_lt
  have a2 := (words4 a).w2.toNat_lt
  have b0 := (words4 b).w0.toNat_lt
  have b1 := (words4 b).w1.toNat_lt
  have b2 := (words4 b).w2.toNat_lt
  unfold pomLeLeq
  split
  · rename_i differs
    have apart : (words4 a).w3.toNat ≠ (words4 b).w3.toNat :=
      fun same => differs (UInt64.toNat_inj.mp same)
    rw [decide_eq_true_iff, UInt64.lt_iff_toNat_lt]
    omega
  · rename_i same3
    have top := congrArg UInt64.toNat (not_not.mp same3)
    split
    · rename_i differs
      have apart : (words4 a).w2.toNat ≠ (words4 b).w2.toNat :=
        fun same => differs (UInt64.toNat_inj.mp same)
      rw [decide_eq_true_iff, UInt64.lt_iff_toNat_lt]
      omega
    · rename_i same2
      have middle := congrArg UInt64.toNat (not_not.mp same2)
      split
      · rename_i differs
        have apart : (words4 a).w1.toNat ≠ (words4 b).w1.toNat :=
          fun same => differs (UInt64.toNat_inj.mp same)
        rw [decide_eq_true_iff, UInt64.lt_iff_toNat_lt]
        omega
      · rename_i same1
        have low := congrArg UInt64.toNat (not_not.mp same1)
        rw [decide_eq_true_iff, UInt64.le_iff_toNat_le]
        omega

/-- Device memory holds the chunk at `address`. -/
def HoldsChunk (memory : DeviceMemory) (address : Nat) (chunk : Bytes 32) : Prop :=
  ∀ i < 32, chunk.items[i]? = some (memory (address + i))

theorem load_word_eq {memory : DeviceMemory} {address : Nat} {chunk : Bytes 32}
    (holds : HoldsChunk memory address chunk) (offset : Nat) (inside : offset + 8 ≤ 32) :
    loadWord memory (address + offset) = fromLeBytes ((chunk.items.drop offset).take 8) := by
  have same : (List.range 8).map (fun b => memory (address + offset + b)) =
      (chunk.items.drop offset).take 8 := by
    apply List.ext_getElem?
    intro b
    rcases Nat.lt_or_ge b 8 with small | large
    · rw [List.getElem?_take_of_lt small, List.getElem?_drop, holds (offset + b) (by omega),
        List.getElem?_map, List.getElem?_range small, Option.map_some, Nat.add_assoc]
    · rw [List.getElem?_eq_none (by simpa using large), List.getElem?_eq_none]
      rw [List.length_take]
      omega
  rw [loadWord, same]

theorem gathered_transition {memory : DeviceMemory} {address : Nat} {chunk : Bytes 32}
    (holds : HoldsChunk memory address chunk) (state : UInt64) :
    PomKernel.mix64 (state ^^^ loadWord memory address ^^^ loadWord memory (address + 8) ^^^
      loadWord memory (address + 16) ^^^ loadWord memory (address + 24)) =
      transition state (chunkToWords chunk) := by
  have w0 := load_word_eq holds 0 (by decide)
  rw [Nat.add_zero] at w0
  rw [w0, load_word_eq holds 8 (by decide), load_word_eq holds 16 (by decide),
    load_word_eq holds 24 (by decide)]
  rfl

/-! The gather. -/

/-- The device tensors hold the bytes the loader hands out. -/
def Resident (memory : DeviceMemory) (devicePtr : Tensor → UInt64) (gguf : Gguf) : Prop :=
  ∀ tensor ∈ gguf.tensorInfos, ∀ bytes, tensor.data = some bytes →
    ∀ i < bytes.length, bytes[i]? = some (memory ((devicePtr tensor).toNat + i))

/-- Row `j` of the tables covers chunk `off`, and the device holds the chunk at
its place in that row. -/
structure Covers (memory : DeviceMemory) (gather : Gather) (off j : Nat) (start next : UInt32)
    (base : UInt64) (chunk : Bytes 32) : Prop where
  at_start : gather.prefixSums[j]? = some start
  at_next : gather.prefixSums[j + 1]? = some next
  at_base : gather.bases[j]? = some base
  reached : start.toNat ≤ off
  before : off < next.toNat
  holds : HoldsChunk memory (base.toNat + 32 * (off - start.toNat)) chunk

structure Gathered (memory : DeviceMemory) (gather : Gather) (chunks : List (Bytes 32)) :
    Prop where
  lengths : gather.prefixSums.length = gather.bases.length + 1
  first : gather.prefixSums[0]? = some 0
  total : ∃ last, gather.prefixSums.getLast? = some last ∧ last.toNat = chunks.length
  increasing : gather.prefixSums.Pairwise fun a b => a.toNat < b.toNat
  covered : ∀ off < chunks.length, ∃ j start next base chunk, chunks[off]? = some chunk ∧
    Covers memory gather off j start next base chunk

theorem gathered_empty (memory : DeviceMemory) :
    Gathered memory { bases := [], prefixSums := [0] } [] where
  lengths := rfl
  first := rfl
  total := ⟨0, rfl, rfl⟩
  increasing := List.pairwise_singleton _ _
  covered := by simp

theorem full_chunk_held {memory : DeviceMemory} {address : Nat} {bytes : List UInt8}
    (resident : ∀ i < bytes.length, bytes[i]? = some (memory (address + i))) {c : Nat}
    {chunk : Bytes 32} (cut : (fullChunks bytes)[c]? = some chunk) :
    HoldsChunk memory (address + 32 * c) chunk := by
  have inside := (List.getElem?_eq_some_iff.mp cut).1
  rw [full_chunks_length] at inside
  rw [← full_chunks_read bytes c inside, readExactAt, dif_pos (by omega)] at cut
  intro i small
  rw [← Option.some.inj cut, List.getElem?_take_of_lt small, List.getElem?_drop,
    resident (c * 32 + i) (by omega), Nat.mul_comm c, Nat.add_assoc]

theorem covers_append {memory : DeviceMemory} {gather : Gather} {off j : Nat}
    {start next : UInt32} {base : UInt64} {chunk : Bytes 32}
    (covers : Covers memory gather off j start next base chunk) (added : UInt64)
    (total : UInt32) :
    Covers memory
      { bases := gather.bases ++ [added], prefixSums := gather.prefixSums ++ [total] }
      off j start next base chunk := by
  obtain ⟨at_start, at_next, at_base, reached, before, holds⟩ := covers
  have inside_start := (List.getElem?_eq_some_iff.mp at_start).1
  have inside_next := (List.getElem?_eq_some_iff.mp at_next).1
  have inside_base := (List.getElem?_eq_some_iff.mp at_base).1
  exact ⟨by rw [List.getElem?_append_left inside_start, at_start],
    by rw [List.getElem?_append_left inside_next, at_next],
    by rw [List.getElem?_append_left inside_base, at_base], reached, before, holds⟩

theorem increasing_append {table : List UInt32} {last sum : UInt32}
    (at_last : table.getLast? = some last)
    (increasing : table.Pairwise fun a b => a.toNat < b.toNat) (more : last.toNat < sum.toNat) :
    (table ++ [sum]).Pairwise fun a b => a.toNat < b.toNat := by
  rw [List.pairwise_append]
  refine ⟨increasing, List.pairwise_singleton _ _, fun early member late same => ?_⟩
  rw [List.mem_singleton.mp same]
  obtain ⟨i, inside, rfl⟩ := List.mem_iff_getElem.mp member
  rw [List.getLast?_eq_getElem?] at at_last
  obtain ⟨bound, value⟩ := List.getElem?_eq_some_iff.mp at_last
  rcases Nat.lt_or_ge i (table.length - 1) with earlier | final
  · have less := List.pairwise_iff_getElem.mp increasing i _ inside bound earlier
    rw [value] at less
    omega
  · obtain rfl : i = table.length - 1 := by omega
    rwa [value]

/-- One more tensor of at least one chunk. -/
theorem gathered_append {memory : DeviceMemory} {gather : Gather} {chunks : List (Bytes 32)}
    (gathered : Gathered memory gather chunks) {last sum : UInt32} (base : UInt64)
    (bytes : List UInt8) (at_last : gather.prefixSums.getLast? = some last)
    (last_value : last.toNat = chunks.length)
    (sum_value : sum.toNat = chunks.length + bytes.length / 32) (some_chunk : 0 < bytes.length / 32)
    (resident : ∀ i < bytes.length, bytes[i]? = some (memory (base.toNat + i))) :
    Gathered memory
      { bases := gather.bases ++ [base], prefixSums := gather.prefixSums ++ [sum] }
      (chunks ++ fullChunks bytes) where
  lengths := by simp [gathered.lengths]
  first := by
    have lengths := gathered.lengths
    rw [List.getElem?_append_left (by omega), gathered.first]
  total := ⟨sum, List.getLast?_concat, by rw [sum_value, List.length_append, full_chunks_length]⟩
  increasing := increasing_append at_last gathered.increasing (by omega)
  covered := by
    intro off inside
    have lengths := gathered.lengths
    rw [List.length_append, full_chunks_length] at inside
    rcases Nat.lt_or_ge off chunks.length with old | new
    · obtain ⟨j, start, next, row, chunk, present, covers⟩ := gathered.covered off old
      exact ⟨j, start, next, row, chunk, by rw [List.getElem?_append_left old, present],
        covers_append covers _ _⟩
    · -- the new row starts where the table ended
      have within : off - chunks.length < (fullChunks bytes).length := by
        rw [full_chunks_length]
        omega
      have cut := List.getElem?_eq_getElem within
      rw [List.getLast?_eq_getElem?, lengths, Nat.add_sub_cancel] at at_last
      refine ⟨gather.bases.length, last, sum, base, (fullChunks bytes)[off - chunks.length],
        by rw [List.getElem?_append_right new, cut], ⟨?_, ?_, by simp, by omega, by omega, ?_⟩⟩
      · rw [List.getElem?_append_left (by omega), at_last]
      · rw [← lengths]
        simp
      · rw [last_value]
        exact full_chunk_held resident cut

theorem gather_step {memory : DeviceMemory} {gather : Gather} {chunks : List (Bytes 32)}
    (gathered : Gathered memory gather chunks) (devicePtr : Tensor → UInt64) (tensor : Tensor)
    (bytes : List UInt8) (loaded : tensor.data = some bytes)
    (resident : ∀ i < bytes.length, bytes[i]? = some (memory ((devicePtr tensor).toNat + i)))
    (small : chunks.length + bytes.length / 32 < 2 ^ 32) :
    ∃ after, gatherTensor devicePtr gather tensor = .ok after ∧
      Gathered memory after (chunks ++ fullChunks bytes) := by
  have word : (UInt32.ofNat (bytes.length / 32)).toNat = bytes.length / 32 := by
    rw [UInt32.toNat_ofNat']
    omega
  have zero : (0 : UInt32).toNat = 0 := rfl
  by_cases some_chunk : 0 < bytes.length / 32
  · have kept : UInt32.ofNat (bytes.length / 32) ≠ 0 := by
      intro none_left
      rw [none_left, zero] at word
      omega
    obtain ⟨last, at_last, last_value⟩ := gathered.total
    refine ⟨_, by rw [gatherTensor, loaded]; exact if_neg kept, ?_⟩
    rw [at_last, Option.getD_some]
    refine gathered_append gathered _ bytes at_last last_value ?_ some_chunk resident
    rw [UInt32.toNat_add, word, last_value]
    omega
  · have none_left : bytes.length / 32 = 0 := by omega
    have empty : fullChunks bytes = [] :=
      List.eq_nil_of_length_eq_zero (by rw [full_chunks_length]; exact none_left)
    refine ⟨gather, ?_, by rwa [empty, List.append_nil]⟩
    rw [gatherTensor, loaded]
    simp only [none_left]
    rfl

theorem gather_run (memory : DeviceMemory) (devicePtr : Tensor → UInt64) (tensors : List Tensor)
    (resident : ∀ tensor ∈ tensors, ∀ bytes, tensor.data = some bytes →
      ∀ i < bytes.length, bytes[i]? = some (memory ((devicePtr tensor).toNat + i)))
    (chunks : List (Bytes 32)) (layout : chunksOf tensors = some chunks)
    (small : chunks.length < 2 ^ 32) :
    ∃ gather, tensors.foldlM (gatherTensor devicePtr) { bases := [], prefixSums := [0] } =
        .ok gather ∧ Gathered memory gather chunks := by
  induction tensors using List.reverseRecOn generalizing chunks with
  | nil =>
      obtain rfl : [] = chunks := Option.some.inj layout
      exact ⟨_, rfl, gathered_empty memory⟩
  | append_singleton tensors tensor ih =>
      rw [chunks_of_snoc] at layout
      obtain ⟨earlier, initial, last⟩ := Option.bind_eq_some_iff.mp layout
      obtain ⟨bytes, loaded, rfl⟩ := Option.map_eq_some_iff.mp last
      rw [List.length_append, full_chunks_length] at small
      obtain ⟨gather, ran, gathered⟩ := ih
        (fun other member => resident other (List.mem_append_left _ member)) earlier initial
        (by omega)
      obtain ⟨after, step, grown⟩ := gather_step gathered devicePtr tensor bytes loaded
        (resident tensor (by simp) bytes loaded) small
      exact ⟨after, by simp [List.foldlM_append, ran, step, bind, Except.bind, pure, Except.pure],
        grown⟩

/-! One launch over a gathered layout. -/

structure Prepared (memory : DeviceMemory) (args : KernelArgs) (chunks : List (Bytes 32)) :
    Prop where
  gathered : Gathered memory args.gather chunks
  rows : args.tensorCount.toNat = args.gather.bases.length
  few : args.gather.bases.length ≤ 1024
  nonempty : chunks ≠ []
  small : chunks.length < 2 ^ 32
  total : args.nTotalChunks.toNat = chunks.length
  reduces : ∀ a, fastMod a args.magic args.shift args.nTotalChunks = a % args.nTotalChunks

theorem table_ordered {memory : DeviceMemory} {gather : Gather} {chunks : List (Bytes 32)}
    (gathered : Gathered memory gather chunks) {i j : Nat} {early late : UInt32} (le : i ≤ j)
    (at_early : gather.prefixSums[i]? = some early) (at_late : gather.prefixSums[j]? = some late) :
    early.toNat ≤ late.toNat := by
  rcases Nat.lt_or_eq_of_le le with before | rfl
  · obtain ⟨early_inside, rfl⟩ := List.getElem?_eq_some_iff.mp at_early
    obtain ⟨late_inside, rfl⟩ := List.getElem?_eq_some_iff.mp at_late
    exact Nat.le_of_lt
      (List.pairwise_iff_getElem.mp gathered.increasing i j early_inside late_inside before)
  · rw [at_early] at at_late
    rw [Option.some.inj at_late]

theorem pred_iff {args : KernelArgs} {i : Nat} (inside : i ≤ args.tensorCount.toNat)
    (off : UInt64) {start : UInt32}
    (at_start : args.gather.prefixSums[i]? = some start) :
    pred args off i = true ↔ start.toNat ≤ off.toNat := by
  simp only [pred, sharedPrefix, if_pos inside, at_start, decide_eq_true_iff,
    UInt64.le_iff_toNat_le, UInt32.toNat_toUInt64]

section Launch
variable {memory : DeviceMemory} {args : KernelArgs} {chunks : List (Bytes 32)}
variable (prepared : Prepared memory args chunks)
include prepared

theorem find_tensor_covers (off : UInt64) {j : Nat} {start next : UInt32} {base : UInt64}
    {chunk : Bytes 32} (covers : Covers memory args.gather off.toNat j start next base chunk) :
    findTensor args off = j := by
  obtain ⟨at_start, at_next, at_base, reached, before, _⟩ := covers
  have row := (List.getElem?_eq_some_iff.mp at_base).1
  have rows := prepared.rows
  have few := prepared.few
  have lengths := prepared.gathered.lengths
  obtain ⟨last, at_last, last_value⟩ := prepared.gathered.total
  rw [List.getLast?_eq_getElem?, lengths, Nat.add_sub_cancel, ← rows] at at_last
  have bounded := table_ordered prepared.gathered (by omega) at_next at_last
  have brackets : Bisection.Brackets (pred args off) (0, args.tensorCount.toNat) := by
    refine ⟨by dsimp only; omega, ?_, ?_⟩
    · exact (pred_iff (Nat.zero_le _) off prepared.gathered.first).mpr (Nat.zero_le _)
    · rw [← Bool.not_eq_true, pred_iff (Nat.le_refl _) off at_last]
      omega
  obtain ⟨⟨_, hit, miss⟩, _, high, width⟩ :=
    Bisection.halvings_spec (pred args off) 10 _ brackets (by dsimp only; omega)
  have found : (Bisection.halvings (pred args off) 10 (0, args.tensorCount.toNat)).1 =
      findTensor args off := rfl
  rw [width, found] at high miss
  rw [found] at hit
  dsimp only at high
  have lower_inside : findTensor args off < args.gather.prefixSums.length := by omega
  have upper_inside : findTensor args off + 1 < args.gather.prefixSums.length := by omega
  have lower := List.getElem?_eq_getElem lower_inside
  have upper := List.getElem?_eq_getElem upper_inside
  rw [pred_iff (by omega) off lower] at hit
  rw [← Bool.not_eq_true, pred_iff (by omega) off upper] at miss
  -- the bracket around `off` is one row wide, and the rows are ordered
  rcases Nat.lt_trichotomy (findTensor args off) j with below | same | above
  · have := table_ordered prepared.gathered (by omega) upper at_start
    omega
  · exact same
  · have := table_ordered prepared.gathered (by omega) at_next lower
    omega

theorem gather_step_advances (state off : UInt64) (here : off.toNat = state.toNat % chunks.length) :
    gatherStep memory args state off = advance chunks.length (chunkReader chunks) state := by
  have small := prepared.small
  have inside : off.toNat < chunks.length := by
    rw [here]
    exact Nat.mod_lt _ (List.length_pos_iff.mpr prepared.nonempty)
  obtain ⟨j, start, next, base, chunk, present, covers⟩ :=
    prepared.gathered.covered off.toNat inside
  have row := (List.getElem?_eq_some_iff.mp covers.at_base).1
  have reached := covers.reached
  have shared : sharedPrefix args j = some start := by
    rw [sharedPrefix, prepared.rows, if_pos (by omega), covers.at_start]
  have offset : ((off - start.toUInt64) * 4).toNat = 4 * (off.toNat - start.toNat) := by
    have apart : (off - start.toUInt64).toNat = off.toNat - start.toNat := by
      rw [UInt64.toNat_sub_of_le _ _ (by
        rw [UInt64.le_iff_toNat_le, UInt32.toNat_toUInt64]
        exact reached), UInt32.toNat_toUInt64]
    have four : (4 : UInt64).toNat = 4 := rfl
    rw [UInt64.toNat_mul, apart, four]
    omega
  have address : base.toNat + 8 * (4 * (off.toNat - start.toNat)) =
      base.toNat + 32 * (off.toNat - start.toNat) := by omega
  simp only [gatherStep, find_tensor_covers prepared off covers, shared, covers.at_base, offset,
    address, gathered_transition covers.holds, Option.bind_eq_bind, Option.bind_some]
  rw [advance, ← here, chunkReader, present]
  rfl

theorem reduced_offset (state : UInt64) :
    (fastMod state args.magic args.shift args.nTotalChunks).toNat =
      state.toNat % chunks.length := by
  rw [prepared.reduces, UInt64.toNat_mod, prepared.total]

theorem kernel_loop_walks (k : Nat) (state off : UInt64)
    (here : off.toNat = state.toNat % chunks.length) :
    kernelLoop memory args k state off =
      walkLoop chunks.length (chunkReader chunks) k state (state.toNat % chunks.length) := by
  induction k generalizing state off with
  | zero => rfl
  | succ k ih =>
      rw [kernelLoop, walkLoop, gather_step_advances prepared state off here, advance]
      cases chunkReader chunks (state.toNat % chunks.length) with
      | none => rfl
      | some chunk => exact ih (transition state chunk) _ (reduced_offset prepared _)

theorem kernel_passes_meets {prePowHash target : Bytes 32} (hash : args.p = words4 prePowHash)
    (bound : args.t = words4 target) (nonce : UInt64) :
    ∃ passes, kernelPasses memory args nonce = some passes ∧
      (passes = true ↔ Meets chunks prePowHash args.time target args.k.toNat nonce) := by
  obtain ⟨final, walked⟩ := walk_final_present prepared.nonempty
    (pomBlockSeed prePowHash args.time nonce) args.k.toNat
  have looped := kernel_loop_walks prepared args.k.toNat
    (pomBlockSeed prePowHash args.time nonce) _ (reduced_offset prepared _)
  rw [← walkFinal, walked] at looped
  refine ⟨leLeq (pomPowValue final prePowHash) target, ?_, ?_⟩
  · simp only [kernelPasses, hash, bound, seed_fold_eq, looped, pow_fold_eq, le_leq_words,
      Option.bind_eq_bind, Option.bind_some]
  · constructor
    · exact fun passes => ⟨final, walked, passes⟩
    · rintro ⟨other, reached, passes⟩
      rw [walked] at reached
      rwa [← Option.some.inj reached] at passes

end Launch

/-! The winner of a launch. -/

section Winner
variable (memory : DeviceMemory) (args : KernelArgs)

/-- The thread is in range and its nonce passes. -/
def Candidate (thread : Nat × Nat) (nonce : UInt64) : Prop :=
  gid thread < args.nNonces ∧ nonce = args.nonceBase + gid thread ∧
    kernelPasses memory args nonce = some true

/-- What the atomics of `order` make of `winner`. -/
structure Lowered (order : List (Nat × Nat)) (winner after : UInt64) : Prop where
  below : after ≤ winner
  source : after = winner ∨ ∃ thread ∈ order, Candidate memory args thread after
  least : ∀ thread ∈ order, ∀ nonce, Candidate memory args thread nonce → after ≤ nonce

variable {memory args}
variable (runs : ∀ nonce, ∃ passes, kernelPasses memory args nonce = some passes)
include runs

theorem pom_mine_lowers (winner : UInt64) (thread : Nat × Nat) :
    ∃ after, pomMine memory args winner thread = some after ∧
      Lowered memory args [thread] winner after := by
  by_cases outside : args.nNonces ≤ gid thread
  · refine ⟨winner, if_pos outside, UInt64.le_refl _, Or.inl rfl, ?_⟩
    intro other member nonce candidate
    obtain rfl := List.mem_singleton.mp member
    exact absurd candidate.1 (UInt64.not_lt.mpr outside)
  · obtain ⟨passes, tested⟩ := runs (args.nonceBase + gid thread)
    have stepped : pomMine memory args winner thread =
        some (if passes ∧ args.nonceBase + gid thread < winner then args.nonceBase + gid thread
          else winner) := by
      simp only [pomMine, if_neg outside, tested, Option.bind_eq_bind, Option.bind_some]
    refine ⟨_, stepped, ?_⟩
    by_cases better : passes ∧ args.nonceBase + gid thread < winner
    · rw [if_pos better]
      refine ⟨UInt64.le_of_lt better.2,
        Or.inr ⟨thread, by simp, UInt64.not_le.mp outside, rfl, by rw [tested, better.1]⟩, ?_⟩
      intro other member nonce candidate
      obtain rfl := List.mem_singleton.mp member
      exact candidate.2.1 ▸ UInt64.le_refl _
    · rw [if_neg better]
      refine ⟨UInt64.le_refl _, Or.inl rfl, ?_⟩
      rintro other member nonce ⟨_, own, hit⟩
      obtain rfl := List.mem_singleton.mp member
      rw [own, tested] at hit
      rw [own]
      exact UInt64.not_lt.mp fun lower => better ⟨Option.some.inj hit, lower⟩

theorem launch_lowers (order : List (Nat × Nat)) (winner : UInt64) :
    ∃ after, order.foldlM (pomMine memory args) winner = some after ∧
      Lowered memory args order winner after := by
  induction order generalizing winner with
  | nil => exact ⟨winner, rfl, UInt64.le_refl _, Or.inl rfl, by simp⟩
  | cons thread order ih =>
      obtain ⟨first, stepped, lowered⟩ := pom_mine_lowers runs winner thread
      obtain ⟨after, launched, rest⟩ := ih first
      refine ⟨after, by rw [List.foldlM_cons, stepped]; exact launched,
        UInt64.le_trans rest.below lowered.below, ?_, ?_⟩
      · rcases rest.source with same | ⟨other, member, candidate⟩
        · rcases lowered.source with start | ⟨other, member, candidate⟩
          · exact Or.inl (same.trans start)
          · obtain rfl := List.mem_singleton.mp member
            exact Or.inr ⟨other, by simp, same ▸ candidate⟩
        · exact Or.inr ⟨other, List.mem_cons_of_mem _ member, candidate⟩
      · intro other member nonce candidate
        rcases List.mem_cons.mp member with rfl | later
        · exact UInt64.le_trans rest.below (lowered.least other (by simp) nonce candidate)
        · exact rest.least other later nonce candidate

end Winner

theorem grid_of_eq {batch : UInt64} (fits : (batch.toNat + 127) / 128 < 2 ^ 32) :
    (gridOf batch).toNat = (batch.toNat + 127) / 128 := by
  have rounding : (127 : UInt64).toNat = 127 := rfl
  have width : (128 : UInt64).toNat = 128 := rfl
  have sum : (batch + 127).toNat = batch.toNat + 127 := by
    rw [UInt64.toNat_add]
    omega
  rw [gridOf, UInt64.toNat_toUInt32, UInt64.toNat_div, sum, width]
  exact Nat.mod_eq_of_lt fits

theorem thread_of_nonce {batch i : UInt64} (fits : (batch.toNat + 127) / 128 < 2 ^ 32)
    (inside : i < batch) :
    ∃ thread ∈ threads (gridOf batch).toNat, gid thread = i := by
  rw [UInt64.lt_iff_toNat_lt] at inside
  refine ⟨(i.toNat / 128, i.toNat % 128), ?_, UInt64.toNat_inj.mp ?_⟩
  · rw [threads, List.mem_flatMap]
    refine ⟨i.toNat / 128, ?_, List.mem_map.mpr ⟨i.toNat % 128, ?_, rfl⟩⟩
    · rw [List.mem_range, grid_of_eq fits]
      omega
    · exact List.mem_range.mpr (Nat.mod_lt _ (by decide))
  · have small := i.toNat_lt
    rw [gid, UInt64.toNat_add, UInt64.toNat_mul, UInt64.toNat_ofNat', UInt64.toNat_ofNat',
      UInt64.toNat_ofNat', blockDim]
    omega

/-! The host. -/

def InBatch (start batch nonce : UInt64) : Prop := ∃ i < batch, nonce = start + i

/-- The lowest nonce of the batch below the sentinel that meets the target. -/
def Reported (chunks : List (Bytes 32)) (prePowHash : Bytes 32) (timestamp : UInt64)
    (target : Bytes 32) (start batch : UInt64) : Option UInt64 → Prop
  | some winner => winner ≠ sentinel ∧ InBatch start batch winner ∧
      Meets chunks prePowHash timestamp target pomWalkSteps.toNat winner ∧
      ∀ nonce, InBatch start batch nonce →
        Meets chunks prePowHash timestamp target pomWalkSteps.toNat nonce → winner ≤ nonce
  | none => ∀ nonce, InBatch start batch nonce → nonce ≠ sentinel →
      ¬ Meets chunks prePowHash timestamp target pomWalkSteps.toNat nonce

theorem below_sentinel (nonce : UInt64) : nonce ≤ sentinel := by
  have small := nonce.toNat_lt
  have top : sentinel.toNat = 2 ^ 64 - 1 := rfl
  rw [UInt64.le_iff_toNat_le]
  omega

theorem load_gathers {memory : DeviceMemory} {devicePtr : Tensor → UInt64} {gguf : Gguf}
    (resident : Resident memory devicePtr gguf) {chunks : List (Bytes 32)}
    (layout : canonicalChunks gguf = some chunks) (small : chunks.length < 2 ^ 32)
    {miner : PomGpuMiner} (loaded : load devicePtr gguf = .ok miner) :
    Gathered memory miner.gather chunks ∧
      miner.tensorCount = UInt32.ofNat miner.gather.bases.length ∧
      miner.nTotalChunks.toNat = chunks.length ∧ chunks ≠ [] := by
  obtain ⟨gather, ran, gathered⟩ := gather_run memory devicePtr gguf.sorted
    (fun tensor member => resident tensor (List.mem_mergeSort.mp member)) chunks layout small
  obtain ⟨last, at_last, last_value⟩ := gathered.total
  simp only [load, ran, bind, Except.bind, at_last, Option.getD_some] at loaded
  by_cases none_left : last = 0
  · rw [if_pos none_left] at loaded
    contradiction
  · rw [if_neg none_left] at loaded
    obtain rfl := Except.ok.inj loaded
    refine ⟨gathered, rfl, by rw [UInt32.toNat_toUInt64, last_value], ?_⟩
    rintro rfl
    exact none_left (UInt32.toNat_inj.mp last_value)

/-- The kernel decides every nonce as the host walk does, and a launch reports
the lowest passing nonce of its batch, in whatever order its threads finish. -/
structure AgreesWithHost (memory : DeviceMemory) (miner : PomGpuMiner) (chunks : List (Bytes 32))
    (prePowHash : Bytes 32) (timestamp : UInt64) (target : Bytes 32) (start batch : UInt64) :
    Prop where
  decides : ∀ nonce, ∃ passes,
    kernelPasses memory (kernelArgs miner prePowHash timestamp target start batch) nonce =
      some passes ∧
    (passes = true ↔ Meets chunks prePowHash timestamp target pomWalkSteps.toNat nonce)
  refused : batch = 0 → ∀ order,
    mine miner memory order prePowHash timestamp target start batch = .error .emptyGrid
  reports : batch ≠ 0 → ∀ order, order.Perm (threads (gridOf batch).toNat) → ∃ result,
    mine miner memory order prePowHash timestamp target start batch = .ok result ∧
    Reported chunks prePowHash timestamp target start batch result

theorem gpu_walk_agrees (memory : DeviceMemory) (devicePtr : Tensor → UInt64) (gguf : Gguf)
    (resident : Resident memory devicePtr gguf) (chunks : List (Bytes 32))
    (layout : canonicalChunks gguf = some chunks) (small : chunks.length < 2 ^ 32)
    (miner : PomGpuMiner) (loaded : load devicePtr gguf = .ok miner)
    (few : miner.gather.bases.length ≤ 1024)
    (reduces : ∀ a, fastMod a (modMagic miner.nTotalChunks).found.magic
      (modMagic miner.nTotalChunks).found.shift miner.nTotalChunks = a % miner.nTotalChunks)
    (prePowHash : Bytes 32) (timestamp : UInt64) (target : Bytes 32) (start batch : UInt64)
    (fits : (batch.toNat + 127) / 128 < 2 ^ 32) :
    AgreesWithHost memory miner chunks prePowHash timestamp target start batch := by
  obtain ⟨gathered, rows, total, nonempty⟩ := load_gathers resident layout small loaded
  have prepared : Prepared memory (kernelArgs miner prePowHash timestamp target start batch)
      chunks := by
    refine ⟨gathered, ?_, few, nonempty, small, total, reduces⟩
    rw [show (kernelArgs miner prePowHash timestamp target start batch).tensorCount =
      UInt32.ofNat miner.gather.bases.length from rows, UInt32.toNat_ofNat']
    exact Nat.mod_eq_of_lt (Nat.lt_of_le_of_lt few (by decide))
  have passes := kernel_passes_meets prepared rfl rfl
  refine ⟨passes, ?_, ?_⟩
  · rintro rfl order
    rfl
  · intro some_nonce order every
    have grid : gridOf batch ≠ 0 := by
      intro empty
      have count := grid_of_eq fits
      have zero : (0 : UInt32).toNat = 0 := rfl
      rw [empty, zero] at count
      exact some_nonce (UInt64.toNat_inj.mp (by
        have zero : (0 : UInt64).toNat = 0 := rfl
        omega))
    obtain ⟨after, launched, lowered⟩ := launch_lowers
      (fun nonce => (passes nonce).imp fun _ tested => tested.1) order sentinel
    have complete : ∀ nonce, InBatch start batch nonce →
        Meets chunks prePowHash timestamp target pomWalkSteps.toNat nonce → after ≤ nonce := by
      rintro nonce ⟨i, inside, rfl⟩ meets
      obtain ⟨thread, member, rfl⟩ := thread_of_nonce fits inside
      obtain ⟨hit, tested, decides⟩ := passes (start + gid thread)
      exact lowered.least thread (every.mem_iff.mpr member) _
        ⟨inside, rfl, by rw [tested, decides.mpr meets]⟩
    refine ⟨_, by rw [mine, if_neg grid, launched], ?_⟩
    -- a winning sentinel nonce cannot be told from no winner
    by_cases untouched : after = sentinel
    · rw [if_pos untouched]
      intro nonce inside other meets
      have low := complete nonce inside meets
      rw [untouched] at low
      exact other (UInt64.le_antisymm (below_sentinel nonce) low)
    · rw [if_neg untouched]
      obtain ⟨thread, _, inside, own, hit⟩ := lowered.source.resolve_left untouched
      obtain ⟨_, tested, decides⟩ := passes after
      rw [tested] at hit
      exact ⟨untouched, ⟨gid thread, inside, own⟩, decides.mp (Option.some.inj hit), complete⟩

def threeChunks : List (Bytes 32) := [numbered 1, numbered 2, numbered 3]

def threeMemory : DeviceMemory := fun address => (concat threeChunks)[address]?.getD 0

def threeMiner : PomGpuMiner where
  gather := { bases := [0], prefixSums := [0, 3] }
  tensorCount := 1
  nTotalChunks := 3

theorem three_resident : Resident threeMemory (fun _ => 0) (ggufOfChunks threeChunks) := by
  intro tensor member bytes loaded i inside
  obtain rfl := List.mem_singleton.mp member
  obtain rfl := Option.some.inj loaded
  have zero : (0 : UInt64).toNat = 0 := rfl
  rw [threeMemory, zero, Nat.zero_add, List.getElem?_eq_getElem inside, Option.getD_some]

theorem three_loaded : load (fun _ => 0) (ggufOfChunks threeChunks) = .ok threeMiner := by
  have length : (concat threeChunks).length = 96 := by rw [concat_length]; rfl
  have sorted : (ggufOfChunks threeChunks).sorted =
      [⟨"weights", 0, some (concat threeChunks)⟩] := by
    simp [Gguf.sorted, ggufOfChunks]
  have gathered : gatherTensor (fun _ => 0) { bases := [], prefixSums := [0] }
      ⟨"weights", 0, some (concat threeChunks)⟩ =
        .ok { bases := [0], prefixSums := [0, 3] } := by
    simp only [gatherTensor, length]
    rfl
  simp only [load, sorted, List.foldlM_cons, gathered]
  rfl

theorem gpu_walk_agrees_three :
    AgreesWithHost threeMemory threeMiner threeChunks (numbered 9) 123 (numbered 255) 0 1000 :=
  have reduces : ReducesExactly threeMiner.nTotalChunks :=
    (reduces_iff 3 (by decide)).mpr (by decide)
  gpu_walk_agrees threeMemory (fun _ => 0) (ggufOfChunks threeChunks) three_resident threeChunks
    (of_chunks_layout _) (by decide) threeMiner three_loaded (by decide) reduces.1
    (numbered 9) 123 (numbered 255) 0 1000 (by decide)

end KeryxMiner.GpuWalk
