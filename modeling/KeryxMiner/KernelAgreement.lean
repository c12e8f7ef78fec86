import KeryxMiner.GpuWalk
import KeryxMiner.KeccakKernels
import KeryxMiner.KernelSums

/-!
The `heavy_hash` kernels compute `calculate_pow`. Their sums are the host's; the rest of
the hash is the same words in other places.
-/

namespace KeryxMiner.KernelAgreement

open ByteCodec HashKernels HeavyHash KernelSums PackedDots PomKernel PomPrimitives

/-! The bytes of the product. -/

theorem uint16_high {sum : UInt16} {total : Nat} (same : sum.toNat = total) :
    ((sum >>> 10) <<< 4).toUInt8 = UInt8.ofNat (16 * (total / 1024)) := by
  apply UInt8.toNat_inj.mp
  simp only [UInt16.toNat_toUInt8, UInt16.toNat_shiftLeft, UInt16.toNat_shiftRight, same,
    UInt8.toNat_ofNat', Nat.shiftLeft_eq, Nat.shiftRight_eq_div_pow]
  change total / 1024 * 16 % 65536 % 256 = _
  omega

theorem uint16_low {sum : UInt16} {total : Nat} (same : sum.toNat = total) :
    (sum >>> 10).toUInt8 = UInt8.ofNat (total / 1024) := by
  apply UInt8.toNat_inj.mp
  simp only [UInt16.toNat_toUInt8, UInt16.toNat_shiftRight, same, UInt8.toNat_ofNat',
    Nat.shiftRight_eq_div_pow]
  rfl

theorem uint32_high {product : UInt32} {total : Nat} (same : product.toNat = total) :
    ((product >>> 10) <<< 4).toUInt8 = UInt8.ofNat (16 * (total / 1024)) := by
  apply UInt8.toNat_inj.mp
  simp only [UInt32.toNat_toUInt8, UInt32.toNat_shiftLeft, UInt32.toNat_shiftRight, same,
    UInt8.toNat_ofNat', Nat.shiftLeft_eq, Nat.shiftRight_eq_div_pow]
  change total / 1024 * 16 % 4294967296 % 256 = _
  omega

theorem uint32_low {product : UInt32} {total : Nat} (same : product.toNat = total) :
    (product >>> 10).toUInt8 = UInt8.ofNat (total / 1024) := by
  apply UInt8.toNat_inj.mp
  simp only [UInt32.toNat_toUInt8, UInt32.toNat_shiftRight, same, UInt8.toNat_ofNat',
    Nat.shiftRight_eq_div_pow]
  rfl

theorem masked_each : ∀ n : Fin 256, n.val &&& 0xF0 = 16 * (n.val / 16) := by
  decide +kernel

theorem uint32_masked {product : UInt32} {total : Nat} (same : product.toNat = total)
    (small : total ≤ 14400) :
    ((product >>> 6) &&& 0xF0).toUInt8 = UInt8.ofNat (16 * (total / 1024)) := by
  -- the four bits are left in the high half instead of being shifted back
  have masked : total / 64 &&& 0xF0 = 16 * (total / 64 / 16) :=
    masked_each ⟨total / 64, by omega⟩
  apply UInt8.toNat_inj.mp
  simp only [UInt32.toNat_toUInt8, UInt32.toNat_and, UInt32.toNat_shiftRight, same,
    UInt8.toNat_ofNat', Nat.shiftRight_eq_div_pow]
  change (total / 64 &&& 0xF0) % 256 = _
  rw [masked]
  omega

/-- The entries 1, 2, 4 and 6 of the table. -/
theorem lop3_or_xor (a b c : UInt32) : Cuda.lop3 0x56 a b c = (a ||| b) ^^^ c := by
  have unfolded : Cuda.lop3 0x56 a b c =
      0 ||| (~~~a &&& ~~~b &&& c) ||| (~~~a &&& b &&& ~~~c) ||| (a &&& ~~~b &&& ~~~c) |||
        (a &&& b &&& ~~~c) := rfl
  rw [unfolded]
  apply UInt32.toBitVec_inj.mp
  apply BitVec.eq_of_getLsbD_eq
  intro i bound
  simp [bound]
  cases a.toBitVec[i] <;> cases b.toBitVec[i] <;> cases c.toBitVec[i] <;> rfl

/-- Bits 10 and up of two sums, in one byte. -/
def combined (sum1 sum2 : Nat) : UInt8 :=
  UInt8.ofNat (16 * (sum1 / 1024)) ||| UInt8.ofNat (sum2 / 1024)

theorem cuda_mix_byte (cudaArch : Nat) {product1 product2 : UInt32} {sum1 sum2 : Nat}
    (first : product1.toNat = sum1) (second : product2.toNat = sum2) (small : sum1 ≤ 14400)
    (byte : UInt8) :
    Cuda.mixByte cudaArch product1 product2 byte = combined sum1 sum2 ^^^ byte := by
  unfold Cuda.mixByte
  dsimp only
  split
  · rw [uint32_masked first small, uint32_low second, UInt8.xor_comm]
    rfl
  · rw [lop3_or_xor, UInt32.toUInt8_xor, UInt32.toUInt8_or, uint32_masked first small,
      uint32_low second, UInt8.toUInt8_toUInt32]
    rfl

theorem open_cl_mix_byte {product1 product2 : UInt32} {sum1 sum2 : Nat}
    (first : product1.toNat = sum1) (second : product2.toNat = sum2) (byte : UInt8) :
    OpenCl.mixByte product1 product2 byte = combined sum1 sum2 ^^^ byte := by
  unfold OpenCl.mixByte
  dsimp only
  rw [UInt32.toUInt8_or, uint32_high first, UInt8.toUInt8_toUInt32, uint32_low second,
    UInt8.xor_comm]
  rfl

theorem host_product_byte (matrix : Matrix) (hash : Bytes 32) (i : Nat) :
    HeavyHash.productByte matrix hash i =
      combined (dot (rowAmount matrix (2 * i)) (vecAmount hash) 64)
        (dot (rowAmount matrix (2 * i + 1)) (vecAmount hash) 64) := by
  unfold HeavyHash.productByte
  dsimp only
  rw [uint16_high (row_sum_exact matrix hash (2 * i) (Nat.le_refl 64)),
    uint16_low (row_sum_exact matrix hash (2 * i + 1) (Nat.le_refl 64))]
  rfl

theorem cuda_product_byte (cudaArch : Nat) (hashHeader : Bytes 72) (matrix : Matrix)
    (target : Words) (hash : Bytes 32) (rowId : Nat) :
    Cuda.productByte cudaArch (Cuda.loadBlockConstants hashHeader matrix target) hash rowId =
      HeavyHash.productByte matrix hash rowId ^^^ hash.items.getD rowId 0 := by
  have whole (i : Nat) := cuda_exact matrix hash i cudaArch (Nat.le_refl 16)
  have small := dot_small matrix hash (2 * rowId) (Nat.le_refl 64)
  rw [host_product_byte]
  exact cuda_mix_byte cudaArch (whole (2 * rowId)) (whole (2 * rowId + 1)) small _

theorem open_cl_product_byte (path : OpenCl.Amul) (hashHeader : Bytes 72) (matrix : Matrix)
    (target : Words) (hash : Bytes 32) (rowId : Nat) :
    OpenCl.productByte path (OpenCl.loadBlockConstants path.packed hashHeader matrix target) hash
        rowId = HeavyHash.productByte matrix hash rowId ^^^ hash.items.getD rowId 0 := by
  have bytes : 128 * rowId = 64 * (2 * rowId) := by omega
  have halves : 64 * rowId = 32 * (2 * rowId) := by omega
  have dots (i : Nat) := dp4a_exact matrix hash i (Nat.le_refl 16)
  rw [host_product_byte]
  unfold OpenCl.productByte
  simp only [bytes, halves]
  cases path with
  | dp4a => exact open_cl_mix_byte (dots (2 * rowId)) (dots (2 * rowId + 1)) _
  | vDot4 => exact open_cl_mix_byte (dots (2 * rowId)) (dots (2 * rowId + 1)) _
  | ushort4 =>
      exact open_cl_mix_byte (ushort_exact matrix hash (2 * rowId))
        (ushort_exact matrix hash (2 * rowId + 1)) _
  | vDot8 =>
      exact open_cl_mix_byte (v_dot8_exact matrix hash (2 * rowId) (Nat.le_refl 8))
        (v_dot8_exact matrix hash (2 * rowId + 1) (Nat.le_refl 8)) _
  | nibbles =>
      exact open_cl_mix_byte (nibbles_exact matrix hash (2 * rowId) (Nat.le_refl 8))
        (nibbles_exact matrix hash (2 * rowId + 1) (Nat.le_refl 8)) _

/-! The wave mix. -/

theorem wave_round_eq (w : Words4) (r : Nat) : waveMixHashRound w r = waveRound w r := by
  have first (word : UInt64) : (word <<< 17) ||| (word >>> 47) = rotateLeft word 17 :=
    rotate_shifts word (by decide) (by decide)
  have second (word : UInt64) : (word <<< 31) ||| (word >>> 33) = rotateLeft word 31 :=
    rotate_shifts word (by decide) (by decide)
  have third (word : UInt64) : (word <<< 47) ||| (word >>> 17) = rotateLeft word 47 :=
    rotate_shifts word (by decide) (by decide)
  have fourth (word : UInt64) : (word <<< 13) ||| (word >>> 51) = rotateLeft word 13 :=
    rotate_shifts word (by decide) (by decide)
  simp only [waveMixHashRound, first, second, third, fourth]
  rfl

theorem wave_mix_eq (product : Bytes 32) :
    leWords (waveMix product) = Words4.array (waveMixHash product) := by
  rw [waveMix, le_words_bytes, waveMixHash]
  have rounds : waveMixHashRound = waveRound := funext fun w => funext (wave_round_eq w)
  rw [rounds]

/-! The sponges. -/

theorem cuda_pow_table : ∀ i : Fin 25,
    loadWord (bytesMemory Cuda.powP) (8 * i.val) = powInitialState.get i := by
  decide +kernel

theorem cuda_heavy_table : ∀ i : Fin 25,
    loadWord (bytesMemory Cuda.heavyP) (8 * i.val) = heavyInitialState.get i := by
  decide +kernel

theorem open_cl_pow_table : ∀ i : Fin 25, OpenCl.powP.getD i.val 0 = powInitialState.get i := by
  decide +kernel

theorem open_cl_heavy_table : ∀ i : Fin 25,
    OpenCl.heavyP.getD i.val 0 = heavyInitialState.get i := by
  decide +kernel

theorem header_word_loaded (header : Bytes 72) {i : Nat} (inside : i < 9) :
    loadWord (bytesMemory header.items) (8 * i) = headerWord header i := by
  have slice : (List.range 8).map (fun b => bytesMemory header.items (8 * i + b)) =
      (header.items.drop (8 * i)).take 8 := by
    apply List.ext_getElem
    · simp [header.sized]
      omega
    · intro b _ within
      have place : 8 * i + b < header.items.length := by
        rw [List.length_take, List.length_drop] at within
        omega
      rw [List.getElem_map, List.getElem_range, List.getElem_take, List.getElem_drop, bytesMemory,
        List.getD_eq_getElem?_getD, List.getElem?_eq_getElem place, Option.getD_some]
  rw [loadWord, slice, headerWord]

/-- What the first permutation is of. -/
theorem finalize_eq (f1600 : Lanes → Lanes) {hasher : Lanes} {header : Bytes 72}
    (contains : Contains hasher header) (nonce : UInt64) :
    PowHasher.finalizeWithNonce f1600 hasher nonce = squeeze (f1600
      (absorb powInitialState ((List.range 9).map (headerWord header) ++ [nonce]))) := by
  rw [PowHasher.finalizeWithNonce, absorb_concat _ _ _ (by simp), contains]
  simp

theorem words_limbs (words : Words) : Words4.array (limbs words) = words := by
  obtain ⟨a, b, c, d, rfl⟩ := words_four words
  rfl

theorem calculate_pow_eq (f1600 : Lanes → Lanes) (state : State) (nonce : UInt64) :
    calculatePow f1600 state nonce =
      let header := (List.range 9).map (headerWord state.powHashHeader)
      let hash := squeeze (f1600 (absorb powInitialState (header ++ [nonce])))
      let mixed := Words4.array (waveMixHash (product state.matrix (wordsToBytes hash)))
      squeeze (f1600 (absorb heavyInitialState mixed.items)) := by
  rw [calculatePow, finalize_eq f1600 state.contains, heavyHash, HeavyHasher.hash, wave_mix_eq]

/-! CUDA. -/

theorem cuda_pow_lanes (header : Bytes 72) (matrix : Matrix) (target : Words) (nonce : UInt64) :
    Cuda.powLanes (Cuda.loadBlockConstants header matrix target) nonce =
      absorb powInitialState ((List.range 9).map (headerWord header) ++ [nonce]) := by
  apply Vector.ext
  intro i bound
  have table : loadWord (bytesMemory Cuda.powP) (8 * i) = powInitialState[i] :=
    cuda_pow_table ⟨i, bound⟩
  rw [Cuda.powLanes, Vector.getElem_ofFn, absorb_get]
  rcases Nat.lt_trichotomy i 9 with before | last | after
  · -- a word of the header
    have loaded : loadWord (Cuda.loadBlockConstants header matrix target).hashHeader (8 * i) =
        headerWord header i := header_word_loaded header before
    rw [if_pos before, loaded, table, List.getElem?_append_left (by simpa using before), List.getElem?_map,
      List.getElem?_range before, Option.map_some]
  · -- the nonce
    subst last
    rw [if_neg (Nat.lt_irrefl 9), if_pos rfl, table, List.getElem?_append_right (by simp)]
    simp only [List.length_map, List.length_range, Nat.sub_self, List.getElem?_cons_zero]
  · -- the padding and the capacity, copied
    rw [if_neg (Nat.not_lt_of_gt after), if_neg (Nat.ne_of_gt after), table,
      List.getElem?_eq_none (by simp; omega)]

theorem cuda_heavy_lanes (hash : Hash) :
    Cuda.heavyLanes hash = absorb heavyInitialState hash.items := by
  apply Vector.ext
  intro i bound
  have table : loadWord (bytesMemory Cuda.heavyP) (8 * i) = heavyInitialState[i] :=
    cuda_heavy_table ⟨i, bound⟩
  have four := hash.sized
  simp only [Cuda.heavyLanes, Vector.getElem_ofFn, absorb_get, table]
  split
  · rw [List.getD_eq_getElem?_getD, List.getElem?_eq_getElem (by omega), UInt64.xor_comm,
      Option.getD_some]
  · rw [List.getElem?_eq_none (by omega)]

theorem cuda_product (cudaArch : Nat) (header : Bytes 72) (matrix : Matrix) (target : Words)
    (hash : Bytes 32) :
    Cuda.product cudaArch (Cuda.loadBlockConstants header matrix target) hash =
      product matrix hash :=
  FixedArray.ext (List.map_congr_left fun i _ =>
    cuda_product_byte cudaArch header matrix target hash i)

theorem cuda_heavy_hash (f1600 : Lanes → Lanes) (cudaArch : Nat) (state : State)
    (nonce : UInt64) :
    Words4.array (Cuda.heavyHash cudaArch f1600
      (Cuda.loadBlockConstants state.powHashHeader state.matrix state.target) nonce) =
      calculatePow f1600 state nonce := by
  simp only [Cuda.heavyHash, words_limbs, cuda_pow_lanes, cuda_product, cuda_heavy_lanes,
    calculate_pow_eq]

/-! OpenCL. -/

theorem open_cl_hash_lanes {initP : List UInt64} {table : Lanes}
    (same : ∀ i : Fin 25, initP.getD i.val 0 = table.get i) {input : List UInt64}
    (ten : input.length = 10) : OpenCl.hashLanes initP input = absorb table input := by
  apply Vector.ext
  intro i bound
  rw [OpenCl.hashLanes, Vector.getElem_ofFn, absorb_get, same ⟨i, bound⟩, ← ten,
    List.getD_eq_getElem?_getD]
  split
  · rename_i inside
    rw [List.getElem?_eq_getElem inside]
    rfl
  · rename_i outside
    rw [List.getElem?_eq_none (Nat.le_of_not_lt outside)]
    rfl

theorem open_cl_product (path : OpenCl.Amul) (header : Bytes 72) (matrix : Matrix)
    (target : Words) (hash : Bytes 32) :
    OpenCl.product path (OpenCl.loadBlockConstants path.packed header matrix target) hash =
      product matrix hash :=
  FixedArray.ext (List.map_congr_left fun i _ =>
    open_cl_product_byte path header matrix target hash i)

theorem open_cl_heavy_hash (f1600 : Lanes → Lanes) (path : OpenCl.Amul) (state : State)
    (nonce : UInt64) :
    Words4.array (OpenCl.heavyHash f1600 path (OpenCl.loadBlockConstants path.packed
      state.powHashHeader state.matrix state.target) nonce) = calculatePow f1600 state nonce := by
  have header : (List.range 9).map (fun i => loadWord (OpenCl.loadBlockConstants path.packed
      state.powHashHeader state.matrix state.target).hashHeader (8 * i)) =
        (List.range 9).map (headerWord state.powHashHeader) :=
    List.map_congr_left fun i member =>
      header_word_loaded state.powHashHeader (List.mem_range.mp member)
  have six (words : Words) : (words.items ++ List.replicate 6 0).length = 10 := by
    rw [List.length_append, words.sized, List.length_replicate]
  simp only [OpenCl.heavyHash, OpenCl.hash, words_limbs, open_cl_product, header,
    open_cl_hash_lanes open_cl_heavy_table (six _), absorb_zeros, calculate_pow_eq]
  rw [open_cl_hash_lanes open_cl_pow_table (by simp)]

/-! The comparison with the target. -/

theorem iterator_lt (a b : UInt64) (rest others : List UInt64) :
    iteratorCmp (a :: rest) (b :: others) = .lt ↔
      if a ≠ b then a < b else iteratorCmp rest others = .lt := by
  have compared : compare a b = if a < b then .lt else if a = b then .eq else .gt := rfl
  rw [iteratorCmp, compared]
  by_cases same : a = b
  · rw [if_neg (same ▸ UInt64.lt_irrefl a), if_pos same, if_neg (fun distinct => distinct same)]
  · by_cases less : a < b
    · simp only [less, same, if_true, ne_eq, not_false_eq_true]
    · simp only [less, same, if_true, if_false, ne_eq, not_false_eq_true, reduceCtorEq]

theorem lt_u256_iff (x y : Words) :
    ltU256 (limbs x) (limbs y) = true ↔ uint256Cmp x y = .lt := by
  obtain ⟨x0, x1, x2, x3, rfl⟩ := words_four x
  obtain ⟨y0, y1, y2, y3, rfl⟩ := words_four y
  change _ ↔ iteratorCmp [x3, x2, x1, x0] [y3, y2, y1, y0] = .lt
  rw [iterator_lt, iterator_lt, iterator_lt, iterator_lt]
  simp only [ltU256, limbs, List.getD_cons_succ, List.getD_cons_zero]
  split
  · rw [decide_eq_true_iff]
  · split
    · rw [decide_eq_true_iff]
    · split
      · rw [decide_eq_true_iff]
      · rw [decide_eq_true_iff]
        split
        · rfl
        · rename_i same
          simp only [iteratorCmp, reduceCtorEq, iff_false]
          rw [not_not.mp same]
          exact UInt64.lt_irrefl y0

theorem accepted_passes {f1600 : Lanes → Lanes} {state : State} {nonce : UInt64} {hash : Words4}
    (same : Words4.array hash = calculatePow f1600 state nonce)
    (accepted : ltU256 hash (limbs state.target) = true) : checkPow f1600 state nonce = true := by
  have limbs_array : limbs (Words4.array hash) = hash := rfl
  rw [← limbs_array, lt_u256_iff, same] at accepted
  rw [checkPow, accepted]
  rfl

/-- Whatever the permutation, every kernel sums exactly, computes the host's value and
accepts no nonce that the host would not. -/
theorem heavy_hash_kernels_agree (f1600 : Lanes → Lanes) (state : State) (nonce : UInt64) :
    (∀ hash i, ExactSums state.matrix hash i) ∧
      (∀ cudaArch,
        let constants := Cuda.loadBlockConstants state.powHashHeader state.matrix state.target
        let hash := Cuda.heavyHash cudaArch f1600 constants nonce
        Words4.array hash = calculatePow f1600 state nonce ∧
          (ltU256 hash constants.target = true → checkPow f1600 state nonce = true)) ∧
      (∀ path : OpenCl.Amul,
        let constants := OpenCl.loadBlockConstants path.packed state.powHashHeader state.matrix
          state.target
        let hash := OpenCl.heavyHash f1600 path constants nonce
        Words4.array hash = calculatePow f1600 state nonce ∧
          (ltU256 hash constants.target = true → checkPow f1600 state nonce = true)) := by
  refine ⟨fun hash i => sums_exact state.matrix hash i, fun cudaArch => ?_, fun path => ?_⟩
  · have same := cuda_heavy_hash f1600 cudaArch state nonce
    exact ⟨same, accepted_passes same⟩
  · have same := open_cl_heavy_hash f1600 path state nonce
    exact ⟨same, accepted_passes same⟩

def drawnState : State :=
  State.new (randMatrixNoRankCheck fun row => 0x0123456789abcdef * UInt64.ofNat row)
    ⟨[0, 0, 0, 0x8000000000000000], rfl⟩ ⟨[1, 2, 3, 4], rfl⟩ 5

def firstRounds : List (Lanes → Lanes) :=
  [0, 1].map fun i a => KeccakKernels.roundBody (KeccakKernels.Cuda.eor3 false)
    (KeccakKernels.Cuda.bcax false) a i

/-- The first two rounds of the permutation. -/
def twoRounds (lanes : Lanes) : Lanes := firstRounds.foldl (fun lanes round => round lanes) lanes

theorem two_rounds_forced :
    twoRounds = fun lanes => InPlaceLoops.afterSteps firstRounds lanes id := by
  funext lanes
  rw [InPlaceLoops.after_steps]
  rfl

/-- With the two rounds the packed path accepts a nonce. -/
theorem packed_kernel_accepted :
    ltU256 (OpenCl.heavyHash twoRounds .vDot8 (OpenCl.loadBlockConstants true
      drawnState.powHashHeader drawnState.matrix drawnState.target) 1) (limbs drawnState.target) =
        true ∧ checkPow twoRounds drawnState 1 = true := by
  have value : ltU256 (limbs (calculatePow
      (fun lanes => InPlaceLoops.afterSteps firstRounds lanes id) drawnState 1))
        (limbs drawnState.target) = true := by
    decide +kernel
  rw [← two_rounds_forced, ← open_cl_heavy_hash twoRounds .vDot8] at value
  obtain ⟨_, _, openCl⟩ := heavy_hash_kernels_agree twoRounds drawnState 1
  exact ⟨value, (openCl .vDot8).2 value⟩

end KeryxMiner.KernelAgreement
