import KeryxMiner.KeccakDomains
import KeryxMiner.OpenClKeccak

/-!
The kernels with the permutations that they contain compute the proof of work.
-/

namespace KeryxMiner.KeccakAgreement

open ByteCodec HashKernels HeavyHash KeccakDomains KeccakKernels KernelAgreement OpenClKeccak
open PomKernel PomPrimitives

/-- `keccakf` of `keryx-opencl.cl` between the words of the host. -/
def openClF1600 {Word : Type} [Inhabited Word] (data : DataType Word) (lanes : Lanes) : Lanes :=
  (keccakf data (lanes.map data.asDataType)).map data.lane

theorem map_at {Item Image : Type} [Inhabited Item] [Inhabited Image] {n : Nat}
    (items : Vector Item n) (image : Item → Image) {k : Nat} (inside : k < n) :
    (items.map image)[k]! = image items[k]! := by
  rw [getElem!_pos (items.map image) k inside, getElem!_pos items k inside, Vector.getElem_map]

theorem lanes_state {Word : Type} [Inhabited Word] (data : DataType Word) (lanes : Lanes) :
    state data (lanes.map data.asDataType) = stateOf lanes := by
  funext x y
  rw [state, stateOf, map_at _ _ (by omega), data.data_lane]

/-- The lanes that are not computed are not squeezed. -/
theorem squeeze_open_cl {Word : Type} [Inhabited Word] (data : DataType Word) (lanes : Lanes) :
    squeeze (openClF1600 data lanes) = squeeze (f1600 lanes) := by
  have each (x : Fin 4) : (openClF1600 data lanes)[x.val]! = (f1600 lanes)[x.val]! := by
    have inside : x.val < 25 := by omega
    have row : (⟨x.val / 5, by omega⟩ : Fin 5) = 0 := Fin.ext (Nat.div_eq_of_lt (by omega))
    rw [openClF1600, map_at _ _ inside, keccakf_lane, lanes_state, lane_at (f1600 lanes) inside,
      f1600, state_of_lanes, row]
    rfl
  have squeezed (a : Lanes) : (squeeze a).items =
      List.ofFn fun x : Fin 4 => a[x.val]! := rfl
  apply FixedArray.ext
  rw [squeezed, squeezed, funext each]

/-- The OpenCL kernel hashes twice, and only what is squeezed goes on. -/
theorem open_cl_squeezed {first second : Lanes → Lanes}
    (same : ∀ lanes, squeeze (first lanes) = squeeze (second lanes)) (path : OpenCl.Amul)
    (constants : Constants) (nonce : UInt64) :
    OpenCl.heavyHash first path constants nonce = OpenCl.heavyHash second path constants nonce := by
  simp only [OpenCl.heavyHash, OpenCl.hash, same]

theorem f1600_cuda (device : Bool) : Cuda.keccakf device = f1600 := by
  funext lanes
  apply state_injective
  rw [Cuda.keccakf_state, f1600, state_of_lanes]

/-- A kernel's hash is the proof of work, and it accepts no nonce that the host would not. -/
def Computes (state : HeavyHash.State) (nonce : UInt64) (hash : Words4) : Prop :=
  wordsToBytes (Words4.array hash) = proofOfWork state.matrix state.powHashHeader nonce ∧
    (ltU256 hash (limbs state.target) = true → checkPow f1600 state nonce = true)

theorem computes_of_host {state : HeavyHash.State} {nonce : UInt64} {hash : Words4}
    (same : Words4.array hash = calculatePow f1600 state nonce) : Computes state nonce hash :=
  ⟨(congrArg wordsToBytes same).trans (proof_of_work_computed state nonce), accepted_passes same⟩

theorem kernels_compute (state : HeavyHash.State) (nonce : UInt64) :
    (∀ device cudaArch, Computes state nonce (HashKernels.Cuda.heavyHash cudaArch
      (Cuda.keccakf device)
      (HashKernels.Cuda.loadBlockConstants state.powHashHeader state.matrix state.target) nonce)) ∧
    ∀ path : OpenCl.Amul,
      let constants := OpenCl.loadBlockConstants path.packed state.powHashHeader state.matrix
        state.target
      Computes state nonce (OpenCl.heavyHash (openClF1600 ulong) path constants nonce) ∧
        Computes state nonce (OpenCl.heavyHash (openClF1600 uint2) path constants nonce) := by
  refine ⟨fun device cudaArch => ?_, fun path => ⟨?_, ?_⟩⟩
  · rw [f1600_cuda]
    exact computes_of_host (cuda_heavy_hash f1600 cudaArch state nonce)
  · rw [open_cl_squeezed (squeeze_open_cl ulong)]
    exact computes_of_host (open_cl_heavy_hash f1600 path state nonce)
  · rw [open_cl_squeezed (squeeze_open_cl uint2)]
    exact computes_of_host (open_cl_heavy_hash f1600 path state nonce)

end KeryxMiner.KeccakAgreement
