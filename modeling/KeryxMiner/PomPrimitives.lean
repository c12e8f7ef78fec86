import KeryxMiner.ByteCodec
import Mathlib.Data.List.Basic
import Mathlib.Data.List.Induction

/-!
The byte-exact primitives of `src/pom.rs`: the 64-bit mixer, the state
transition, chunk and hash words, the block seed, the proof-of-work value and
the little-endian comparison with a target.
-/

namespace KeryxMiner.PomPrimitives

open ByteCodec

/-- `[u64; CHUNK_WORDS]`, one 32-byte chunk. -/
abbrev Words := FixedArray UInt64 4

def mix64 (x : UInt64) : UInt64 :=
  let x := x ^^^ (x >>> 30)
  let x := x * 0xbf58476d1ce4e5b9
  let x := x ^^^ (x >>> 27)
  let x := x * 0x94d049bb133111eb
  x ^^^ (x >>> 31)

def transition (state : UInt64) (chunk : Words) : UInt64 :=
  mix64 (chunk.items.foldl (fun h w => h ^^^ w) state)

def leWords (bytes : Bytes 32) : Words :=
  ⟨(List.range 4).map fun i => fromLeBytes ((bytes.items.drop (i * 8)).take 8), by simp⟩

def chunkToWords (c : Bytes 32) : Words := leWords c

def pphWords (prePowHash : Bytes 32) : Words := leWords prePowHash

def wordsToBytes (w : Words) : Bytes 32 :=
  ⟨w.items.flatMap fun wi => (toLeBytes wi).items, by
    simp [List.length_flatMap, (toLeBytes _).sized, w.sized]⟩

def leLeqFrom : List (UInt8 × UInt8) → Bool
  | [] => true
  | (a, b) :: rest => if a < b then true else if b < a then false else leLeqFrom rest

def leLeq (a b : Bytes 32) : Bool :=
  leLeqFrom (a.items.zip b.items).reverse

/-- Initial walk state of a block candidate. -/
def pomBlockSeed (prePowHash : Bytes 32) (timestamp nonce : UInt64) : UInt64 :=
  let p := pphWords prePowHash
  let s := mix64 (nonce ^^^ 0x4B65727978531)
  let s := mix64 (s ^^^ timestamp)
  let s := mix64 (s ^^^ p.get 0)
  let s := mix64 (s ^^^ p.get 1)
  let s := mix64 (s ^^^ p.get 2)
  mix64 (s ^^^ p.get 3)

def pomPowValue (finalState : UInt64) (prePowHash : Bytes 32) : Bytes 32 :=
  let p := pphWords prePowHash
  let o0 := mix64 (finalState ^^^ p.get 0 ^^^ 0x9E3779B97F4A7C15)
  let o1 := mix64 (o0 ^^^ p.get 1 ^^^ 0xC2B2AE3D27D4EB4F)
  let o2 := mix64 (o1 ^^^ p.get 2 ^^^ 0x165667B19E3779F9)
  let o3 := mix64 (o2 ^^^ p.get 3 ^^^ 0xD6E8FEB86659FD93)
  wordsToBytes ⟨[o0, o1, o2, o3], rfl⟩

theorem words_to_bytes_chunk (c : Bytes 32) : wordsToBytes (chunkToWords c) = c := by
  ext1
  have slices : ∀ i ∈ List.range 4,
      (toLeBytes (fromLeBytes ((c.items.drop (i * 8)).take 8))).items =
        (c.items.drop (i * 8)).take 8 := by
    intro i member
    apply toLeBytes_fromLeBytes
    have inside := List.mem_range.mp member
    simp only [List.length_take, List.length_drop, c.sized]
    omega
  simp only [wordsToBytes, chunkToWords, leWords, List.flatMap_map]
  rw [List.flatMap_congr slices, slices_append, List.take_of_length_le (by simp [c.sized])]

theorem le_words_injective : Function.Injective leWords :=
  Function.LeftInverse.injective words_to_bytes_chunk

theorem words_to_bytes_concat (w : Words) :
    (wordsToBytes w).items = concat (w.items.map toLeBytes) := by
  simp [wordsToBytes, concat, List.flatMap_map]

theorem words_to_bytes_injective : Function.Injective wordsToBytes := by
  intro first second same
  have bytes := congrArg FixedArray.items same
  rw [words_to_bytes_concat, words_to_bytes_concat] at bytes
  have words := concat_injective _ _ (by simp [first.sized, second.sized]) bytes
  exact FixedArray.ext (toLeBytes_injective.list_map words)

theorem le_words_bytes (w : Words) : leWords (wordsToBytes w) = w :=
  words_to_bytes_injective (words_to_bytes_chunk (wordsToBytes w))

theorem le_leq_from_snoc (first second : List UInt8) (a b : UInt8)
    (width : first.length = second.length) :
    leLeqFrom ((first ++ [a]).zip (second ++ [b])).reverse =
      (if a < b then true else if b < a then false
        else leLeqFrom (first.zip second).reverse) := by
  rw [List.zip_append width]
  simp [leLeqFrom]

/-- The byte comparison from the most significant end is the numeric order. -/
theorem le_leq_from_decode (first second : List UInt8)
    (width : first.length = second.length) :
    leLeqFrom (first.zip second).reverse = decide (decode first ≤ decode second) := by
  induction first using List.reverseRecOn generalizing second with
  | nil =>
      obtain rfl : second = [] := by simpa using width.symm
      rfl
  | append_singleton low a ih =>
      rcases List.eq_nil_or_concat' second with rfl | ⟨high, b, rfl⟩
      · simp at width
      · have lower : low.length = high.length := by simpa using width
        have firstBound := decode_lt low
        have secondBound := decode_lt high
        rw [le_leq_from_snoc low high a b lower, ih high lower, decode_append, decode_append,
          ← lower]
        rw [← lower] at secondBound
        simp only [decode, Nat.mul_zero, Nat.add_zero, UInt8.lt_iff_toNat_lt]
        by_cases less : a.toNat < b.toNat
        · have step : (256 : Nat) ^ low.length * (a.toNat + 1) ≤ 256 ^ low.length * b.toNat :=
            Nat.mul_le_mul_left _ less
          rw [Nat.mul_succ] at step
          have below : decode low + 256 ^ low.length * a.toNat ≤
              decode high + 256 ^ low.length * b.toNat := by omega
          simp [less, below]
        · by_cases more : b.toNat < a.toNat
          · have step : (256 : Nat) ^ low.length * (b.toNat + 1) ≤ 256 ^ low.length * a.toNat :=
              Nat.mul_le_mul_left _ more
            rw [Nat.mul_succ] at step
            have above : ¬ decode low + 256 ^ low.length * a.toNat ≤
                decode high + 256 ^ low.length * b.toNat := by omega
            simp [less, more, above]
          · have same : a.toNat = b.toNat := by omega
            simp [same]

theorem le_leq_iff (a b : Bytes 32) :
    leLeq a b = true ↔ decode a.items ≤ decode b.items := by
  rw [leLeq, le_leq_from_decode a.items b.items (a.sized.trans b.sized.symm), decide_eq_true_iff]

end KeryxMiner.PomPrimitives
