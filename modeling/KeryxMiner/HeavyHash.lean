import KeryxMiner.PomKernel

/-!
`State::calculate_pow` and `check_pow` of `src/pow.rs`, with the matrix product and the
hashers of `src/pow`. The Keccak permutation is a parameter. `Matrix::generate` draws
until the rank is full; a matrix here is any that it can draw.
-/

namespace KeryxMiner.HeavyHash

open ByteCodec PomKernel PomPrimitives

/-- The state of the Keccak permutation. -/
abbrev Lanes := Vector UInt64 25

/-- `Hash` and `Uint256`. -/
abbrev Hash := Words

def rotateLeft (word : UInt64) (count : Nat) : UInt64 := ⟨word.toBitVec.rotateLeft count⟩

theorem rotate_shifts (word : UInt64) {count : Nat} (positive : 0 < count) (bound : count < 64) :
    (word <<< UInt64.ofNat count) ||| (word >>> UInt64.ofNat (64 - count)) =
      rotateLeft word count := by
  have left : (UInt64.ofNat count).toNat % 64 = count := by
    rw [UInt64.toNat_ofNat']
    omega
  have right : (UInt64.ofNat (64 - count)).toNat % 64 = 64 - count := by
    rw [UInt64.toNat_ofNat']
    omega
  apply UInt64.toBitVec_inj.mp
  rw [rotateLeft, BitVec.rotateLeft_def, Nat.mod_eq_of_lt bound]
  apply BitVec.eq_of_toNat_eq
  rw [UInt64.toNat_toBitVec, UInt64.toNat_or, UInt64.toNat_shiftLeft, UInt64.toNat_shiftRight,
    left, right, BitVec.toNat_or, BitVec.toNat_shiftLeft, BitVec.toNat_ushiftRight,
    UInt64.toNat_toBitVec]

/-! The wave mix. -/

def waveMixKeys : List UInt64 :=
  [0x9e3779b97f4a7c15, 0x6c62272e07bb0142, 0xb5ad4eceda1ce2a9, 0x243f6a8885a308d3]

def waveMixRotations : List Nat := [17, 31, 47, 13]

def waveMixKey (r : Nat) : UInt64 := waveMixKeys.getD (r &&& 3) 0

def waveMixRotation (i : Nat) : Nat := waveMixRotations.getD i 0

def waveRound (w : Words4) (r : Nat) : Words4 :=
  let w0 := rotateLeft (w.w0 + w.w1) (waveMixRotation 0) ^^^ waveMixKey r
  let w2 := rotateLeft (w.w2 + w.w3) (waveMixRotation 2) ^^^ waveMixKey (r + 2)
  let w1 := rotateLeft (w.w1 + w2) (waveMixRotation 1) ^^^ waveMixKey (r + 1)
  let w3 := rotateLeft (w.w3 + w0) (waveMixRotation 3) ^^^ waveMixKey (r + 3)
  ⟨w0, w1, w2, w3⟩

def Words4.array (w : Words4) : Words := ⟨[w.w0, w.w1, w.w2, w.w3], rfl⟩

def waveMix (bytes : Bytes 32) : Bytes 32 :=
  wordsToBytes (Words4.array ((List.range 4).foldl waveRound (words4 bytes)))

/-! The hashers. -/

section Hashers
variable (f1600 : Lanes → Lanes)

def squeeze (lanes : Lanes) : Hash := ⟨[lanes[0], lanes[1], lanes[2], lanes[3]], rfl⟩

/-- Each word into the lane of its index. -/
def absorb (lanes : Lanes) (words : List UInt64) : Lanes :=
  Vector.ofFn fun i => match words[i.val]? with
    | some word => lanes.get i ^^^ word
    | none => lanes.get i

theorem absorb_get (lanes : Lanes) (words : List UInt64) (i : Nat) (bound : i < 25) :
    (absorb lanes words)[i] = match words[i]? with
      | some word => lanes[i] ^^^ word
      | none => lanes[i] := by
  rw [absorb, Vector.getElem_ofFn]
  rfl

theorem absorb_zeros (lanes : Lanes) (words : List UInt64) (count : Nat) :
    absorb lanes (words ++ List.replicate count 0) = absorb lanes words := by
  apply Vector.ext
  intro i bound
  rw [absorb_get, absorb_get]
  rcases Nat.lt_or_ge i words.length with inside | outside
  · rw [List.getElem?_append_left inside]
  · rw [List.getElem?_append_right outside, List.getElem?_eq_none outside,
      List.getElem?_replicate]
    split
    · rename_i word same
      split at same
      · obtain rfl := Option.some.inj same
        exact UInt64.xor_zero
      · cases same
    · rfl

theorem absorb_concat (lanes : Lanes) (words : List UInt64) (word : UInt64)
    (bound : words.length < 25) :
    absorb lanes (words ++ [word]) = (absorb lanes words).set words.length
      ((absorb lanes words)[words.length] ^^^ word) := by
  apply Vector.ext
  intro i inside
  rw [absorb_get, Vector.getElem_set]
  by_cases last : words.length = i
  · subst last
    simp [absorb_get]
  · rw [if_neg last, absorb_get]
    rcases Nat.lt_or_gt_of_ne last with above | below
    · rw [List.getElem?_eq_none (by simp; omega), List.getElem?_eq_none (by omega)]
    · rw [List.getElem?_append_left below]

def powInitialState : Lanes :=
  #v[1242148031264380989, 3008272977830772284, 2188519011337848018, 1992179434288343456,
    8876506674959887717, 5399642050693751366, 1745875063082670864, 8605242046444978844,
    17936695144567157056, 3343109343542796272, 1123092876221303306, 4963925045340115282,
    17037383077651887893, 16629644495023626889, 12833675776649114147, 3784524041015224902,
    1082795874807940378, 13952716920571277634, 13411128033953605860, 15060696040649351053,
    9928834659948351306, 5237849264682708699, 12825353012139217522, 6706187291358897596,
    196324915476054915]

def PowHasher.new (prePowHash : Hash) (timestamp : UInt64) : Lanes :=
  let start := absorb powInitialState prePowHash.items
  start.set 4 (start[4] ^^^ timestamp)

def PowHasher.finalizeWithNonce (hasher : Lanes) (nonce : UInt64) : Hash :=
  squeeze (f1600 (hasher.set 9 (hasher[9] ^^^ nonce)))

def heavyInitialState : Lanes :=
  #v[4239941492252378377, 8746723911537738262, 8796936657246353646, 1272090201925444760,
    16654558671554924250, 8270816933120786537, 13907396207649043898, 6782861118970774626,
    9239690602118867528, 11582319943599406348, 17596056728278508070, 15212962468105129023,
    7812475424661425213, 3370482334374859748, 5690099369266491460, 8596393687355028144,
    570094237299545110, 9119540418498120711, 16901969272480492857, 13372017233735502424,
    14372891883993151831, 5171152063242093102, 10573107899694386186, 6096431547456407061,
    1592359455985097269]

def HeavyHasher.hash (inHash : Hash) : Hash :=
  squeeze (f1600 (absorb heavyInitialState inHash.items))

/-! The matrix. -/

abbrev Row := FixedArray UInt16 64

/-- Every entry is a nibble, as they are drawn. -/
structure Matrix where
  rows : FixedArray Row 64
  nibbles : ∀ row ∈ rows.items, ∀ entry ∈ row.items, entry.toNat < 16

/-- `generator` gives the words that the rows are drawn from, four a row. -/
def randMatrixNoRankCheck (generator : Nat → UInt64) : Matrix where
  rows := ⟨(List.range 64).map fun i =>
    ⟨(List.range 64).map fun j =>
      ((generator (4 * i + j / 16) >>> UInt64.ofNat (4 * (j % 16))) &&& 0x0F).toUInt16,
      by simp⟩, by simp⟩
  nibbles := by
    intro row member entry drawn
    obtain ⟨i, _, rfl⟩ := List.mem_map.mp member
    obtain ⟨j, _, rfl⟩ := List.mem_map.mp drawn
    have small := Nat.and_le_right (n := (generator (4 * i + j / 16) >>>
      UInt64.ofNat (4 * (j % 16))).toNat) (m := 15)
    simp only [UInt64.toNat_toUInt16, UInt64.toNat_and]
    exact Nat.lt_of_le_of_lt (Nat.mod_le ..) (Nat.lt_succ_of_le small)

/-- `vec`: the high and the low half of each byte. -/
def nibbleVec (hash : Bytes 32) (j : Nat) : UInt8 :=
  let byte := hash.items.getD (j / 2) 0
  if j % 2 = 0 then byte >>> 4 else byte &&& 0x0F

def entry (matrix : Matrix) (i j : Nat) : UInt16 :=
  ((matrix.rows.items.map FixedArray.items).getD i []).getD j 0

/-- `sum1` and `sum2` after `count` products. -/
def rowSum (matrix : Matrix) (i : Nat) (vec : Nat → UInt8) (count : Nat) : UInt16 :=
  (List.range count).foldl (fun sum j => sum + entry matrix i j * (vec j).toUInt16) 0

def productByte (matrix : Matrix) (hash : Bytes 32) (i : Nat) : UInt8 :=
  let sum1 := rowSum matrix (2 * i) (nibbleVec hash) 64
  let sum2 := rowSum matrix (2 * i + 1) (nibbleVec hash) 64
  ((sum1 >>> 10) <<< 4).toUInt8 ||| (sum2 >>> 10).toUInt8

def product (matrix : Matrix) (hash : Bytes 32) : Bytes 32 :=
  ⟨(List.range 32).map fun i => productByte matrix hash i ^^^ hash.items.getD i 0, by simp⟩

def heavyHash (matrix : Matrix) (hash : Hash) : Hash :=
  HeavyHasher.hash f1600 (leWords (waveMix (product matrix (wordsToBytes hash))))

end Hashers

/-! A block's state. -/

def headerWord (header : Bytes 72) (i : Nat) : UInt64 :=
  fromLeBytes ((header.items.drop (8 * i)).take 8)

/-- The hasher already contains the header. -/
def Contains (hasher : Lanes) (header : Bytes 72) : Prop :=
  hasher = absorb powInitialState ((List.range 9).map (headerWord header))

structure State where
  matrix : Matrix
  target : Words
  powHashHeader : Bytes 72
  hasher : Lanes
  contains : Contains hasher powHashHeader

def powHeader (prePowHash : Hash) (timestamp : UInt64) : Bytes 72 :=
  ⟨(wordsToBytes prePowHash).items ++ (toLeBytes timestamp).items ++ List.replicate 32 0, by
    simp [(wordsToBytes prePowHash).sized, (toLeBytes timestamp).sized]⟩

theorem words_four (words : Words) : ∃ a b c d, words = ⟨[a, b, c, d], rfl⟩ := by
  obtain ⟨items, sized⟩ := words
  match items, sized with
  | [a, b, c, d], _ => exact ⟨a, b, c, d, rfl⟩

theorem pow_header_words (prePowHash : Hash) (timestamp : UInt64) :
    (List.range 9).map (headerWord (powHeader prePowHash timestamp)) =
      prePowHash.items ++ [timestamp] ++ List.replicate 4 0 := by
  obtain ⟨a, b, c, d, rfl⟩ := words_four prePowHash
  have records : (powHeader ⟨[a, b, c, d], rfl⟩ timestamp).items =
      concat ([a, b, c, d, timestamp, 0, 0, 0, 0].map toLeBytes) := by
    simp only [powHeader, wordsToBytes, List.flatMap_cons, List.flatMap_nil, List.append_nil,
      List.append_assoc, List.map_cons, List.map_nil, concat]
    rfl
  apply List.ext_getElem
  · simp
  · intro i inside _
    have bound : i < 9 := by simpa using inside
    rw [List.getElem_map, List.getElem_range, headerWord, records, Nat.mul_comm,
      concat_slice _ (by simpa using bound), List.getElem_map, fromLeBytes_toLeBytes]
    rfl

def State.new (matrix : Matrix) (target : Words) (prePowHash : Hash) (timestamp : UInt64) :
    State where
  matrix
  target
  powHashHeader := powHeader prePowHash timestamp
  hasher := PowHasher.new prePowHash timestamp
  contains := by
    have four := prePowHash.sized
    rw [Contains, pow_header_words, absorb_zeros, absorb_concat _ _ _ (by omega)]
    simp only [PowHasher.new, four]

def calculatePow (f1600 : Lanes → Lanes) (state : State) (nonce : UInt64) : Words :=
  heavyHash f1600 state.matrix (PowHasher.finalizeWithNonce f1600 state.hasher nonce)

def iteratorCmp : List UInt64 → List UInt64 → Ordering
  | [], [] => .eq
  | [], _ :: _ => .lt
  | _ :: _, [] => .gt
  | a :: rest, b :: others =>
      match compare a b with
      | .eq => iteratorCmp rest others
      | order => order

/-- `cmp` of `Uint256`, from the last limb. -/
def uint256Cmp (a b : Words) : Ordering := iteratorCmp a.items.reverse b.items.reverse

def checkPow (f1600 : Lanes → Lanes) (state : State) (nonce : UInt64) : Bool :=
  (uint256Cmp (calculatePow f1600 state nonce) state.target).isLE

end KeryxMiner.HeavyHash
