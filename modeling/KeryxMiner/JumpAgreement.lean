import KeryxMiner.BitPolynomials
import KeryxMiner.HeavyHash
import KeryxMiner.Xoshiro256StarStar

/-!
The long jumps of Rust and C. A call of the generator is linear over the field of two
elements, so both jumps are polynomials in it. C's is `2 ^ 192` calls; the difference of
the two has an inverse.
-/

namespace KeryxMiner.JumpAgreement

open BitPolynomials Xoshiro256StarStar

/-! Generators under exclusive or. -/

instance : Add Generator := ⟨Generator.xor⟩

instance : Zero Generator := ⟨Generator.zero⟩

instance : Neg Generator := ⟨fun s => s⟩

instance : AddCommGroup Generator where
  nsmul := nsmulRec
  zsmul := zsmulRec
  add_assoc a b c := by
    apply Generator.ext <;> exact UInt64.xor_assoc ..
  zero_add a := by
    apply Generator.ext <;> exact UInt64.zero_xor
  add_zero a := by
    apply Generator.ext <;> exact UInt64.xor_zero
  neg_add_cancel a := by
    apply Generator.ext <;> exact UInt64.xor_self
  add_comm a b := by
    apply Generator.ext <;> exact UInt64.xor_comm ..

theorem add_self (s : Generator) : s + s = 0 := neg_add_cancel s

theorem double (f : AddMonoid.End Generator) : f + f = 0 :=
  AddMonoidHom.ext fun s => add_self (f s)

theorem add_apply (f g : AddMonoid.End Generator) (s : Generator) : (f + g) s = f s + g s := rfl

theorem mul_apply (f g : AddMonoid.End Generator) (s : Generator) : (f * g) s = f (g s) := rfl

theorem one_apply (s : Generator) : (1 : AddMonoid.End Generator) s = s := rfl

/-! A call. -/

theorem rotl_rotate (word : UInt64) {count : Nat} (positive : 0 < count) (bound : count < 64) :
    rotl word count = HeavyHash.rotateLeft word count :=
  HeavyHash.rotate_shifts word positive bound

theorem rotl_xor (a b : UInt64) : rotl (a ^^^ b) 45 = rotl a 45 ^^^ rotl b 45 := by
  have rotates (word : UInt64) := @rotl_rotate word 45 (by decide) (by decide)
  rw [rotates, rotates, rotates]
  apply UInt64.toBitVec_inj.mp
  apply BitVec.eq_of_getElem_eq
  intro i bound
  simp only [HeavyHash.rotateLeft, UInt64.toBitVec_xor, BitVec.getElem_xor,
    BitVec.getElem_rotateLeft]
  split
  · rfl
  · rfl

theorem rotl_zero : rotl 0 45 = 0 := by
  decide

theorem rotl_rotl (word : UInt64) : rotl (rotl word 19) 45 = word := by
  rw [rotl_rotate _ (by decide) (by decide), rotl_rotate _ (by decide) (by decide)]
  apply UInt64.toBitVec_inj.mp
  apply BitVec.eq_of_getElem_eq
  intro i bound
  simp only [HeavyHash.rotateLeft, BitVec.getElem_rotateLeft]
  split
  · rw [dif_neg (by omega)]
    congr 1
    omega
  · rw [dif_pos (by omega)]
    congr 1
    omega

theorem add_fields (x y z w x' y' z' w' : UInt64) :
    (⟨x, y, z, w⟩ : Generator) + ⟨x', y', z', w'⟩ =
      ⟨x ^^^ x', y ^^^ y', z ^^^ z', w ^^^ w'⟩ := rfl

theorem xor_pairs (p q r s : UInt64) : (p ^^^ q) ^^^ (r ^^^ s) = (p ^^^ r) ^^^ (q ^^^ s) := by
  ac_rfl

theorem next_add (a b : Generator) :
    (nextU64 (a + b)).2 = (nextU64 a).2 + (nextU64 b).2 := by
  obtain ⟨x, y, z, w⟩ := a
  obtain ⟨x', y', z', w'⟩ := b
  -- each sum of two sums is regrouped by generator, in the order of the assignments
  simp only [add_fields, nextU64, UInt64.shiftLeft_xor, xor_pairs z z', xor_pairs w w',
    rotl_xor, xor_pairs x x', xor_pairs y y', xor_pairs (z ^^^ x)]

/-- The state after a call, as a linear map. -/
def advance : AddMonoid.End Generator where
  toFun s := (nextU64 s).2
  map_zero' := by decide
  map_add' := next_add

theorem advance_fields (x y z w : UInt64) : advance ⟨x, y, z, w⟩ =
    ⟨x ^^^ (w ^^^ y), y ^^^ (z ^^^ x), (z ^^^ x) ^^^ (y <<< 17), rotl (w ^^^ y) 45⟩ := rfl

theorem calls_eq (count : Nat) (s : Generator) : calls count s = (advance ^ count) s := by
  induction count generalizing s with
  | zero => rfl
  | succ count ih => exact (ih _).trans (by rw [pow_succ]; rfl)

/-! Words from their bits. -/

theorem low_bits (n count : Nat) : n % 2 ^ (count + 1) =
    (n % 2 ^ count) ^^^ if n.testBit count then 2 ^ count else 0 := by
  apply Nat.eq_of_testBit_eq
  intro i
  rw [Nat.testBit_xor, Nat.testBit_mod_two_pow, Nat.testBit_mod_two_pow]
  rcases Nat.lt_trichotomy i count with before | same | after
  · have within : i < count + 1 := by omega
    have other : count ≠ i := by omega
    split <;> simp [before, within, other]
  · subst same
    cases n.testBit i <;> simp
  · have outside : ¬i < count + 1 := by omega
    have above : ¬i < count := by omega
    have other : count ≠ i := by omega
    split <;> simp [outside, above, other]

/-- What exclusive or keeps holds of every word once it holds of the bits. -/
theorem every_word {P : UInt64 → Prop} (none : P 0) (xor : ∀ a b, P a → P b → P (a ^^^ b))
    (bits : ∀ i : Fin 64, P (UInt64.ofNat (2 ^ i.val))) (word : UInt64) : P word := by
  have below (count : Nat) : count ≤ 64 → P (UInt64.ofNat (word.toNat % 2 ^ count)) := by
    induction count with
    | zero =>
        intro _
        rw [Nat.pow_zero, Nat.mod_one]
        exact none
    | succ count ih =>
        intro within
        rw [low_bits, UInt64.ofNat_xor]
        apply xor _ _ (ih (by omega))
        split
        · exact bits ⟨count, within⟩
        · exact none
  have whole := below 64 (Nat.le_refl 64)
  rwa [Nat.mod_eq_of_lt word.toNat_lt, UInt64.ofNat_toNat] at whole

/-! A map that commutes with a call is zero once it is on the bits of `z`. -/

section Vanishing
variable {f : AddMonoid.End Generator} (commutes : Commute advance f)
  (bits : ∀ i : Fin 64, f ⟨0, 0, UInt64.ofNat (2 ^ i.val), 0⟩ = 0)

theorem vanishes_add {a b : Generator} (left : f a = 0) (right : f b = 0) : f (a + b) = 0 := by
  rw [map_add, left, right, add_zero]

include bits in
theorem vanishes_z (z : UInt64) : f ⟨0, 0, z, 0⟩ = 0 := by
  induction z using every_word with
  | none => exact map_zero f
  | xor a b left right =>
      have sum : (⟨0, 0, a ^^^ b, 0⟩ : Generator) = ⟨0, 0, a, 0⟩ + ⟨0, 0, b, 0⟩ := by
        rw [add_fields, UInt64.xor_self]
      rw [sum]
      exact vanishes_add left right
  | bits i => exact bits i

include commutes

theorem vanishes_advance {s : Generator} (vanishes : f s = 0) : f (advance s) = 0 := by
  have applied : advance (f s) = f (advance s) := DFunLike.congr_fun commutes s
  rw [← applied, vanishes, map_zero]

include bits

theorem vanishes_y (y : UInt64) : f ⟨0, y, 0, 0⟩ = 0 := by
  have z := vanishes_z bits y
  have sum : (⟨0, y, 0, 0⟩ : Generator) = advance ⟨0, 0, y, 0⟩ + ⟨0, 0, y, 0⟩ := by
    simp [advance_fields, add_fields, rotl_zero]
  rw [sum]
  exact vanishes_add (vanishes_advance commutes z) z

theorem vanishes_rotl (x : UInt64) : f ⟨x, 0, 0, rotl x 45⟩ = 0 := by
  have y := vanishes_y commutes bits x
  have sum : (⟨x, 0, 0, rotl x 45⟩ : Generator) =
      advance ⟨0, x, 0, 0⟩ + ⟨0, x, 0, 0⟩ + ⟨0, 0, x <<< 17, 0⟩ := by
    simp [advance_fields, add_fields]
  rw [sum]
  exact vanishes_add (vanishes_add (vanishes_advance commutes y) y) (vanishes_z bits _)

theorem vanishes_x (x : UInt64) : f ⟨x, 0, 0, 0⟩ = 0 := by
  -- the rotated word enters twice and cancels
  have both := vanishes_rotl commutes bits
  have sum : (⟨x, 0, 0, 0⟩ : Generator) =
      advance ⟨x, 0, 0, rotl x 45⟩ + ⟨rotl x 45, 0, 0, rotl (rotl x 45) 45⟩ +
        (⟨0, x, 0, 0⟩ + ⟨0, 0, x, 0⟩) := by
    simp only [advance_fields, add_fields, UInt64.xor_assoc, UInt64.xor_self, UInt64.xor_zero,
      UInt64.zero_xor, UInt64.zero_shiftLeft]
  rw [sum]
  exact vanishes_add (vanishes_add (vanishes_advance commutes (both x)) (both _))
    (vanishes_add (vanishes_y commutes bits x) (vanishes_z bits x))

theorem vanishes_w (w : UInt64) : f ⟨0, 0, 0, w⟩ = 0 := by
  have sum : (⟨0, 0, 0, w⟩ : Generator) =
      ⟨rotl w 19, 0, 0, rotl (rotl w 19) 45⟩ + ⟨rotl w 19, 0, 0, 0⟩ := by
    simp [add_fields, rotl_rotl]
  rw [sum]
  exact vanishes_add (vanishes_rotl commutes bits _) (vanishes_x commutes bits _)

theorem vanishes : f = 0 := by
  apply AddMonoidHom.ext
  intro s
  have sum : s = ⟨s.x, 0, 0, 0⟩ + ⟨0, s.y, 0, 0⟩ + (⟨0, 0, s.z, 0⟩ + ⟨0, 0, 0, s.w⟩) := by
    simp [add_fields]
  rw [sum]
  exact vanishes_add
    (vanishes_add (vanishes_x commutes bits s.x) (vanishes_y commutes bits s.y))
    (vanishes_add (vanishes_z bits s.z) (vanishes_w commutes bits s.w))

end Vanishing

/-! A relation of the powers. -/

/-- What the 256th power is. -/
def relationLow : Nat := 0x3c03c3f3ecb1904b4edcf26259f850280002bcefd1a5e9d116f2bb0f0f001

theorem relation_small : relationLow < 2 ^ 256 := by
  decide

theorem bits_vanish : ∀ i : Fin 64, ((List.range 257).foldl
    (accumulate advance (2 ^ 256 + relationLow)) (0, ⟨0, 0, UInt64.ofNat (2 ^ i.val), 0⟩)).1 =
      0 := by
  decide +kernel

theorem relation : advance ^ 256 = value advance 256 relationLow := by
  have whole : value advance 257 (2 ^ 256 + relationLow) = 0 := by
    apply vanishes (value_commutes advance 257 _)
    intro i
    have summed := bits_vanish i
    rwa [accumulate_range, zero_add] at summed
  have top : (2 ^ 256 + relationLow).testBit 256 = true := by
    rw [Nat.testBit_two_pow_add_eq, Nat.testBit_lt_two_pow relation_small]
    rfl
  rw [value_succ, top, if_pos rfl, ← value_mod, Nat.add_mod_left,
    Nat.mod_eq_of_lt relation_small] at whole
  exact (eq_neg_of_add_eq_zero_right whole).trans (eq_neg_of_add_eq_zero_left (double _)).symm

/-! The loops. -/

theorem bit_set (word : UInt64) {b : Nat} (inside : b < 64) :
    word &&& (1 <<< UInt64.ofNat b) ≠ 0 ↔ word.toNat.testBit b = true := by
  have shift : (UInt64.ofNat b).toNat % 64 = b := by
    rw [UInt64.toNat_ofNat']
    omega
  have below : 2 ^ b < 2 ^ 64 := Nat.pow_lt_pow_right (by decide) inside
  rw [ne_eq, ← UInt64.toNat_inj, UInt64.toNat_and, UInt64.toNat_shiftLeft, shift,
    Nat.shiftLeft_eq, UInt64.toNat_one, Nat.one_mul, Nat.mod_eq_of_lt below, Nat.and_two_pow]
  cases word.toNat.testBit b <;> simp

theorem jump_word_eq (loop : Generator × Generator) (jmp : UInt64) : jumpWord loop jmp =
    (loop.1 + value advance 64 jmp.toNat loop.2, (advance ^ 64) loop.2) := by
  rw [jumpWord, ← accumulate_range]
  apply List.foldl_ext
  intro loop b member
  exact Prod.ext (if_congr (bit_set jmp (List.mem_range.mp member)) rfl rfl) rfl

/-- The words of a polynomial, the lowest first. -/
def joined (words : List UInt64) : Nat :=
  words.foldr (fun word rest => word.toNat + 2 ^ 64 * rest) 0

theorem jump_words_eq (words : List UInt64) (loop : Generator × Generator) :
    words.foldl jumpWord loop = (loop.1 + value advance (64 * words.length) (joined words) loop.2,
      (advance ^ (64 * words.length)) loop.2) := by
  induction words generalizing loop with
  | nil => exact Prod.ext (add_zero loop.1).symm rfl
  | cons word rest ih =>
      have width : 64 * (word :: rest).length = 64 + 64 * rest.length := by
        rw [List.length_cons, Nat.mul_succ, Nat.add_comm]
      -- the rest starts 64 calls later, on the state and not on the sum
      have commutes := (value_commutes advance (64 * rest.length) (joined rest)).pow_left 64
      have both : value advance (64 + 64 * rest.length) (joined (word :: rest)) =
          value advance 64 word.toNat + value advance (64 * rest.length) (joined rest) *
            advance ^ 64 := by
        rw [← commutes.eq]
        exact value_joined advance 64 _ _ _ word.toNat_lt
      rw [List.foldl_cons, ih, jump_word_eq, width, both, Nat.add_comm 64, pow_add]
      exact Prod.ext (add_assoc ..) rfl

/-! C: `2 ^ 192` calls. -/

theorem c_jump_eq (s : Generator) :
    xoshiro256LongJump s = value advance 256 (joined longJumpWords) s := by
  rw [xoshiro256LongJump, jump_words_eq]
  exact zero_add _

theorem squared_two : squared 256 relationLow 192 2 = joined longJumpWords := by
  decide +kernel

theorem c_jump_calls (s : Generator) : xoshiro256LongJump s = calls (2 ^ 192) s := by
  rw [c_jump_eq, calls_eq, ← squared_two,
    value_squared double advance relation relation_small 192 (by decide),
    value_variable]

/-! Rust: a product. -/

theorem value_word (word : UInt64) :
    value advance 256 word.toNat = value advance 64 word.toNat := by
  have padded := value_joined advance 64 192 word.toNat 0 word.toNat_lt
  rwa [value_zero, Nat.mul_zero, Nat.add_zero word.toNat, mul_zero, add_zero] at padded

/-- A turn of Rust's outer loop adds the state to its polynomial. -/
theorem long_jump_word_eq (s : Generator) (jmp : UInt64) :
    longJumpWord (s, s) jmp =
      (value advance 256 (jmp ^^^ 1).toNat s, value advance 256 (jmp ^^^ 1).toNat s) := by
  have sum : value advance 256 (jmp ^^^ 1).toNat = 1 + value advance 64 jmp.toNat := by
    rw [UInt64.toNat_xor, UInt64.toNat_one, value_xor double, value_one, value_word, add_comm]
  rw [longJumpWord, jump_word_eq, sum, add_apply, one_apply]

def times (poly : Nat) (jmp : UInt64) : Nat := product 256 relationLow poly (jmp ^^^ 1).toNat

theorem times_small {poly : Nat} (small : poly < 2 ^ 256) (jmp : UInt64) :
    times poly jmp < 2 ^ 256 :=
  product_small relation_small _ small

theorem rust_words_eq (words : List UInt64) {poly : Nat} (small : poly < 2 ^ 256)
    (s : Generator) : (words.foldl longJumpWord
      (value advance 256 poly s, value advance 256 poly s)).2 =
        value advance 256 (words.foldl times poly) s := by
  induction words generalizing poly with
  | nil => rfl
  | cons word rest ih =>
      have product_eq : value advance 256 (times poly word) =
          value advance 256 (word ^^^ 1).toNat * value advance 256 poly :=
        value_product double advance relation relation_small (word ^^^ 1).toNat small
      rw [List.foldl_cons, List.foldl_cons, long_jump_word_eq, ← mul_apply, ← product_eq]
      exact ih (times_small small word)

def rustPolynomial : List UInt64 → Nat
  | [] => 1
  | word :: rest => rest.foldl times word.toNat

theorem first_word_eq (s : Generator) (jmp : UInt64) : longJumpWord (0, s) jmp =
    (value advance 256 jmp.toNat s, value advance 256 jmp.toNat s) := by
  rw [longJumpWord, jump_word_eq, value_word, zero_add]

theorem rust_polynomial_eq (words : List UInt64) (s : Generator) :
    (words.foldl longJumpWord (0, s)).2 = value advance 256 (rustPolynomial words) s := by
  cases words with
  | nil => rw [rustPolynomial, value_one, one_apply, List.foldl_nil]
  | cons word rest =>
      have below : 2 ^ 64 < 2 ^ 256 := by decide
      rw [List.foldl_cons, first_word_eq, rustPolynomial]
      exact rust_words_eq rest (Nat.lt_trans word.toNat_lt below) s

theorem rust_jump_eq (s : Generator) :
    longJump s = value advance 256 (rustPolynomial longJumpWords) s := by
  have zero : Generator.zero = 0 := rfl
  rw [longJump, zero, rust_polynomial_eq]

/-! The difference of the jumps. -/

def difference : Nat := rustPolynomial longJumpWords ^^^ joined longJumpWords

theorem difference_small : difference < 2 ^ 256 := by
  decide +kernel

def inverse : Nat := 0x8cf375fb4e957eb8fa9c82012171aac0dea2b8d9ca42654f6cb9fb8c96144b7f

theorem difference_inverse : product 256 relationLow difference inverse = 1 := by
  decide +kernel

theorem difference_kernel {s : Generator} (vanishes : value advance 256 difference s = 0) :
    s = 0 := by
  have product_eq := value_product double advance relation relation_small inverse difference_small
  rw [difference_inverse, value_one] at product_eq
  rw [← one_apply s, product_eq, mul_apply, vanishes, map_zero]

theorem jumps_agree (s : Generator) : longJump s = xoshiro256LongJump s ↔ s = 0 := by
  have split : value advance 256 difference s = longJump s + xoshiro256LongJump s := by
    rw [rust_jump_eq, c_jump_eq, difference, value_xor double, add_apply]
  constructor
  · intro same
    apply difference_kernel
    rw [split, same, add_self]
  · rintro rfl
    rw [rust_jump_eq, c_jump_eq, map_zero, map_zero]

/-! The states of `iter_jump_state`. -/

theorem calls_zero (count : Nat) : calls count 0 = 0 := by
  rw [calls_eq, map_zero]

/-- The seeds are `2 ^ 192` calls apart. -/
def Spaced (s : Generator) : Prop :=
  ∀ count, iterJumpState s count =
    (List.range count).map fun i => calls (2 ^ 192 * (i + 1)) s

theorem iter_jump_state_zero (count : Nat) :
    iterJumpState 0 count = List.replicate count 0 := by
  have fixed : longJump 0 = 0 := by
    rw [rust_jump_eq, map_zero]
  induction count with
  | zero => rfl
  | succ count ih =>
      rw [iterJumpState, stateIterNext, fixed]
      exact congrArg _ ih

theorem spaced_iff (s : Generator) : Spaced s ↔ s = 0 := by
  constructor
  · intro spaced
    have first : [longJump s] = [calls (2 ^ 192 * (0 + 1)) s] := spaced 1
    have same := List.head_eq_of_cons_eq first
    rw [Nat.zero_add, Nat.mul_one, ← c_jump_calls] at same
    exact (jumps_agree s).mp same
  · rintro rfl count
    rw [iter_jump_state_zero]
    simp [calls_zero]

/-- C's long jump is `2 ^ 192` calls from every state, and Rust's agrees with it from the
zero state only, where nothing moves. -/
theorem long_jump_agrees_iff (s : Generator) :
    xoshiro256LongJump s = calls (2 ^ 192) s ∧
      (longJump s = xoshiro256LongJump s ↔ s = Generator.zero) ∧
        (Spaced s ↔ s = Generator.zero) :=
  ⟨c_jump_calls s, jumps_agree s, spaced_iff s⟩

/-- One of the states at which the jumps differ. -/
theorem long_jump_differs :
    longJump ⟨1, 2, 3, 4⟩ ≠ xoshiro256LongJump ⟨1, 2, 3, 4⟩ := by
  decide +kernel

end KeryxMiner.JumpAgreement
