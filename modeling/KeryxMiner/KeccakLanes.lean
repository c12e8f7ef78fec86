import KeryxMiner.KeccakListing

/-!
The instructions of a round on two arrays of lanes. The machine runs them alike, with `rdi` and
`rsi` a hundred bytes into the two buffers and `r15` at the next constant.
-/

namespace KeryxMiner.KeccakLanes

open X86 KeccakListing

section Put
variable {Index : Type} [DecidableEq Index]

def put (words : Index → UInt64) (place : Index) (word : UInt64) : Index → UInt64 :=
  fun i => if i = place then word else words i

end Put

structure LaneCore where
  registers : Register → UInt64
  source : Nat → UInt64
  target : Nat → UInt64
  constants : Nat → UInt64
  index : Nat

def laneOf (displacement : Int) : Nat := ((displacement + 100) / 8).toNat

namespace LaneCore

def read (lanes : LaneCore) : Operand → UInt64
  | .register name => lanes.registers name
  | .memory .rdi displacement => lanes.source (laneOf displacement)
  | .memory .rsi displacement => lanes.target (laneOf displacement)
  | .memory _ _ => lanes.constants lanes.index

def write (lanes : LaneCore) (target : Operand) (word : UInt64) : LaneCore :=
  match target with
  | .register name => { lanes with registers := put lanes.registers name word }
  | .memory .rdi displacement =>
      { lanes with source := put lanes.source (laneOf displacement) word }
  | .memory _ displacement => { lanes with target := put lanes.target (laneOf displacement) word }

def effect (lanes : LaneCore) : Instruction → LaneCore
  | .binary operation source target =>
      lanes.write target (operation.result (lanes.read source) (lanes.read target))
  | .notq target => lanes.write target (~~~lanes.read target)
  | .rolq count target =>
      lanes.write target ⟨(lanes.registers target).toBitVec.rotateLeft count⟩
  | .xchgq _ _ => { lanes with source := lanes.target, target := lanes.source }
  | .leaq _ _ _ => { lanes with index := lanes.index + 1 }
  | _ => lanes

def run (lanes : LaneCore) (block : List Instruction) : LaneCore := block.foldl effect lanes

end LaneCore

/-! The instructions that are modelled so. -/

def general (name : Register) : Bool :=
  !decide (name ∈ [Register.rsp, Register.rsi, Register.rdi, Register.r15])

def covered : Operand → Bool
  | .register name => general name
  | .memory base displacement =>
      (decide (base = .rdi) || decide (base = .rsi)) &&
        decide (laneOf displacement < 25 ∧ displacement = 8 * laneOf displacement - 100)

def next : Operand := .memory .r15 0

/-- `fresh` while `r15` is at the constant of the round. -/
def allowed (fresh : Bool) : Instruction → Bool
  | .binary _ source target =>
      (covered source || (fresh && decide (source = next))) && covered target
  | .notq target => covered target
  | .rolq _ target => general target
  | .xchgq first second => decide (first = .rsi ∧ second = .rdi)
  | .leaq base displacement target => decide (base = .r15 ∧ displacement = 8 ∧ target = .r15)
  | _ => false

def stays : Instruction → Bool
  | .leaq _ _ _ => false
  | _ => true

def allowedAll : Bool → List Instruction → Bool
  | _, [] => true
  | fresh, instruction :: rest =>
      allowed fresh instruction && allowedAll (fresh && stays instruction) rest

theorem body_allowed : allowedAll true body = true := by decide

theorem write_index (lanes : LaneCore) (target : Operand) (word : UInt64) :
    (lanes.write target word).index = lanes.index := by
  unfold LaneCore.write
  split <;> rfl

theorem effect_index (lanes : LaneCore) {instruction : Instruction}
    (stay : stays instruction = true) : (lanes.effect instruction).index = lanes.index := by
  cases instruction with
  | binary | notq | rolq => exact write_index lanes _ _
  | leaq => cases stay
  | _ => rfl

/-! Where the lanes are. -/

/-- Word `k` of the array at `base`. -/
def slot (base : UInt64) (k : Nat) : UInt64 := base + UInt64.ofNat (8 * k)

theorem slot_aligned {base : UInt64} (aligned : base % 8 = 0) (k : Nat) : slot base k % 8 = 0 := by
  have whole : base.toNat % 8 = 0 := by simpa using congrArg UInt64.toNat aligned
  apply UInt64.toNat_inj.mp
  rw [slot, UInt64.toNat_mod, UInt64.toNat_add, UInt64.toNat_ofNat']
  change (base.toNat + 8 * k % 2 ^ 64) % 2 ^ 64 % 8 = 0
  omega

theorem slot_inj {base : UInt64} {i j : Nat} (inside : i < 25) (within : j < 25)
    (same : slot base i = slot base j) : i = j := by
  have offsets : UInt64.ofNat (8 * i) = UInt64.ofNat (8 * j) := (UInt64.add_right_inj base).mp same
  have numbers := congrArg UInt64.toNat offsets
  rw [UInt64.toNat_ofNat', UInt64.toNat_ofNat'] at numbers
  omega

theorem displaced (base : UInt64) {displacement : Int} (inside : laneOf displacement < 25)
    (whole : displacement = 8 * laneOf displacement - 100) :
    base + 100 + UInt64.ofInt displacement = slot base (laneOf displacement) := by
  have each : ∀ k < 25, 100 + UInt64.ofInt (8 * (k : Nat) - 100) = UInt64.ofNat (8 * k) := by
    decide
  have sum := each _ inside
  rw [← whole] at sum
  rw [slot, UInt64.add_assoc, sum]

theorem slot_next (base : UInt64) (k : Nat) : slot base k + 8 = slot base (k + 1) := by
  rw [slot, slot, UInt64.add_assoc, Nat.mul_succ, UInt64.ofNat_add]
  rfl

structure Buffers where
  first : UInt64
  second : UInt64
  table : UInt64
  first_aligned : first % 8 = 0
  second_aligned : second % 8 = 0
  table_aligned : table % 8 = 0
  apart : ∀ i < 25, ∀ j < 25, slot first i ≠ slot second j
  first_table : ∀ i < 25, ∀ j < 24, slot first i ≠ slot table j
  second_table : ∀ i < 25, ∀ j < 24, slot second i ≠ slot table j

def Buffers.swap (buffers : Buffers) : Buffers where
  first := buffers.second
  second := buffers.first
  table := buffers.table
  first_aligned := buffers.second_aligned
  second_aligned := buffers.first_aligned
  table_aligned := buffers.table_aligned
  apart i inside j within := (buffers.apart j within i inside).symm
  first_table := buffers.second_table
  second_table := buffers.first_table

/-- The machine that the lanes are in. `outside` is its memory when the routine is entered. -/
structure Related (buffers : Buffers) (outside : UInt64 → UInt64) (stack : UInt64) (core : Core)
    (lanes : LaneCore) : Prop where
  registers : ∀ name, general name = true → core.registers name = lanes.registers name
  first : core.registers .rdi = buffers.first + 100
  second : core.registers .rsi = buffers.second + 100
  table : core.registers .r15 = slot buffers.table lanes.index
  stack : core.registers .rsp = stack
  source : ∀ k < 25, core.memory (slot buffers.first k) = lanes.source k
  target : ∀ k < 25, core.memory (slot buffers.second k) = lanes.target k
  constants : ∀ k < 24, core.memory (slot buffers.table k) = lanes.constants k
  outside : ∀ address,
    (∀ k < 25, address ≠ slot buffers.first k ∧ address ≠ slot buffers.second k) →
      core.memory address = outside address

section Simulation
variable {buffers : Buffers} {outside : UInt64 → UInt64} {stack : UInt64} {core : Core}
  {lanes : LaneCore}

theorem Related.read (related : Related buffers outside stack core lanes) {operand : Operand}
    (cover : covered operand = true) : core.read operand = some (lanes.read operand) := by
  match operand, cover with
  | .register name, cover => exact congrArg some (related.registers name cover)
  | .memory base displacement, cover =>
      simp only [covered, Bool.and_eq_true, Bool.or_eq_true, decide_eq_true_eq] at cover
      obtain ⟨rfl | rfl, inside, whole⟩ := cover
      · rw [Core.read, Core.address, related.first, displaced _ inside whole, Core.load,
          if_pos (slot_aligned buffers.first_aligned _), related.source _ inside]
        rfl
      · rw [Core.read, Core.address, related.second, displaced _ inside whole, Core.load,
          if_pos (slot_aligned buffers.second_aligned _), related.target _ inside]
        rfl

theorem Related.read_next (related : Related buffers outside stack core lanes)
    (fresh : lanes.index < 24) : core.read next = some (lanes.read next) := by
  have still : slot buffers.table lanes.index + UInt64.ofInt 0 = slot buffers.table lanes.index :=
    UInt64.add_zero _
  rw [next, Core.read, Core.address, related.table, still, Core.load,
    if_pos (slot_aligned buffers.table_aligned _), related.constants _ fresh]
  rfl

theorem Related.write_register (related : Related buffers outside stack core lanes)
    {name : Register} (cover : general name = true) (word : UInt64) :
    Related buffers outside stack (core.set name word) (lanes.write (.register name) word) where
  registers other seen := by
    simp only [Core.set, LaneCore.write, put, Function.update_apply, related.registers other seen]
  first := by
    have apart : Register.rdi ≠ name := by rintro rfl; exact absurd cover (by decide)
    exact (Function.update_of_ne apart word core.registers).trans related.first
  second := by
    have apart : Register.rsi ≠ name := by rintro rfl; exact absurd cover (by decide)
    exact (Function.update_of_ne apart word core.registers).trans related.second
  table := by
    have apart : Register.r15 ≠ name := by rintro rfl; exact absurd cover (by decide)
    exact (Function.update_of_ne apart word core.registers).trans related.table
  stack := by
    have apart : Register.rsp ≠ name := by rintro rfl; exact absurd cover (by decide)
    exact (Function.update_of_ne apart word core.registers).trans related.stack
  source := related.source
  target := related.target
  constants := related.constants
  outside := related.outside

/-- `xchgq %rsi,%rdi`. -/
def exchange (core : Core) : Core :=
  (core.set .rsi (core.registers .rdi)).set .rdi (core.registers .rsi)

theorem exchange_twice (core : Core) : (exchange (exchange core)).registers = core.registers := by
  funext name
  simp only [exchange, Core.set, Function.update_apply]
  split
  · rename_i same
    rw [same]
    rfl
  · split
    · rename_i same
      rw [same]
      rfl
    · rfl

theorem Related.swapped (related : Related buffers outside stack core lanes) :
    Related buffers.swap outside stack (exchange core)
      { lanes with source := lanes.target, target := lanes.source } where
  registers other seen := by
    have apart : other ≠ .rdi ∧ other ≠ .rsi := by
      constructor <;> rintro rfl <;> exact absurd seen (by decide)
    simp only [exchange, Core.set, Function.update_apply, apart.1, apart.2, if_false,
      related.registers other seen]
  first := related.second
  second := related.first
  table := related.table
  stack := related.stack
  source := related.target
  target := related.source
  constants := related.constants
  outside address other := related.outside address fun k inside => (other k inside).symm

/-- A word stored in the first buffer. -/
theorem Related.write_first (related : Related buffers outside stack core lanes) {place : Nat}
    (inside : place < 25) (word : UInt64) : Related buffers outside stack
      { core with memory := Function.update core.memory (slot buffers.first place) word }
      { lanes with source := put lanes.source place word } where
  registers := related.registers
  first := related.first
  second := related.second
  table := related.table
  stack := related.stack
  source k within := by
    by_cases same : k = place
    · subst same
      simp [put]
    · have apart : slot buffers.first k ≠ slot buffers.first place :=
        fun equal => same (slot_inj within inside equal)
      simp only [Function.update_of_ne apart, put, same, if_false, related.source k within]
  target k within := (Function.update_of_ne (buffers.apart place inside k within).symm word
    core.memory).trans (related.target k within)
  constants k within := (Function.update_of_ne (buffers.first_table place inside k within).symm word
    core.memory).trans (related.constants k within)
  outside address other := (Function.update_of_ne (other place inside).1 word core.memory).trans
    (related.outside address other)

theorem Related.write_second (related : Related buffers outside stack core lanes) {place : Nat}
    (inside : place < 25) (word : UInt64) : Related buffers outside stack
      { core with memory := Function.update core.memory (slot buffers.second place) word }
      { lanes with target := put lanes.target place word } := by
  -- the buffers change places, the word is stored and they change back
  have twice := (related.swapped.write_first inside word).swapped
  have back := congrArg (fun registers => Core.mk registers core.zero
    (Function.update core.memory (slot buffers.second place) word)) (exchange_twice core)
  exact back ▸ twice

theorem Related.write (related : Related buffers outside stack core lanes) {target : Operand}
    (cover : covered target = true) (word : UInt64) : ∃ after, core.write target word = some after ∧
      Related buffers outside stack after (lanes.write target word) := by
  match target, cover with
  | .register name, cover => exact ⟨_, rfl, related.write_register cover word⟩
  | .memory base displacement, cover =>
      simp only [covered, Bool.and_eq_true, Bool.or_eq_true, decide_eq_true_eq] at cover
      obtain ⟨rfl | rfl, inside, whole⟩ := cover
      · refine ⟨_, ?_, related.write_first inside word⟩
        rw [Core.write, Core.address, related.first, displaced _ inside whole, Core.store,
          if_pos (slot_aligned buffers.first_aligned _)]
      · refine ⟨_, ?_, related.write_second inside word⟩
        rw [Core.write, Core.address, related.second, displaced _ inside whole, Core.store,
          if_pos (slot_aligned buffers.second_aligned _)]

theorem Related.flagged (related : Related buffers outside stack core lanes) (word : UInt64) :
    Related buffers outside stack (core.flagged word) lanes :=
  { related with }

/-- The buffers after an instruction. -/
def Buffers.after (buffers : Buffers) : Instruction → Buffers
  | .xchgq _ _ => buffers.swap
  | _ => buffers

theorem Related.advance (related : Related buffers outside stack core lanes) :
    Related buffers outside stack (core.set .r15 (core.address .r15 8))
      { lanes with index := lanes.index + 1 } where
  registers other seen := by
    have apart : other ≠ .r15 := by rintro rfl; exact absurd seen (by decide)
    exact (Function.update_of_ne apart _ core.registers).trans (related.registers other seen)
  first := related.first
  second := related.second
  table := by
    have next := slot_next buffers.table lanes.index
    rw [← related.table] at next
    exact next
  stack := related.stack
  source := related.source
  target := related.target
  constants := related.constants
  outside := related.outside

theorem Related.binary (related : Related buffers outside stack core lanes) (operation : Operation)
    {source target : Operand} (read : core.read source = some (lanes.read source))
    (cover : covered target = true) : ∃ after, core.binary operation source target = some after ∧
      Related buffers outside stack after (lanes.effect (.binary operation source target)) := by
  obtain ⟨after, written, holds⟩ :=
    related.write cover (operation.result (lanes.read source) (lanes.read target))
  refine ⟨if operation = .mov then after else
    after.flagged (operation.result (lanes.read source) (lanes.read target)), ?_, ?_⟩
  · rw [Core.binary, read, related.read cover]
    simp [written]
  · split
    · exact holds
    · exact holds.flagged _

/-- The machine does what the lanes do. -/
theorem effect_related (symbol : Nat → UInt64) {instruction : Instruction} {fresh : Bool}
    (allow : allowed fresh instruction = true) (unread : fresh = true → lanes.index < 24)
    (related : Related buffers outside stack core lanes) :
    ∃ after, execute symbol core instruction = some after ∧
      Related (buffers.after instruction) outside stack after (lanes.effect instruction) := by
  match instruction, allow with
  | .binary operation source target, allow =>
      simp only [allowed, Bool.and_eq_true, Bool.or_eq_true, decide_eq_true_eq] at allow
      obtain ⟨cover | ⟨current, rfl⟩, target_cover⟩ := allow
      · exact related.binary operation (related.read cover) target_cover
      · exact related.binary operation (related.read_next (unread current)) target_cover
  | .notq target, cover =>
      obtain ⟨after, written, holds⟩ := related.write cover (~~~lanes.read target)
      refine ⟨after, ?_, holds⟩
      rw [execute, related.read cover]
      exact written
  | .rolq count target, cover =>
      refine ⟨_, rfl, ?_⟩
      rw [related.registers target cover]
      exact related.write_register cover _
  | .xchgq first second, allow =>
      simp only [allowed, decide_eq_true_eq] at allow
      obtain ⟨rfl, rfl⟩ := allow
      exact ⟨_, rfl, related.swapped⟩
  | .leaq base displacement target, allow =>
      simp only [allowed, decide_eq_true_eq] at allow
      obtain ⟨rfl, rfl, rfl⟩ := allow
      exact ⟨_, rfl, related.advance⟩

theorem run_related (symbol : Nat → UInt64) {block : List Instruction} :
    ∀ {fresh : Bool} {buffers : Buffers} {core : Core} {lanes : LaneCore},
      allowedAll fresh block = true → (fresh = true → lanes.index < 24) →
        Related buffers outside stack core lanes →
          ∃ after, executeAll symbol core block = some after ∧
            Related (block.foldl Buffers.after buffers) outside stack after (lanes.run block) := by
  induction block with
  | nil => exact fun _ _ related => ⟨_, rfl, related⟩
  | cons instruction block ih =>
      intro fresh buffers core lanes allow unread related
      rw [allowedAll, Bool.and_eq_true] at allow
      obtain ⟨next, executed, holds⟩ := effect_related symbol allow.1 unread related
      have still : (fresh && stays instruction) = true → (lanes.effect instruction).index < 24 := by
        intro both
        rw [Bool.and_eq_true] at both
        rw [effect_index lanes both.2]
        exact unread both.1
      obtain ⟨after, ran, related⟩ := ih allow.2 still holds
      exact ⟨after, by rw [executeAll, List.foldlM_cons, executed]; exact ran, related⟩

end Simulation

end KeryxMiner.KeccakLanes
