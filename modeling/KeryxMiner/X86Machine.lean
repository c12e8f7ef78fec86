import Mathlib.Data.UInt
import Mathlib.Logic.Function.Basic
import Mathlib.Logic.Relation

/-!
Straight-line code, jumps and calls of x86-64 on words of 64 bits. Memory is accessed in aligned
words only: the model has no step for any other access. Of the flags only `ZF` is kept.
-/

namespace KeryxMiner.X86

inductive Register where
  | rax | rbx | rcx | rdx | rbp | rsp | rsi | rdi | r8 | r9 | r10 | r11 | r12 | r13 | r14 | r15
  deriving DecidableEq

inductive Operand where
  | register (name : Register)
  | memory (base : Register) (displacement : Int)
  deriving DecidableEq

instance : Coe Register Operand := ⟨Operand.register⟩

inductive Operation where
  | mov | xor | and | or
  deriving DecidableEq

/-- The source comes before the target. Code and data are named by numbers. -/
inductive Instruction where
  | binary (operation : Operation) (source target : Operand)
  | notq (target : Operand)
  | rolq (count : Nat) (target : Register)
  | xchgq (first second : Register)
  | leaq (base : Register) (displacement : Int) (target : Register)
  | leaqRip (symbol : Nat) (target : Register)
  | addq (amount : UInt64) (target : Register)
  | subq (amount : UInt64) (target : Register)
  | testq (mask : UInt64) (target : Register)
  | pushq (source : Register)
  | popq (target : Register)
  | jmp (label : Nat)
  | jnz (label : Nat)
  | call (label : Nat)
  | ret
  deriving DecidableEq

abbrev movq := Instruction.binary .mov
abbrev xorq := Instruction.binary .xor
abbrev andq := Instruction.binary .and
abbrev orq := Instruction.binary .or

structure Core where
  registers : Register → UInt64
  zero : Bool
  memory : UInt64 → UInt64

def Core.set (core : Core) (name : Register) (word : UInt64) : Core :=
  { core with registers := Function.update core.registers name word }

def Core.address (core : Core) (base : Register) (displacement : Int) : UInt64 :=
  core.registers base + UInt64.ofInt displacement

def Core.load (core : Core) (address : UInt64) : Option UInt64 :=
  if address % 8 = 0 then some (core.memory address) else none

def Core.store (core : Core) (address word : UInt64) : Option Core :=
  if address % 8 = 0 then some { core with memory := Function.update core.memory address word }
  else none

def Core.read (core : Core) : Operand → Option UInt64
  | .register name => some (core.registers name)
  | .memory base displacement => core.load (core.address base displacement)

def Core.write (core : Core) (target : Operand) (word : UInt64) : Option Core :=
  match target with
  | .register name => some (core.set name word)
  | .memory base displacement => core.store (core.address base displacement) word

def Operation.result : Operation → UInt64 → UInt64 → UInt64
  | .mov, source, _ => source
  | .xor, source, target => target ^^^ source
  | .and, source, target => target &&& source
  | .or, source, target => target ||| source

def Core.flagged (core : Core) (word : UInt64) : Core := { core with zero := word == 0 }

/-- `movq` leaves the flags as they are. -/
def Core.binary (core : Core) (operation : Operation) (source target : Operand) : Option Core := do
  let word := operation.result (← core.read source) (← core.read target)
  let after ← core.write target word
  return if operation = .mov then after else after.flagged word

def Core.push (core : Core) (word : UInt64) : Option Core :=
  let lowered := core.set .rsp (core.registers .rsp - 8)
  lowered.store (lowered.registers .rsp) word

def Core.pop (core : Core) : Option (UInt64 × Core) := do
  let word ← core.load (core.registers .rsp)
  return (word, core.set .rsp (core.registers .rsp + 8))

structure Image where
  code : List Instruction
  address : Nat → UInt64
  symbol : Nat → UInt64
  distinct : ∀ i < code.length, ∀ j < code.length, address i = address j → i = j

/-- What an instruction does besides going to the next one; jumps are not executed here. -/
def execute (symbol : Nat → UInt64) (core : Core) : Instruction → Option Core
  | .binary operation source target => core.binary operation source target
  | .notq target => do core.write target (~~~(← core.read target))
  | .rolq count target =>
      some (core.set target ⟨(core.registers target).toBitVec.rotateLeft count⟩)
  | .xchgq first second =>
      some ((core.set first (core.registers second)).set second (core.registers first))
  | .leaq base displacement target => some (core.set target (core.address base displacement))
  | .leaqRip data target => some (core.set target (symbol data))
  | .addq amount target =>
      let word := core.registers target + amount
      some ((core.set target word).flagged word)
  | .subq amount target =>
      let word := core.registers target - amount
      some ((core.set target word).flagged word)
  | .testq mask target => some (core.flagged (core.registers target &&& mask))
  | .pushq source => core.push (core.registers source)
  | .popq target => core.pop.map fun popped => popped.2.set target popped.1
  | .jmp _ | .jnz _ | .call _ | .ret => none

def executeAll (symbol : Nat → UInt64) (core : Core) (block : List Instruction) : Option Core :=
  block.foldlM (execute symbol) core

theorem execute_all_append (symbol : Nat → UInt64) {core middle : Core}
    {first second : List Instruction} (ran : executeAll symbol core first = some middle) :
    executeAll symbol core (first ++ second) = executeAll symbol middle second := by
  rw [executeAll, List.foldlM_append]
  exact congrArg (Option.bind · fun core => executeAll symbol core second) ran

structure State where
  core : Core
  rip : UInt64

namespace Image
variable (image : Image)

/-- The instruction at `rip`, by its number. -/
def fetch (rip : UInt64) : Option Nat :=
  (List.range image.code.length).find? fun i => image.address i = rip

def perform (core : Core) (i : Nat) : Instruction → Option State
  | .jmp label => some ⟨core, image.address label⟩
  | .jnz label => some ⟨core, image.address (if core.zero then i + 1 else label)⟩
  | .call label => (core.push (image.address (i + 1))).map fun core => ⟨core, image.address label⟩
  | .ret => core.pop.map fun popped => ⟨popped.2, popped.1⟩
  | instruction =>
      (execute image.symbol core instruction).map fun core => ⟨core, image.address (i + 1)⟩

def step (state : State) : Option State :=
  (image.fetch state.rip).bind fun i => image.code[i]?.bind (image.perform state.core i)

def Reaches : State → State → Prop :=
  Relation.ReflTransGen fun before after => image.step before = some after

theorem fetch_address {i : Nat} (inside : i < image.code.length) :
    image.fetch (image.address i) = some i := by
  rw [fetch, List.find?_range_eq_some]
  refine ⟨by simp, List.mem_range.mpr inside, fun j before => ?_⟩
  have apart : image.address j ≠ image.address i := fun same =>
    Nat.ne_of_lt before (image.distinct j (Nat.lt_trans before inside) i inside same)
  simpa using apart

theorem step_at (core : Core) {i : Nat} {instruction : Instruction}
    (here : image.code[i]? = some instruction) :
    image.step ⟨core, image.address i⟩ = image.perform core i instruction := by
  have inside : i < image.code.length := (List.getElem?_eq_some_iff.mp here).1
  rw [step, image.fetch_address inside, Option.bind_some, here, Option.bind_some]

variable {image}

theorem reaches_plain {core after : Core} {i : Nat} {instruction : Instruction}
    (here : image.code[i]? = some instruction)
    (executed : execute image.symbol core instruction = some after) :
    image.Reaches ⟨core, image.address i⟩ ⟨after, image.address (i + 1)⟩ := by
  apply Relation.ReflTransGen.single
  rw [image.step_at core here]
  cases instruction with
  | jmp | jnz | call | ret => cases executed
  | _ => exact congrArg (Option.map fun core => State.mk core (image.address (i + 1))) executed

/-- `block` stands at the `i`th instruction. -/
def Holds (image : Image) (i : Nat) (block : List Instruction) : Prop :=
  ∀ k < block.length, image.code[i + k]? = block[k]?

theorem Holds.tail {i : Nat} {instruction : Instruction} {block : List Instruction}
    (held : image.Holds i (instruction :: block)) : image.Holds (i + 1) block := by
  intro k inside
  have next := held (k + 1) (Nat.succ_lt_succ inside)
  rwa [← Nat.add_assoc, Nat.add_right_comm, List.getElem?_cons_succ] at next

theorem holds_within (before block after : List Instruction)
    (listed : image.code = before ++ block ++ after) : image.Holds before.length block := by
  intro k inside
  rw [listed, List.append_assoc, List.getElem?_append_right (Nat.le_add_right _ _),
    Nat.add_sub_cancel_left, List.getElem?_append_left inside]

theorem reaches_block {block : List Instruction} :
    ∀ {i : Nat} {core after : Core}, image.Holds i block →
      executeAll image.symbol core block = some after →
        image.Reaches ⟨core, image.address i⟩ ⟨after, image.address (i + block.length)⟩ := by
  induction block with
  | nil =>
      intro i core after _ executed
      obtain rfl := Option.some.inj executed
      exact .refl
  | cons instruction block ih =>
      intro i core after held executed
      obtain ⟨next, first, rest⟩ := Option.bind_eq_some_iff.mp executed
      have here : image.code[i]? = some instruction := held 0 (Nat.succ_pos _)
      have later := ih held.tail rest
      rw [Nat.add_right_comm] at later
      exact (reaches_plain here first).trans later

end Image

/-! The stack. -/

/-- The word `count` words below the top. -/
def below (top : UInt64) (count : Nat) : UInt64 := top - UInt64.ofNat (8 * count)

theorem below_zero (top : UInt64) : below top 0 = top := UInt64.sub_zero top

theorem below_number (top : UInt64) (count : Nat) :
    (below top count).toNat = (2 ^ 64 - 8 * count % 2 ^ 64 + top.toNat) % 2 ^ 64 := by
  rw [below, UInt64.toNat_sub, UInt64.toNat_ofNat']

theorem below_add (top : UInt64) (count more : Nat) :
    below top (count + more) + UInt64.ofNat (8 * more) = below top count := by
  have split : UInt64.ofNat (8 * (count + more)) =
      UInt64.ofNat (8 * count) + UInt64.ofNat (8 * more) := by
    rw [Nat.mul_add, UInt64.ofNat_add]
  rw [below, below, split, UInt64.eq_sub_iff_add_eq, UInt64.add_assoc,
    UInt64.add_comm (UInt64.ofNat (8 * more)), UInt64.sub_add_cancel]

theorem below_sub (top : UInt64) (count more : Nat) :
    below top count - UInt64.ofNat (8 * more) = below top (count + more) :=
  (UInt64.eq_sub_iff_add_eq.mpr (below_add top count more)).symm

theorem below_succ (top : UInt64) (count : Nat) : below top count - 8 = below top (count + 1) :=
  below_sub top count 1

theorem below_pred (top : UInt64) (count : Nat) : below top (count + 1) + 8 = below top count :=
  below_add top count 1

theorem below_aligned {top : UInt64} (aligned : top % 8 = 0) (count : Nat) :
    below top count % 8 = 0 := by
  have whole : top.toNat % 8 = 0 := by simpa using congrArg UInt64.toNat aligned
  apply UInt64.toNat_inj.mp
  rw [UInt64.toNat_mod, below_number]
  change (2 ^ 64 - 8 * count % 2 ^ 64 + top.toNat) % 2 ^ 64 % 8 = 0
  omega

theorem below_inj {top : UInt64} {i j : Nat} (small : i < 64) (few : j < 64)
    (same : below top i = below top j) : i = j := by
  have numbers := congrArg UInt64.toNat same
  have bound := top.toNat_lt
  rw [below_number, below_number] at numbers
  omega

/-- Registers other than the stack pointer are pushed below the top. -/
theorem pushes (symbol : Nat → UInt64) {top : UInt64} (aligned : top % 8 = 0) :
    ∀ {names : List Register} {count : Nat} {core : Core}, (∀ name ∈ names, name ≠ .rsp) →
      count + names.length < 64 → core.registers .rsp = below top count →
      ∃ after, executeAll symbol core (names.map .pushq) = some after ∧
        after.registers .rsp = below top (count + names.length) ∧
        (∀ name, name ≠ .rsp → after.registers name = core.registers name) ∧
        (∀ i name, names[i]? = some name →
          after.memory (below top (count + i + 1)) = core.registers name) ∧
        ∀ address, (∀ i < names.length, address ≠ below top (count + i + 1)) →
          after.memory address = core.memory address := by
  intro names
  induction names with
  | nil =>
      intro count core _ _ pointer
      exact ⟨core, rfl, pointer, fun _ _ => rfl, fun i name found => absurd found (by simp),
        fun _ _ => rfl⟩
  | cons first rest ih =>
      intro count core apart small pointer
      have room : count + 1 + rest.length < 64 := by
        rw [List.length_cons] at small
        omega
      let pushed : Core :=
        { core.set .rsp (below top (count + 1)) with
          memory := Function.update core.memory (below top (count + 1)) (core.registers first) }
      have other {name : Register} (general : name ≠ .rsp) :
          pushed.registers name = core.registers name :=
        Function.update_of_ne general _ core.registers
      have pushing : execute symbol core (.pushq first) = some pushed := by
        rw [execute, Core.push, pointer, below_succ, Core.store]
        exact if_pos (below_aligned aligned (count + 1))
      have lowered : pushed.registers .rsp = below top (count + 1) := by simp [pushed, Core.set]
      obtain ⟨after, ran, pointed, kept, stored, elsewhere⟩ := @ih (count + 1) pushed
        (fun name member => apart name (List.mem_cons_of_mem first member)) room lowered
      have shifted (i : Nat) : count + 1 + i + 1 = count + (i + 1) + 1 := by omega
      refine ⟨after, ?_, ?_, fun name general => ?_, fun i name found => ?_, fun address away => ?_⟩
      · rw [List.map_cons, executeAll, List.foldlM_cons, pushing]
        exact ran
      · rw [pointed, List.length_cons, Nat.add_assoc, Nat.add_comm 1]
      · rw [kept name general, other general]
      · match i with
        | 0 =>
            obtain rfl : first = name := by simpa using found
            rw [elsewhere _ fun i inside same => ?_]
            · exact Function.update_self _ _ core.memory
            · have equal := below_inj (by omega) (by omega) same
              omega
        | i + 1 =>
            have member : name ∈ rest := List.mem_of_getElem? (by simpa using found)
            rw [← shifted, stored i name (by simpa using found),
              other (apart name (List.mem_cons_of_mem first member))]
      · rw [elsewhere address fun i inside => by
          rw [shifted]; exact away (i + 1) (Nat.succ_lt_succ inside)]
        exact Function.update_of_ne (away 0 (Nat.succ_pos _)) _ core.memory

/-- The words below the top are popped into distinct registers, the last one first. -/
theorem pops (symbol : Nat → UInt64) {top : UInt64} (aligned : top % 8 = 0) :
    ∀ {names : List Register} {count : Nat} {core : Core}, names.Nodup →
      (∀ name ∈ names, name ≠ .rsp) → core.registers .rsp = below top (count + names.length) →
      ∃ after, executeAll symbol core (names.map .popq) = some after ∧
        after.registers .rsp = below top count ∧
        (∀ i name, names[i]? = some name →
          after.registers name = core.memory (below top (count + names.length - i))) ∧
        (∀ name, name ≠ .rsp → name ∉ names → after.registers name = core.registers name) ∧
        after.memory = core.memory := by
  intro names
  induction names with
  | nil =>
      intro count core _ _ pointer
      exact ⟨core, rfl, pointer, fun i name found => absurd found (by simp), fun _ _ _ => rfl, rfl⟩
  | cons first rest ih =>
      intro count core distinct apart pointer
      obtain ⟨fresh, others⟩ := List.nodup_cons.mp distinct
      have general := apart first List.mem_cons_self
      let popped : Core :=
        (core.set .rsp (below top (count + rest.length))).set first
          (core.memory (below top (count + rest.length + 1)))
      have raised : popped.registers .rsp = below top (count + rest.length) := by
        simp [popped, Core.set, Function.update_of_ne general.symm]
      have held : popped.registers first = core.memory (below top (count + rest.length + 1)) := by
        simp [popped, Core.set]
      have kept {name : Register} (pointer : name ≠ .rsp) (other : name ≠ first) :
          popped.registers name = core.registers name := by
        simp [popped, Core.set, Function.update_of_ne other, Function.update_of_ne pointer]
      rw [List.length_cons, ← Nat.add_assoc] at pointer
      have popping : execute symbol core (.popq first) = some popped := by
        rw [execute, Core.pop, pointer, below_pred, Core.load,
          if_pos (below_aligned aligned (count + rest.length + 1))]
        rfl
      obtain ⟨after, ran, pointed, filled, other, same⟩ := @ih count popped others
        (fun name member => apart name (List.mem_cons_of_mem first member)) raised
      refine ⟨after, ?_, pointed, fun i name found => ?_, fun name general absent => ?_, same⟩
      · rw [List.map_cons, executeAll, List.foldlM_cons, popping]
        exact ran
      · match i with
        | 0 =>
            obtain rfl : first = name := by simpa using found
            rw [other first general fresh, held]
            rfl
        | i + 1 =>
            have place : count + (first :: rest).length - (i + 1) = count + rest.length - i := by
              rw [List.length_cons]
              omega
            rw [filled i name (by simpa using found), place]
            rfl
      · rw [List.mem_cons, not_or] at absent
        rw [other name general absent.2, kept general absent.1]

end KeryxMiner.X86
