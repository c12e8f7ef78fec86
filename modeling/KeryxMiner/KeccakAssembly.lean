import KeryxMiner.KeccakRound
import Mathlib.Logic.Function.Iterate

/-!
`keccakf1600_x86-64.s` permutes the lanes of its argument. It works in a second array on the stack,
and the arrays change places in every pass over the loop.
-/

namespace KeryxMiner.KeccakAssembly

open Keccak KeccakLanes KeccakListing KeccakRound X86

variable {image : Image}

/-- What is done to six lanes before and after the rounds. -/
def flipLanes (base : UInt64) (lanes : List Nat) (memory : UInt64 → UInt64) : UInt64 → UInt64 :=
  lanes.foldl (fun memory k => Function.update memory (slot base k) (~~~memory (slot base k)))
    memory

theorem flip_lanes_apart {base address : UInt64} {lanes : List Nat} (memory : UInt64 → UInt64)
    (apart : ∀ k ∈ lanes, address ≠ slot base k) :
    flipLanes base lanes memory address = memory address := by
  induction lanes generalizing memory with
  | nil => rfl
  | cons first rest ih =>
      rw [flipLanes, List.foldl_cons, ← flipLanes,
        ih _ fun k member => apart k (List.mem_cons_of_mem first member),
        Function.update_of_ne (apart first List.mem_cons_self)]

theorem flip_lanes_slot (base : UInt64) {lanes : List Nat} (distinct : lanes.Nodup)
    (inside : ∀ k ∈ lanes, k < 25) (memory : UInt64 → UInt64) {k : Nat} (within : k < 25) :
    flipLanes base lanes memory (slot base k) =
      flip (decide (k ∈ lanes)) (memory (slot base k)) := by
  induction lanes generalizing memory with
  | nil => rfl
  | cons first rest ih =>
      obtain ⟨fresh, others⟩ := List.nodup_cons.mp distinct
      rw [flipLanes, List.foldl_cons, ← flipLanes]
      by_cases same : k = first
      · subst same
        have apart : ∀ j ∈ rest, slot base k ≠ slot base j := by
          intro j member equal
          exact fresh (slot_inj within (inside j (List.mem_cons_of_mem k member)) equal ▸ member)
        rw [flip_lanes_apart _ apart]
        simp [KeccakRound.flip]
      · have apart : slot base k ≠ slot base first := fun equal =>
          same (slot_inj within (inside first List.mem_cons_self) equal)
        rw [ih others fun j member => inside j (List.mem_cons_of_mem first member),
          Function.update_of_ne apart]
        simp only [List.mem_cons, same, false_or]

theorem flips_run (symbol : Nat → UInt64) {base : UInt64} (aligned : base % 8 = 0)
    {lanes : List Nat} (inside : ∀ k ∈ lanes, k < 25) {core : Core}
    (pointer : core.registers .rdi = base + 100) :
    executeAll symbol core (lanes.map fun k : Nat => .notq (mem .rdi (8 * k - 100))) =
      some { core with memory := flipLanes base lanes core.memory } := by
  induction lanes generalizing core with
  | nil => rfl
  | cons first rest ih =>
      have place : laneOf (8 * first - 100) = first := by
        unfold laneOf
        omega
      have here : core.address .rdi (8 * first - 100) = slot base first := by
        have small := inside first List.mem_cons_self
        rw [Core.address, pointer, displaced base (by rwa [place]) (by rw [place]), place]
      have first_step : execute symbol core (.notq (mem .rdi (8 * first - 100))) =
          some { core with
            memory := Function.update core.memory (slot base first)
              (~~~core.memory (slot base first)) } := by
        rw [execute, Core.read, here, Core.load, if_pos (slot_aligned aligned first),
          Option.bind_eq_bind, Option.bind_some, Core.write, here, Core.store,
          if_pos (slot_aligned aligned first)]
      rw [List.map_cons, executeAll, List.foldlM_cons, first_step]
      exact ih (fun k member => inside k (List.mem_cons_of_mem first member)) pointer

def flipped : List Nat := [1, 2, 8, 12, 17, 20]

theorem complement_run (symbol : Nat → UInt64) {base : UInt64} (aligned : base % 8 = 0)
    {core : Core} (pointer : core.registers .rdi = base + 100) :
    executeAll symbol core complement =
      some { core with memory := flipLanes base flipped core.memory } :=
  flips_run symbol aligned (by decide : ∀ k ∈ flipped, k < 25) pointer

/-- The lanes at an address, as a state. -/
def stateAt (memory : UInt64 → UInt64) (base : UInt64) : Keccak.State :=
  fun x y => memory (slot base (5 * y.val + x.val))

theorem complement_stands (base : UInt64) (memory : UInt64 → UInt64) :
    Stands (fun k => flipLanes base flipped memory (slot base k)) (stateAt memory base) :=
  fun x y => flip_lanes_slot base (by decide) (by decide) memory (by omega)

theorem stands_complement {base : UInt64} {memory : UInt64 → UInt64} {state : Keccak.State}
    (stands : Stands (fun k => memory (slot base k)) state) :
    stateAt (flipLanes base flipped memory) base = state := by
  funext x y
  have word : memory (slot base (5 * y.val + x.val)) = _ := stands x y
  rw [stateAt, flip_lanes_slot base (by decide) (by decide) memory (by omega), word]
  cases member : complemented (5 * y.val + x.val)
  · have absent : decide (5 * y.val + x.val ∈ flipped) = false := member
    rw [absent]
    rfl
  · have present : decide (5 * y.val + x.val ∈ flipped) = true := member
    rw [present]
    exact UInt64.not_not

/-! The rounds. -/

theorem quads_constants : ∀ k < 24, quads[k]! = roundConstant k := by decide

theorem body_swaps (buffers : Buffers) : body.foldl Buffers.after buffers = buffers.swap := rfl

theorem swaps_even (buffers : Buffers) (pairs : Nat) :
    Buffers.swap^[2 * pairs] buffers = buffers := by
  rw [Function.iterate_mul]
  exact Function.iterate_fixed rfl pairs

theorem body_length : loopLabel + body.length = 201 := by
  simp only [body, List.length_append]
  rfl

/-- The table is placed so that the loop ends when the low byte of the pointer is zero. -/
theorem last_byte {table : UInt64} (placed : table % 256 = 64) {count : Nat} (few : count ≤ 24) :
    (slot table count &&& 255 == 0) = decide (count = 24) := by
  have low : table.toNat % 256 = 64 := by simpa using congrArg UInt64.toNat placed
  have masked : (slot table count &&& 255).toNat = (64 + 8 * count) % 256 := by
    have mask : (255 : UInt64).toNat = 2 ^ 8 - 1 := rfl
    rw [UInt64.toNat_and, mask, Nat.and_two_pow_sub_one_eq_mod, slot, UInt64.toNat_add,
      UInt64.toNat_ofNat']
    omega
  rw [Bool.eq_iff_iff, beq_iff_eq, decide_eq_true_eq, ← UInt64.toNat_inj, masked,
    UInt64.toNat_zero]
  omega

/-- The machine before a pass, `count` rounds done. -/
structure AtLoop (buffers : Buffers) (outside : UInt64 → UInt64) (stack : UInt64)
    (state : Keccak.State) (count : Nat) (core : Core) (lanes : LaneCore) : Prop where
  related : Related (Buffers.swap^[count] buffers) outside stack core lanes
  index : lanes.index = count
  entered : Entered lanes
  stands : Stands lanes.source (rounds count state)
  constants : ∀ k < 24, lanes.constants k = roundConstant k

section Rounds
variable {buffers : Buffers} {outside : UInt64 → UInt64} {stack : UInt64} {state : Keccak.State}
  {core : Core} {lanes : LaneCore}

/-- One pass, up to the jump at its end. -/
theorem pass (listed : image.code = code) (placed : buffers.table % 256 = 64) {count : Nat}
    (inside : count < 24) (begun : AtLoop buffers outside stack state count core lanes) :
    ∃ after lanes', image.Reaches ⟨core, image.address loopLabel⟩ ⟨after, image.address 202⟩ ∧
      AtLoop buffers outside stack state (count + 1) after lanes' ∧
      after.zero = decide (count + 1 = 24) := by
  obtain ⟨middle, ran, related⟩ := run_related image.symbol body_allowed
    (fun _ => begun.index.trans_lt inside) begun.related
  obtain ⟨stands, entered⟩ := body_round begun.stands begun.entered
  rw [body_swaps, ← Function.iterate_succ_apply' Buffers.swap] at related
  have block : image.Holds loopLabel body :=
    Image.holds_within (loads ++ [.jmp loopLabel]) body (loopEnd ++ outerCode) (by rw [listed]; rfl)
  have test : image.code[201]? = some (.testq 255 .r15) := by rw [listed]; rfl
  have index : (lanes.run body).index = count + 1 := by rw [body_index, begun.index]
  have swapped : (Buffers.swap^[count + 1] buffers).table = buffers.table := by
    clear related
    induction count + 1 with
    | zero => rfl
    | succ count ih =>
        rw [Function.iterate_succ_apply']
        exact ih
  have reached := Image.reaches_block block ran
  rw [body_length] at reached
  refine ⟨middle.flagged (middle.registers .r15 &&& 255), lanes.run body,
    reached.trans (Image.reaches_plain test rfl), ?_, ?_⟩
  · rw [begun.index, begun.constants count inside] at stands
    refine ⟨related.flagged _, index, entered, ?_, begun.constants⟩
    rw [rounds_succ]
    exact stands
  · rw [Core.flagged, related.table, index, swapped]
    exact last_byte placed inside

theorem passes (listed : image.code = code) (placed : buffers.table % 256 = 64)
    (begun : AtLoop buffers outside stack state 0 core lanes) {count : Nat} (inside : count < 24) :
    ∃ after lanes', image.Reaches ⟨core, image.address loopLabel⟩ ⟨after, image.address loopLabel⟩ ∧
      AtLoop buffers outside stack state count after lanes' := by
  induction count with
  | zero => exact ⟨core, lanes, .refl, begun⟩
  | succ count ih =>
      obtain ⟨before, lanes', reached, loop⟩ := ih (Nat.lt_of_succ_lt inside)
      obtain ⟨after, next, passed, again, zero⟩ :=
        pass listed placed (Nat.lt_of_succ_lt inside) loop
      have jump : image.code[202]? = some (.jnz loopLabel) := by rw [listed]; rfl
      have back : image.step ⟨after, image.address 202⟩ =
          some ⟨after, image.address loopLabel⟩ := by
        have more : after.zero = false := by rw [zero, decide_eq_false (by omega)]
        rw [image.step_at after jump, Image.perform, more]
        rfl
      exact ⟨after, next, (reached.trans passed).tail back, again⟩

/-- `__KeccakF1600`, called with its return address at `stack`. -/
theorem inner_permutes (listed : image.code = code) (placed : buffers.table % 256 = 64)
    (aligned : stack % 8 = 0)
    (away : ∀ k < 25, stack ≠ slot buffers.first k ∧ stack ≠ slot buffers.second k)
    (related : Related buffers outside stack core lanes) (fresh : lanes.index = 0)
    (stands : Stands lanes.source state)
    (constants : ∀ k < 24, lanes.constants k = roundConstant k) :
    ∃ after, image.Reaches ⟨core, image.address innerLabel⟩ ⟨after, outside stack⟩ ∧
      after.registers .rdi = buffers.first + 100 ∧ after.registers .rsp = stack + 8 ∧
      Stands (fun k => after.memory (slot buffers.first k)) (permute state) ∧
      ∀ address, (∀ k < 25, address ≠ slot buffers.first k ∧ address ≠ slot buffers.second k) →
        after.memory address = outside address := by
  have allow : allowedAll false loads = true := by decide
  obtain ⟨loaded, ran, related⟩ := run_related image.symbol allow (fun no => by cases no) related
  have block : image.Holds innerLabel loads :=
    Image.holds_within [] loads (.jmp loopLabel :: body ++ loopEnd ++ outerCode) (by rw [listed]; rfl)
  have jump : image.code[5]? = some (.jmp loopLabel) := by rw [listed]; rfl
  have begun : AtLoop buffers outside stack state 0 loaded (lanes.run loads) :=
    ⟨related, fresh, ⟨rfl, rfl, rfl, rfl, rfl⟩, stands, constants⟩
  obtain ⟨last, lanes', looped, loop⟩ := passes listed placed begun (by decide : 23 < 24)
  obtain ⟨done, final, passed, ended, zero⟩ := pass listed placed (by decide : 23 < 24) loop
  obtain ⟨related, index, -, stands, -⟩ := ended
  rw [swaps_even buffers 12] at related
  have still : image.code[202]? = some (.jnz loopLabel) := by rw [listed]; rfl
  have leaving : image.step ⟨done, image.address 202⟩ = some ⟨done, image.address 203⟩ := by
    rw [image.step_at done still, Image.perform, zero]
    rfl
  have rewind : image.code[203]? = some (.leaq .r15 (-192) .r15) := by rw [listed]; rfl
  have back : image.code[204]? = some .ret := by rw [listed]; rfl
  let rewound := done.set .r15 (done.address .r15 (-192))
  have pointer : rewound.registers .rsp = stack := related.stack
  have returned : image.step ⟨rewound, image.address 204⟩ =
      some ⟨rewound.set .rsp (stack + 8), outside stack⟩ := by
    have saved : rewound.memory stack = outside stack := related.outside stack away
    rw [image.step_at rewound back, Image.perform, Core.pop, pointer, Core.load, if_pos aligned,
      saved]
    rfl
  refine ⟨rewound.set .rsp (stack + 8), ?_, related.first, ?_, ?_, related.outside⟩
  · have entering : image.Reaches ⟨loaded, image.address 5⟩ ⟨loaded, image.address loopLabel⟩ :=
      .single (image.step_at loaded jump)
    exact ((((Image.reaches_block block ran).trans entering).trans looped).trans
      ((passed.tail leaving).trans (Image.reaches_plain rewind rfl))).tail returned
  · simp [Core.set]
  · intro x y
    have within : 5 * y.val + x.val < 25 := by omega
    exact (related.source _ within).trans (stands x y)

end Rounds

/-! The call. -/

/-- What `KeccakF1600` needs of its caller, and of where its code and its table were put. -/
structure Ready (image : Image) (core : Core) : Prop where
  listed : image.code = code
  aligned : core.registers .rdi % 8 = 0
  stack_aligned : core.registers .rsp % 8 = 0
  placed : image.symbol iotas % 256 = 64
  table : ∀ k < 24, core.memory (slot (image.symbol iotas) k) = quads[k]!
  state_table : ∀ i < 25, ∀ j < 24, slot (core.registers .rdi) i ≠ slot (image.symbol iotas) j
  state_stack : ∀ i < 25, ∀ j ≤ 32, slot (core.registers .rdi) i ≠ below (core.registers .rsp) j
  table_stack : ∀ i < 24, ∀ j ≤ 32, slot (image.symbol iotas) i ≠ below (core.registers .rsp) j

def saved : List Register := [.rbx, .rbp, .r12, .r13, .r14, .r15]

theorem slot_below (top : UInt64) {count k : Nat} (fits : k ≤ count) :
    slot (below top count) k = below top (count - k) := by
  have whole := below_add top (count - k) k
  rwa [Nat.sub_add_cancel fits] at whole

/-- The first part: the second array is below the saved registers. -/
theorem enter_run (symbol : Nat → UInt64) {core : Core} {base top : UInt64}
    (pointer : core.registers .rdi = base) (stack : core.registers .rsp = top)
    (aligned : top % 8 = 0) :
    ∃ after, executeAll symbol core enter = some after ∧
      after.registers .rdi = base + 100 ∧ after.registers .rsp = below top 31 ∧
      (∀ i name, saved[i]? = some name →
        after.memory (below top (i + 1)) = core.registers name) ∧
      ∀ address, (∀ i < 6, address ≠ below top (i + 1)) →
        after.memory address = core.memory address := by
  obtain ⟨pushed, ran, lowered, kept, stored, elsewhere⟩ := @pushes symbol top aligned saved 0 core
    (by decide) (by decide) (stack.trans (below_zero top).symm)
  simp only [Nat.zero_add] at stored elsewhere
  have rdi : pushed.registers .rdi = base := (kept .rdi (by decide)).trans pointer
  have reserve : below top (0 + saved.length) - 200 = below top 31 := below_sub top 6 25
  let moved := pushed.set .rdi (pushed.address .rdi 100)
  refine ⟨(moved.set .rsp (moved.registers .rsp - 200)).flagged (moved.registers .rsp - 200),
    ?_, ?_, ?_, stored, elsewhere⟩
  · exact (execute_all_append symbol ran).trans rfl
  · have address : pushed.address .rdi 100 = base + 100 := by
      rw [Core.address, rdi]
      rfl
    simp [moved, Core.flagged, Core.set, address]
  · rw [← reserve, ← lowered]
    simp [moved, Core.flagged, Core.set]

theorem leave_run (symbol : Nat → UInt64) {core : Core} {top : UInt64}
    (stack : core.registers .rsp = below top 31) (aligned : top % 8 = 0) :
    ∃ after, executeAll symbol core leave = some after ∧ after.registers .rsp = top ∧
      (∀ i name, saved[i]? = some name →
        after.registers name = core.memory (below top (i + 1))) ∧
      after.memory = core.memory := by
  let moved := core.set .rdi (core.address .rdi (-100))
  let raised := (moved.set .rsp (moved.registers .rsp + 200)).flagged (moved.registers .rsp + 200)
  have pointer : raised.registers .rsp = below top (0 + saved.reverse.length) := by
    have freed : below top 31 + 200 = below top (0 + saved.reverse.length) := below_add top 6 25
    rw [← freed, ← stack]
    simp [raised, moved, Core.flagged, Core.set]
  obtain ⟨after, ran, top_reached, filled, -, same⟩ :=
    @pops symbol top aligned saved.reverse 0 raised (by decide) (by decide) pointer
  have first : executeAll symbol core [.leaq .rdi (-100) .rdi, .addq 200 .rsp] = some raised := rfl
  refine ⟨after, (execute_all_append symbol first).trans ran,
    top_reached.trans (below_zero top), fun i name found => ?_, same⟩
  have inside : i < 6 := (List.getElem?_eq_some_iff.mp found).1
  have mirrored : saved.reverse[5 - i]? = some name := by
    rw [List.getElem?_reverse (by simp only [saved, List.length_cons, List.length_nil]; omega),
      ← found]
    congr 1
    simp only [saved, List.length_cons, List.length_nil]
    omega
  have place : 0 + saved.reverse.length - (5 - i) = i + 1 := by
    simp only [saved, List.length_reverse, List.length_cons, List.length_nil]
    omega
  rw [filled (5 - i) name mirrored, place]
  rfl

section Call
variable {core : Core}

def Ready.buffers (ready : Ready image core) : Buffers where
  first := core.registers .rdi
  second := below (core.registers .rsp) 31
  table := image.symbol iotas
  first_aligned := ready.aligned
  second_aligned := below_aligned ready.stack_aligned 31
  table_aligned := by
    have placed := congrArg UInt64.toNat ready.placed
    apply UInt64.toNat_inj.mp
    rw [UInt64.toNat_mod] at placed ⊢
    change _ % 256 = 64 at placed
    change _ % 8 = 0
    omega
  apart i inside j within := by
    rw [slot_below _ (by omega)]
    exact ready.state_stack i inside _ (by omega)
  first_table := ready.state_table
  second_table i inside j within := by
    rw [slot_below _ (by omega)]
    exact (ready.table_stack j within _ (by omega)).symm

/-- The words that the routine may write: the argument, and 32 words below the return address. -/
def Touched (core : Core) (address : UInt64) : Prop :=
  (∃ k < 25, address = slot (core.registers .rdi) k) ∨
    ∃ j < 32, address = below (core.registers .rsp) (j + 1)

/-- Up to the call, six lanes are complemented and the registers of the caller saved. -/
theorem call_run (ready : Ready image core) :
    ∃ called lanes, image.Reaches ⟨core, image.address outerLabel⟩
        ⟨called, image.address innerLabel⟩ ∧
      Related ready.buffers called.memory (below (core.registers .rsp) 32) called lanes ∧
      lanes.index = 0 ∧ Stands lanes.source (stateAt core.memory (core.registers .rdi)) ∧
      (∀ k < 24, lanes.constants k = roundConstant k) ∧
      called.memory (below (core.registers .rsp) 32) = image.address 222 ∧
      (∀ i name, saved[i]? = some name →
        called.memory (below (core.registers .rsp) (i + 1)) = core.registers name) ∧
      ∀ address, ¬Touched core address → called.memory address = core.memory address := by
  obtain ⟨entered, ran, rdi, rsp, stored, elsewhere⟩ :=
    enter_run image.symbol rfl rfl ready.stack_aligned
  have complemented := complement_run image.symbol ready.aligned rdi
  have unlike (i : Nat) (inside : i < 25) (j : Nat) (within : j < 24) :=
    ready.state_table i inside j within
  have under (i : Nat) (inside : i < 25) (j : Nat) (within : j ≤ 32) :=
    ready.state_stack i inside j within
  have distant (i : Nat) (inside : i < 24) (j : Nat) (within : j ≤ 32) :=
    ready.table_stack i inside j within
  have aligned := ready.stack_aligned
  generalize base_eq : core.registers .rdi = base at *
  generalize top_eq : core.registers .rsp = top at *
  let flipped_core : Core := { entered with memory := flipLanes base flipped entered.memory }
  let pointed := flipped_core.set .r15 (image.symbol iotas)
  let ready_core := pointed.set .rsi (pointed.address .rsp 100)
  let called : Core :=
    { ready_core.set .rsp (below top 32) with
      memory := Function.update ready_core.memory (below top 32) (image.address 222) }
  have block : image.Holds outerLabel (enter ++ complement ++ arguments) :=
    Image.holds_within innerCode _ ([.call innerLabel] ++ complement ++ leave ++ [.ret])
      (by rw [ready.listed]; rfl)
  have executed : executeAll image.symbol core (enter ++ complement ++ arguments) =
      some ready_core := by
    rw [List.append_assoc, execute_all_append image.symbol ran,
      execute_all_append image.symbol complemented]
    rfl
  have calling : image.code[221]? = some (.call innerLabel) := by rw [ready.listed]; rfl
  have stepped : image.step ⟨ready_core, image.address 221⟩ =
      some ⟨called, image.address innerLabel⟩ := by
    have pointer : ready_core.registers .rsp = below top 31 := rsp
    have pushed : ready_core.push (image.address 222) = some called := by
      rw [Core.push, pointer, below_succ, Core.store]
      exact if_pos (below_aligned aligned 32)
    rw [image.step_at ready_core calling, Image.perform, pushed]
    rfl
  have beyond (address : UInt64) (apart : address ≠ below top 32) :
      called.memory address = flipLanes base flipped entered.memory address :=
    Function.update_of_ne apart _ _
  have frame (address : UInt64) (apart : ∀ k < 25, address ≠ slot base k)
      (free : address ≠ below top 32) : called.memory address = entered.memory address := by
    have lanes_inside : ∀ k ∈ flipped, k < 25 := by decide
    rw [beyond address free, flip_lanes_apart _ fun k member => apart k (lanes_inside k member)]
  have begun (k : Nat) (inside : k < 25) :
      entered.memory (slot base k) = core.memory (slot base k) :=
    elsewhere _ fun i few => under k inside (i + 1) (by omega)
  let lanes : LaneCore :=
    { registers := called.registers
      source := fun k => called.memory (slot base k)
      target := fun k => called.memory (slot (below top 31) k)
      constants := fun k => called.memory (slot (image.symbol iotas) k)
      index := 0 }
  refine ⟨called, lanes, (Image.reaches_block block executed).tail stepped, ?_, rfl, ?_, ?_, ?_, ?_,
    ?_⟩
  · have rdi_called : called.registers .rdi = base + 100 := by
      simp [called, ready_core, pointed, flipped_core, Core.set, rdi]
    have rsi_called : called.registers .rsi = below top 31 + 100 := by
      have pointer : pointed.registers .rsp = below top 31 := rsp
      have moved : pointed.address .rsp 100 = below top 31 + 100 := by
        rw [Core.address, pointer]
        rfl
      simp [called, ready_core, Core.set, moved]
    have table_called : called.registers .r15 = image.symbol iotas := by
      simp [called, ready_core, pointed, Core.set]
    have lowered : called.registers .rsp = below top 32 := by
      simp [called, Core.set]
    have first : ready.buffers.first = base := base_eq
    have second : ready.buffers.second = below top 31 := congrArg (below · 31) top_eq
    exact {
      registers := fun _ _ => rfl
      first := by rw [rdi_called, first]
      second := by rw [rsi_called, second]
      table := table_called.trans (UInt64.add_zero _).symm
      stack := lowered
      source := fun _ _ => by rw [first]
      target := fun _ _ => by rw [second]
      constants := fun _ _ => rfl
      outside := fun _ _ => rfl }
  · have from_entry : stateAt entered.memory base = stateAt core.memory base := by
      funext x y
      exact begun _ (by omega)
    have stands := complement_stands base entered.memory
    rw [from_entry] at stands
    intro x y
    exact (beyond _ (under _ (by omega) 32 le_rfl)).trans (stands x y)
  · intro k inside
    have untouched : called.memory (slot (image.symbol iotas) k) =
        core.memory (slot (image.symbol iotas) k) := by
      rw [frame _ (fun i within => (unlike i within k inside).symm)
        (distant k inside 32 le_rfl)]
      exact elsewhere _ fun i few => distant k inside (i + 1) (by omega)
    exact untouched.trans ((ready.table k inside).trans (quads_constants k inside))
  · exact Function.update_self _ _ _
  · intro i name found
    have inside : i < 6 := (List.getElem?_eq_some_iff.mp found).1
    rw [frame _ (fun k within => (under k within (i + 1) (by omega)).symm) fun same => ?_]
    · exact stored i name found
    · have equal := below_inj (by omega) (by omega) same
      omega
  · intro address untouched
    have apart (k : Nat) (inside : k < 25) : address ≠ slot base k := fun same =>
      untouched (.inl ⟨k, inside, base_eq ▸ same⟩)
    have above (j : Nat) (inside : j < 32) : address ≠ below top (j + 1) := fun same =>
      untouched (.inr ⟨j, inside, top_eq ▸ same⟩)
    rw [frame address apart (above 31 (by decide))]
    exact elsewhere address fun i few => above i (by omega)

theorem stack_apart (ready : Ready image core) {j : Nat} (inside : j ≤ 32)
    (other : ∀ k < 25, j ≠ 31 - k) (k : Nat) (within : k < 25) :
    below (core.registers .rsp) j ≠ slot ready.buffers.first k ∧
      below (core.registers .rsp) j ≠ slot ready.buffers.second k := by
  refine ⟨(ready.state_stack k within j inside).symm, fun same => ?_⟩
  have second : slot ready.buffers.second k = below (core.registers .rsp) (31 - k) :=
    slot_below _ (by omega)
  rw [second] at same
  exact other k within (below_inj (by omega) (by omega) same)

/-- `KeccakF1600` permutes the state at `rdi`, returns to its caller with the registers that it
has to keep, and writes nothing but the state and 32 words of the stack. -/
theorem keccak_f1600_permutes (ready : Ready image core) :
    ∃ after, image.Reaches ⟨core, image.address outerLabel⟩
        ⟨after, core.memory (core.registers .rsp)⟩ ∧
      stateAt after.memory (core.registers .rdi) =
        permute (stateAt core.memory (core.registers .rdi)) ∧
      after.registers .rsp = core.registers .rsp + 8 ∧
      (∀ name ∈ saved, after.registers name = core.registers name) ∧
      ∀ address, ¬Touched core address → after.memory address = core.memory address := by
  obtain ⟨called, lanes, entered, related, fresh, stands, constants, back, stored, before⟩ :=
    call_run ready
  obtain ⟨returned, inside, rdi, rsp, permuted, kept⟩ := inner_permutes ready.listed ready.placed
    (below_aligned ready.stack_aligned 32) (stack_apart ready le_rfl (by omega)) related fresh
    stands constants
  rw [back] at inside
  have complemented := complement_run image.symbol ready.aligned rdi
  let flipped_core : Core :=
    { returned with memory := flipLanes (core.registers .rdi) flipped returned.memory }
  obtain ⟨last, left, top_reached, restored, same⟩ := @leave_run image.symbol flipped_core _
    (rsp.trans (below_pred _ 31)) ready.stack_aligned
  have block : image.Holds 222 (complement ++ leave) :=
    Image.holds_within (innerCode ++ enter ++ complement ++ arguments ++ [.call innerLabel]) _ [.ret]
      (by rw [ready.listed]; rfl)
  have executed := (execute_all_append image.symbol complemented).trans left
  have ending : image.code[236]? = some .ret := by rw [ready.listed]; rfl
  -- what neither part of the routine writes
  have frame (address : UInt64) (untouched : ∀ k < 25, address ≠ slot ready.buffers.first k ∧
      address ≠ slot ready.buffers.second k) : last.memory address = called.memory address := by
    have lanes_inside : ∀ k ∈ flipped, k < 25 := by decide
    rw [same, ← kept address untouched]
    exact flip_lanes_apart _ fun k member => (untouched k (lanes_inside k member)).1
  have top_kept : last.memory (core.registers .rsp) = core.memory (core.registers .rsp) := by
    have apart := stack_apart ready (Nat.zero_le 32) (by omega)
    rw [below_zero] at apart
    rw [frame _ apart]
    refine before _ fun touched => ?_
    obtain ⟨k, within, equal⟩ | ⟨j, within, equal⟩ := touched
    · exact (apart k within).1 equal
    · have none := below_inj (by decide : 0 < 64) (by omega) ((below_zero _).trans equal)
      omega
  have ret : image.step ⟨last, image.address 236⟩ =
      some ⟨last.set .rsp (core.registers .rsp + 8), core.memory (core.registers .rsp)⟩ := by
    rw [image.step_at last ending, Image.perform, Core.pop, top_reached, Core.load,
      if_pos ready.stack_aligned, top_kept]
    rfl
  refine ⟨last.set .rsp (core.registers .rsp + 8), ?_, ?_, ?_, fun name member => ?_,
    fun address untouched => ?_⟩
  · exact ((entered.trans inside).trans (Image.reaches_block block executed)).tail ret
  · change stateAt last.memory _ = _
    rw [same]
    exact stands_complement permuted
  · simp [Core.set]
  · obtain ⟨i, found⟩ := List.mem_iff_getElem?.mp member
    have few : i < 6 := (List.getElem?_eq_some_iff.mp found).1
    have general : name ≠ .rsp := by
      rintro rfl
      exact absurd member (by decide)
    have word := restored i name found
    rw [← same, frame _ (stack_apart ready (by omega) (by omega)), stored i name found] at word
    exact (Function.update_of_ne general _ last.registers).trans word
  · change last.memory address = _
    rw [frame address fun k within => ⟨fun equal => untouched (.inl ⟨k, within, equal⟩),
      fun equal => untouched (.inr ⟨30 - k, by omega, ?_⟩)⟩]
    · exact before address untouched
    · have second : slot ready.buffers.second k = below (core.registers .rsp) (31 - k) :=
        slot_below _ (by omega)
      have place : 31 - k = 30 - k + 1 := by omega
      rw [equal, second, place]

end Call

/-- The routine at `0x1000`, its table at `0x2040`. -/
def sampleImage : Image where
  code := code
  address i := 0x1000 + UInt64.ofNat i
  symbol _ := 0x2040
  distinct i inside j within same := by
    have few : code.length = 237 := by
      simp only [code, innerCode, body, outerCode, List.length_append]
      rfl
    have numbers := congrArg UInt64.toNat ((UInt64.add_right_inj _).mp same)
    rw [UInt64.toNat_ofNat', UInt64.toNat_ofNat'] at numbers
    omega

/-- The state is at `0x3000`. -/
def sampleCore : Core where
  registers
    | .rdi => 0x3000
    | .rsp => 0x8000
    | _ => 0
  zero := false
  memory address :=
    if 0x2040 ≤ address ∧ address < 0x2100 then quads[((address - 0x2040) / 8).toNat]!
    else address

theorem sample_ready : Ready sampleImage sampleCore where
  listed := rfl
  aligned := by decide
  stack_aligned := by decide
  placed := by decide
  table := by decide
  state_table := by decide
  state_stack := by decide
  table_stack := by decide

theorem keccak_f1600_permutes_sample :
    ∃ after, sampleImage.Reaches ⟨sampleCore, sampleImage.address outerLabel⟩
        ⟨after, sampleCore.memory 0x8000⟩ ∧
      stateAt after.memory 0x3000 = permute (stateAt sampleCore.memory 0x3000) ∧
      after.registers .rsp = 0x8008 ∧
      (∀ name ∈ saved, after.registers name = sampleCore.registers name) ∧
      ∀ address, ¬Touched sampleCore address →
        after.memory address = sampleCore.memory address :=
  keccak_f1600_permutes sample_ready

end KeryxMiner.KeccakAssembly
