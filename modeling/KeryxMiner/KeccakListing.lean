import KeryxMiner.X86Machine

/-!
The instructions of `keccakf1600_x86-64.s`, and of its counterpart for macOS. Both entries begin
with an `endbr64`, which does nothing and is left out, as is the padding between the routines.
-/

namespace KeryxMiner.KeccakListing

open X86 X86.Instruction X86.Register

abbrev mem (base : Register) (displacement : Int) : Operand := .memory base displacement

/-! Labels, as places in the code. -/

def innerLabel : Nat := 0

def loopLabel : Nat := 6

def iotas : Nat := 0

/-! `__KeccakF1600`. -/

def loads : List Instruction :=
  [movq (mem rdi 60) rax, movq (mem rdi 68) rbx, movq (mem rdi 76) rcx, movq (mem rdi 84) rdx,
    movq (mem rdi 92) rbp]

def parities : List Instruction :=
  [movq (mem rdi (-100)) r8, movq (mem rdi (-52)) r9, movq (mem rdi (-4)) r10,
    movq (mem rdi 44) r11,
    xorq (mem rdi (-84)) rcx, xorq (mem rdi (-76)) rdx, xorq r8 rax, xorq (mem rdi (-92)) rbx,
    xorq (mem rdi (-44)) rcx, xorq (mem rdi (-60)) rax, movq rbp r12, xorq (mem rdi (-68)) rbp,
    xorq r10 rcx, xorq (mem rdi (-20)) rax, xorq (mem rdi (-36)) rdx, xorq r9 rbx,
    xorq (mem rdi (-28)) rbp,
    xorq (mem rdi 36) rcx, xorq (mem rdi 20) rax, xorq (mem rdi 4) rdx, xorq (mem rdi (-12)) rbx,
    xorq (mem rdi 12) rbp,
    movq rcx r13, rolq 1 rcx, xorq rax rcx, xorq r11 rdx,
    rolq 1 rax, xorq rdx rax, xorq (mem rdi 28) rbx,
    rolq 1 rdx, xorq rbx rdx, xorq (mem rdi 52) rbp,
    rolq 1 rbx, xorq rbp rbx,
    rolq 1 rbp, xorq r13 rbp]

def plane0 : List Instruction :=
  [xorq rcx r9, xorq rdx r10, rolq 44 r9, xorq rbp r11, xorq rax r12, rolq 43 r10, xorq rbx r8,
    movq r9 r13, rolq 21 r11, orq r10 r9, xorq r8 r9, rolq 14 r12,
    xorq (mem r15 0) r9, leaq r15 8 r15,
    movq r12 r14, andq r11 r12, movq r9 (mem rsi (-100)), xorq r10 r12, notq r10,
    movq r12 (mem rsi (-84)),
    orq r11 r10, movq (mem rdi 76) r12, xorq r13 r10, movq r10 (mem rsi (-92)),
    andq r8 r13, movq (mem rdi (-28)) r9, xorq r14 r13, movq (mem rdi (-20)) r10,
    movq r13 (mem rsi (-68)),
    orq r8 r14, movq (mem rdi (-76)) r8, xorq r11 r14, movq (mem rdi 28) r11,
    movq r14 (mem rsi (-76))]

def plane1 : List Instruction :=
  [xorq rbp r8, xorq rdx r12, rolq 28 r8, xorq rcx r11, xorq rax r9, rolq 61 r12, rolq 45 r11,
    xorq rbx r10, rolq 20 r9, movq r8 r13, orq r12 r8, rolq 3 r10,
    xorq r11 r8, movq r8 (mem rsi (-36)),
    movq r9 r14, andq r13 r9, movq (mem rdi (-92)) r8, xorq r12 r9, notq r12,
    movq r9 (mem rsi (-28)),
    orq r11 r12, movq (mem rdi (-44)) r9, xorq r10 r12, movq r12 (mem rsi (-44)),
    andq r10 r11, movq (mem rdi 60) r12, xorq r14 r11, movq r11 (mem rsi (-52)),
    orq r10 r14, movq (mem rdi 4) r10, xorq r13 r14, movq (mem rdi 52) r11,
    movq r14 (mem rsi (-60))]

def plane2 : List Instruction :=
  [xorq rbp r10, xorq rax r11, rolq 25 r10, xorq rdx r9, rolq 8 r11, xorq rbx r12, rolq 6 r9,
    xorq rcx r8, rolq 18 r12, movq r10 r13, andq r11 r10, rolq 1 r8,
    notq r11, xorq r9 r10, movq r10 (mem rsi (-12)),
    movq r12 r14, andq r11 r12, movq (mem rdi (-12)) r10, xorq r13 r12, movq r12 (mem rsi (-4)),
    orq r9 r13, movq (mem rdi 84) r12, xorq r8 r13, movq r13 (mem rsi (-20)),
    andq r8 r9, xorq r14 r9, movq r9 (mem rsi 12),
    orq r8 r14, movq (mem rdi (-60)) r9, xorq r11 r14, movq (mem rdi 36) r11, movq r14 (mem rsi 4)]

def plane3 : List Instruction :=
  [movq (mem rdi (-68)) r8,
    xorq rcx r10, xorq rdx r11, rolq 10 r10, xorq rbx r9, rolq 15 r11, xorq rbp r12, rolq 36 r9,
    xorq rax r8, rolq 56 r12, movq r10 r13, orq r11 r10, rolq 27 r8,
    notq r11, xorq r9 r10, movq r10 (mem rsi 28),
    movq r12 r14, orq r11 r12, xorq r13 r12, movq r12 (mem rsi 36),
    andq r9 r13, xorq r8 r13, movq r13 (mem rsi 20),
    orq r8 r9, xorq r14 r9, movq r9 (mem rsi 52),
    andq r14 r8, xorq r11 r8, movq r8 (mem rsi 44)]

def plane4 : List Instruction :=
  [xorq (mem rdi (-84)) rdx, xorq (mem rdi (-36)) rbp, rolq 62 rdx, xorq (mem rdi 68) rcx,
    rolq 55 rbp, xorq (mem rdi 12) rax, rolq 2 rcx, xorq (mem rdi 20) rbx, xchgq rsi rdi,
    rolq 39 rax, rolq 41 rbx, movq rdx r13, andq rbp rdx, notq rbp, xorq rcx rdx,
    movq rdx (mem rdi 92),
    movq rax r14, andq rbp rax, xorq r13 rax, movq rax (mem rdi 60),
    orq rcx r13, xorq rbx r13, movq r13 (mem rdi 84),
    andq rbx rcx, xorq r14 rcx, movq rcx (mem rdi 76),
    orq r14 rbx, xorq rbp rbx, movq rbx (mem rdi 68),
    movq rdx rbp, movq r13 rdx]

def loopEnd : List Instruction :=
  [testq 255 r15, jnz loopLabel,
    leaq r15 (-192) r15, ret]

def body : List Instruction := parities ++ plane0 ++ plane1 ++ plane2 ++ plane3 ++ plane4

/-! `KeccakF1600`. -/

def enter : List Instruction :=
  [pushq rbx, pushq rbp, pushq r12, pushq r13, pushq r14, pushq r15,
    leaq rdi 100 rdi, subq 200 rsp]

def complement : List Instruction :=
  [notq (mem rdi (-92)), notq (mem rdi (-84)), notq (mem rdi (-36)), notq (mem rdi (-4)),
    notq (mem rdi 36), notq (mem rdi 60)]

def arguments : List Instruction := [leaqRip iotas r15, leaq rsp 100 rsi]

def leave : List Instruction :=
  [leaq rdi (-100) rdi,
    addq 200 rsp,
    popq r15, popq r14, popq r13, popq r12, popq rbp, popq rbx]

def outerCode : List Instruction :=
  enter ++ complement ++ arguments ++ [call innerLabel] ++ complement ++ leave ++ [ret]

def innerCode : List Instruction := loads ++ [jmp loopLabel] ++ body ++ loopEnd

def code : List Instruction := innerCode ++ outerCode

/-- Where `KeccakF1600` begins. -/
def outerLabel : Nat := 205

example : outerLabel = innerCode.length := rfl

/-- The words at `iotas`. -/
def quads : Vector UInt64 24 :=
  #v[0x0000000000000001, 0x0000000000008082, 0x800000000000808a, 0x8000000080008000,
    0x000000000000808b, 0x0000000080000001, 0x8000000080008081, 0x8000000000008009,
    0x000000000000008a, 0x0000000000000088, 0x0000000080008009, 0x000000008000000a,
    0x000000008000808b, 0x800000000000008b, 0x8000000000008089, 0x8000000000008003,
    0x8000000000008002, 0x8000000000000080, 0x000000000000800a, 0x800000008000000a,
    0x8000000080008081, 0x8000000000008080, 0x0000000080000001, 0x8000000080008008]

end KeryxMiner.KeccakListing
