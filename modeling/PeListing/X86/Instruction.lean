/-!
# Instructions

The instructions that a listing knows: a mnemonic and its operands. Operands do not depend on
where the instruction stands; addresses relative to the next instruction stay relative until they
are printed.
-/

namespace PeListing.X86

/-- There are registers to number. -/
instance neZero_eight : @NeZero Nat Zero.ofOfNat0 8 := ⟨by decide⟩

/-- There are conditions to number. -/
instance neZero_sixteen : @NeZero Nat Zero.ofOfNat0 16 := ⟨by decide⟩

/-- The width of a register or of a place in memory. -/
inductive Width where
  /-- 8 bits. -/
  | byte
  /-- 32 bits. -/
  | dword
  /-- 64 bits. -/
  | qword
  deriving DecidableEq, Repr

/-- The number of bits. -/
def Width.bits : Width → Nat
  | .byte => 8
  | .dword => 32
  | .qword => 64

/-- How the width of a place in memory is printed. -/
def Width.keyword : Width → String
  | .byte => "byte ptr "
  | .dword => "dword ptr "
  | .qword => "qword ptr "

/-- A number as a word of some width. -/
def Width.word (w : Width) (n : Int) : UInt64 := UInt64.ofNat (n % (1 <<< w.bits)).toNat

/-- The mode in which the processor decodes. -/
inductive Mode where
  /-- 32-bit addresses. -/
  | bits32
  /-- 64-bit addresses. -/
  | bits64
  deriving DecidableEq, Repr

/-- The width of an address. -/
def Mode.width : Mode → Width
  | .bits32 => .dword
  | .bits64 => .qword

/-- A general register. -/
structure Register where
  /-- How much of the register is meant. -/
  width : Width
  /-- The register's number. -/
  index : Fin 8
  deriving DecidableEq, Repr

/-- The names of the registers of a width, in the order of their numbers. -/
def Register.names : Width → Vector String 8
  | .byte => #v["al", "cl", "dl", "bl", "ah", "ch", "dh", "bh"]
  | .dword => #v["eax", "ecx", "edx", "ebx", "esp", "ebp", "esi", "edi"]
  | .qword => #v["rax", "rcx", "rdx", "rbx", "rsp", "rbp", "rsi", "rdi"]

/-- The name of a register. -/
def Register.text (r : Register) : String := (Register.names r.width)[r.index]

/-- Whether addresses based on the register are relative to the stack segment. -/
def Register.isFrame (r : Register) : Bool := r.index = 5

/-- The address of a place in memory. -/
inductive Address where
  /-- The address itself. -/
  | absolute (address : UInt64)
  /-- So far from the next instruction. -/
  | relative (displacement : Int)
  /-- So far from what a register holds. -/
  | based (base : Register) (displacement : Int)
  deriving DecidableEq, Repr

/-- What an instruction works on. -/
inductive Operand where
  /-- A register. -/
  | register (r : Register)
  /-- A number. -/
  | immediate (value : UInt64)
  /-- A place in memory, printed with its width unless there is none. -/
  | memory (width : Option Width) (address : Address)
  /-- A place in the code, so far from the next instruction. -/
  | target (displacement : Int) (short : Bool)
  deriving DecidableEq, Repr

/-- The operations of two operands that share one encoding. -/
def arithmeticNames : Vector String 8 :=
  #v["add", "or", "adc", "sbb", "and", "sub", "xor", "cmp"]

/-- The jumps on a condition, in the order of the conditions' numbers. -/
def conditionalJumpNames : Vector String 16 :=
  #v["jo", "jno", "jb", "jae", "je", "jne", "jbe", "ja", "js", "jns", "jp", "jnp", "jl", "jge",
    "jle", "jg"]

/-- The operations. -/
inductive Mnemonic where
  | nop | ret | int3 | leave | hlt | clc | stc | cld | std | ud2
  | inc | dec | push | pop | test | mov | lea | int | call | jmp
  /-- One of the operations of two operands that share one encoding. -/
  | arithmetic (index : Fin 8)
  /-- A jump on a condition. -/
  | conditionalJump (condition : Fin 16)
  deriving DecidableEq, Repr

/-- The name of an operation. -/
def Mnemonic.text : Mnemonic → String
  | .nop => "nop"
  | .ret => "ret"
  | .int3 => "int3"
  | .leave => "leave"
  | .hlt => "hlt"
  | .clc => "clc"
  | .stc => "stc"
  | .cld => "cld"
  | .std => "std"
  | .ud2 => "ud2"
  | .inc => "inc"
  | .dec => "dec"
  | .push => "push"
  | .pop => "pop"
  | .test => "test"
  | .mov => "mov"
  | .lea => "lea"
  | .int => "int"
  | .call => "call"
  | .jmp => "jmp"
  | .arithmetic index => arithmeticNames[index]
  | .conditionalJump condition => conditionalJumpNames[condition]

/-- An operation and what it works on. -/
structure Instruction where
  /-- The operation. -/
  mnemonic : Mnemonic
  /-- What it works on, in the order in which it is printed. -/
  operands : List Operand := []
  deriving DecidableEq, Repr

end PeListing.X86
