import PeListing.Bytes.LittleEndian
import PeListing.X86.Instruction

/-!
# Decoding instructions

A decoder takes bytes from the front of a list and fails where they run out or are no instruction.
`decode` gives the instruction at the front of some bytes and its length. An instruction has at
most fifteen bytes, so no more are looked at.
-/

namespace PeListing.X86

/-- Takes bytes from the front of a list, or fails. -/
abbrev Decoder (α : Type) : Type := StateT (List UInt8) Option α

namespace Decoder

/-- The next byte. -/
def byte : Decoder UInt8
  | [] => none
  | b :: rest => some (b, rest)

/-- The unsigned number in the next bytes. -/
def unsigned : (width : Nat) → Decoder Nat
  | 0 => return 0
  | width + 1 => do
    let low ← byte
    return low.toNat + 256 * (← unsigned width)

/-- The signed number in the next bytes. -/
def signed (width : Nat) : Decoder Int := do
  return Int.bmod (← unsigned width) (1 <<< (8 * width))

/-- An immediate operand of four bytes, extended with its sign to a width. -/
def immediate32 (w : Width) : Decoder Operand := return .immediate (w.word (← signed 4))

/-- An immediate operand of one byte, extended with its sign to a width. -/
def immediate8 (w : Width) : Decoder Operand := return .immediate (w.word (← signed 1))

/-- A register, or a place in memory. -/
inductive Place where
  /-- The register of some number. -/
  | register (index : Fin 8)
  /-- A place in memory. -/
  | memory (address : Address)

/-- The operand that stands for a place of some width. -/
def Place.operand (w : Width) : Place → Operand
  | .register index => .register ⟨w, index⟩
  | .memory address => .memory (some w) address

/-- The place that the fields of an operand byte select, with the displacement behind the byte.
Number 4 would call for a further byte, which this decoder does not know. -/
def place (mode : Mode) (addressing : Nat) (number : Fin 8) : Decoder Place := do
  let base : Register := ⟨mode.width, number⟩
  if addressing = 3 then return .register number
  else if number = 4 then failure
  else if addressing = 0 then
    if number = 5 then
      match mode with
      | .bits32 => return .memory (.absolute (UInt64.ofNat (← unsigned 4)))
      | .bits64 => return .memory (.relative (← signed 4))
    else return .memory (.based base 0)
  else if addressing = 1 then return .memory (.based base (← signed 1))
  else return .memory (.based base (← signed 4))

/-- An operand byte: a number that selects a register or an operation, and a place. -/
def operands (mode : Mode) : Decoder (Fin 8 × Place) := do
  let b ← byte
  let p ← place mode (b.toNat / 64) (Fin.ofNat 8 b.toNat)
  return (Fin.ofNat 8 (b.toNat / 8), p)

/-- A place and a register of one width, in this order. -/
def placeAndRegister (mode : Mode) (w : Width) (m : Mnemonic) : Decoder Instruction := do
  let (number, p) ← operands mode
  return ⟨m, [p.operand w, .register ⟨w, number⟩]⟩

/-- A register and a place of one width, in this order. -/
def registerAndPlace (mode : Mode) (w : Width) (m : Mnemonic) : Decoder Instruction := do
  let (number, p) ← operands mode
  return ⟨m, [.register ⟨w, number⟩, p.operand w]⟩

/-- A place in the code, given by so many bytes. -/
def branch (m : Mnemonic) (width : Nat) : Decoder Instruction :=
  return ⟨m, [.target (← signed width) (width = 1)]⟩

/-- The operations of two operands that share one encoding, by the form that the low three bits
select. -/
def arithmetic (mode : Mode) (m : Mnemonic) (form : Nat) : Decoder Instruction :=
  match form with
  | 0 => placeAndRegister mode .byte m
  | 1 => placeAndRegister mode .dword m
  | 2 => registerAndPlace mode .byte m
  | 3 => registerAndPlace mode .dword m
  | 4 => return ⟨m, [.register ⟨.byte, 0⟩, ← immediate8 .byte]⟩
  | 5 => return ⟨m, [.register ⟨.dword, 0⟩, ← immediate32 .dword]⟩
  | _ => failure

/-- The instructions whose operands may be of 32 or of 64 bits, by their first byte. -/
def sized (mode : Mode) (w : Width) (opcode : Nat) : Decoder Instruction :=
  match opcode with
  | 0x81 => do
    let (number, p) ← operands mode
    return ⟨.arithmetic number, [p.operand w, ← immediate32 w]⟩
  | 0x83 => do
    let (number, p) ← operands mode
    return ⟨.arithmetic number, [p.operand w, ← immediate8 w]⟩
  | 0x85 => placeAndRegister mode w .test
  | 0x89 => placeAndRegister mode w .mov
  | 0x8B => registerAndPlace mode w .mov
  | 0x8D => do
    let (number, p) ← operands mode
    match p with
    | .register _ => failure
    | .memory address => return ⟨.lea, [.register ⟨w, number⟩, .memory none address]⟩
  | 0xC7 => do
    let (number, p) ← operands mode
    if number ≠ 0 then failure
    else return ⟨.mov, [p.operand w, ← immediate32 w]⟩
  | _ =>
    if opcode < 0x40 then
      let m := Mnemonic.arithmetic (Fin.ofNat 8 (opcode / 8))
      match opcode % 8 with
      | 1 => placeAndRegister mode w m
      | 3 => registerAndPlace mode w m
      | _ => failure
    else failure

/-- The instructions behind the byte `0F`. -/
def extended : Decoder Instruction := do
  let opcode := (← byte).toNat
  if opcode = 0x0B then return ⟨.ud2, []⟩
  else if 0x80 ≤ opcode ∧ opcode < 0x90 then
    branch (.conditionalJump (Fin.ofNat 16 opcode)) 4
  else failure

/-- The instructions on one place that the byte `FF` opens. -/
def unary (mode : Mode) : Decoder Instruction := do
  let (number, p) ← operands mode
  match number with
  | 0 => return ⟨.inc, [p.operand .dword]⟩
  | 1 => return ⟨.dec, [p.operand .dword]⟩
  | 2 => return ⟨.call, [p.operand mode.width]⟩
  | 4 => return ⟨.jmp, [p.operand mode.width]⟩
  | 6 => return ⟨.push, [p.operand mode.width]⟩
  | _ => failure

/-- The instructions whose first byte holds a number in its low bits. -/
def numbered (mode : Mode) (opcode : Nat) : Decoder Instruction :=
  let number := Fin.ofNat 8 opcode
  match opcode / 8 with
  | 0x08 => match mode with
    | .bits32 => return ⟨.inc, [.register ⟨.dword, number⟩]⟩
    | .bits64 => failure
  | 0x09 => match mode with
    | .bits32 => return ⟨.dec, [.register ⟨.dword, number⟩]⟩
    | .bits64 => failure
  | 0x0A => return ⟨.push, [.register ⟨mode.width, number⟩]⟩
  | 0x0B => return ⟨.pop, [.register ⟨mode.width, number⟩]⟩
  | 0x0E | 0x0F => branch (.conditionalJump (Fin.ofNat 16 opcode)) 1
  | 0x17 => return ⟨.mov, [.register ⟨.dword, number⟩, ← immediate32 .dword]⟩
  | _ => sized mode .dword opcode

/-- A move between the accumulator and an absolute address, in 32-bit mode only. -/
def absoluteMove (mode : Mode) (load : Bool) : Decoder Instruction :=
  match mode with
  | .bits64 => failure
  | .bits32 => do
    let place := Operand.memory (some .dword) (.absolute (UInt64.ofNat (← unsigned 4)))
    let accumulator := Operand.register ⟨.dword, 0⟩
    return ⟨.mov, if load then [accumulator, place] else [place, accumulator]⟩

/-- The instruction that a first byte opens, where it does not widen the operands. -/
def plain (mode : Mode) (opcode : Nat) : Decoder Instruction :=
  match opcode with
  | 0x0F => extended
  | 0x68 => return ⟨.push, [← immediate32 mode.width]⟩
  | 0x6A => return ⟨.push, [← immediate8 mode.width]⟩
  | 0x90 => return ⟨.nop, []⟩
  | 0xA1 => absoluteMove mode true
  | 0xA3 => absoluteMove mode false
  | 0xC2 => return ⟨.ret, [.immediate (UInt64.ofNat (← unsigned 2))]⟩
  | 0xC3 => return ⟨.ret, []⟩
  | 0xC9 => return ⟨.leave, []⟩
  | 0xCC => return ⟨.int3, []⟩
  | 0xCD => return ⟨.int, [← immediate8 .byte]⟩
  | 0xE8 => branch .call 4
  | 0xE9 => branch .jmp 4
  | 0xEB => branch .jmp 1
  | 0xF4 => return ⟨.hlt, []⟩
  | 0xF8 => return ⟨.clc, []⟩
  | 0xF9 => return ⟨.stc, []⟩
  | 0xFC => return ⟨.cld, []⟩
  | 0xFD => return ⟨.std, []⟩
  | 0xFF => unary mode
  | _ =>
    if opcode < 0x40 then
      arithmetic mode (.arithmetic (Fin.ofNat 8 (opcode / 8))) (opcode % 8)
    else numbered mode opcode

/-- One instruction. In 64-bit mode the byte `48` widens the operands of what follows. -/
def instruction (mode : Mode) : Decoder Instruction := do
  let first := (← byte).toNat
  if mode = .bits64 ∧ first = 0x48 then sized mode .qword (← byte).toNat
  else plain mode first

end Decoder

/-- No instruction is longer than this. -/
def maxLength : Nat := 15

/-- The instruction at the front of some bytes and its length, if there is one. -/
def decode (mode : Mode) (bytes : List UInt8) : Option (Instruction × Nat) :=
  let front := bytes.take maxLength
  ((Decoder.instruction mode).run front).map fun (i, rest) => (i, front.length - rest.length)

end PeListing.X86
