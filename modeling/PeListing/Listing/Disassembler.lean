import PeListing.X86.Format
import PeListing.X86.Length

/-!
# Disassemblers

A listing needs a decoder of instructions and a formatter for them. A decoder works on some code. It
keeps the position of the next byte and the address that it takes this byte to have (`Cursor`), and
it moves both when it decodes. Where there is no instruction it may have moved anywhere. It can be
set to another position, which it may refuse.

`Disassembler.Core` has what a sweep needs to stay inside the code and to come to its end.
`Disassembler` adds that addresses keep up with positions, that no instruction is longer than 15
bytes and that no position in the code is refused. The formatter sees symbols only through the namer
of its style.
-/

namespace PeListing

/-- Where a decoder stands in some code. -/
structure Cursor where
  /-- The position of the next byte. -/
  position : Nat
  /-- The address that the decoder takes the next byte to have. -/
  ip : UInt64
  deriving DecidableEq, Repr

/-- A decoder of instructions that stays inside the code, and a formatter for them. -/
structure Disassembler.Core where
  /-- What the decoder gives. -/
  Instruction : Type
  /-- The number of bytes of an instruction. -/
  length : Instruction → Nat
  /-- The instruction that a decoder finds where it stands, if there is one, and where it stands
  afterwards. -/
  decode : X86.Mode → (code : Array UInt8) → Cursor → Option Instruction × Cursor
  /-- Sets a decoder to a position, or says why not. -/
  setPosition : (code : Array UInt8) → Cursor → (position : Nat) → Except String Cursor
  /-- The text of an instruction. -/
  format : X86.Style → X86.Mode → Instruction → String
  /-- An instruction takes some of the bytes, and the decoder stands behind it. -/
  decode_inside {mode : X86.Mode} {code : Array UInt8} {c c' : Cursor} {i : Instruction}
    (hc : c.position < code.size) (h : decode mode code c = (some i, c')) :
    0 < length i ∧ c.position + length i ≤ code.size ∧ c'.position = c.position + length i
  /-- A decoder that is set to a position stands there. -/
  setPosition_position {code : Array UInt8} {c c' : Cursor} {position : Nat}
    (h : setPosition code c position = .ok c') : c'.position = position

/-- A decoder that keeps the address of its position and can be set to every position, and a
formatter. -/
structure Disassembler extends Disassembler.Core where
  /-- No instruction is longer than 15 bytes. -/
  decode_short {mode : X86.Mode} {code : Array UInt8} {c c' : Cursor} {i : Instruction}
    (hc : c.position < code.size) (h : decode mode code c = (some i, c')) : length i ≤ 15
  /-- Behind an instruction the address has moved on as far as the position. -/
  decode_ip {mode : X86.Mode} {code : Array UInt8} {c c' : Cursor} {i : Instruction}
    (hc : c.position < code.size) (h : decode mode code c = (some i, c')) :
    c'.ip = c.ip + UInt64.ofNat (length i)
  /-- No position in the code is refused, and neither is its end. -/
  setPosition_isOk {code : Array UInt8} {c : Cursor} {position : Nat}
    (h : position ≤ code.size) : ∃ c', setPosition code c position = .ok c'

instance : Coe Disassembler Disassembler.Core := ⟨Disassembler.toCore⟩

namespace X86

/-- An instruction at its place in the code. -/
structure Placed where
  /-- The instruction. -/
  instruction : Instruction
  /-- The number of its bytes. -/
  length : Nat
  /-- The address behind it. -/
  next : UInt64
  deriving DecidableEq, Repr

/-- The bytes that an instruction at a position can have. -/
def window (code : Array UInt8) (position : Nat) : List UInt8 :=
  (code.extract position (position + maxLength)).toList

/-- Decodes where a decoder stands. Where there is no instruction, it has read all that an
instruction can have. -/
def decodeAt (mode : Mode) (code : Array UInt8) (c : Cursor) : Option Placed × Cursor :=
  let bytes := window code c.position
  match decode mode bytes with
  | some (i, length) =>
    let next := c.ip + UInt64.ofNat length
    (some ⟨i, length, next⟩, ⟨c.position + length, next⟩)
  | none => (none, ⟨c.position + bytes.length, c.ip + UInt64.ofNat bytes.length⟩)

/-- What there is to know of an instruction that has been decoded. -/
theorem decodeAt_eq_some {mode : Mode} {code : Array UInt8} {c c' : Cursor} {p : Placed}
    (hc : c.position < code.size) (h : decodeAt mode code c = (some p, c')) :
    0 < p.length ∧ p.length ≤ 15 ∧ c.position + p.length ≤ code.size ∧
      c'.position = c.position + p.length ∧ c'.ip = c.ip + UInt64.ofNat p.length := by
  have hwindow : (window code c.position).length ≤ 15 ∧
      c.position + (window code c.position).length ≤ code.size := by
    simp only [window, Array.length_toList, Array.size_extract, maxLength]
    omega
  unfold decodeAt at h
  dsimp only at h
  split at h
  · next i length hdecode =>
    obtain ⟨hp, rfl⟩ := Prod.mk.inj h
    obtain rfl := Option.some.inj hp
    have hlength := decode_length hdecode
    refine ⟨hlength.1, ?_, ?_, rfl, rfl⟩ <;> dsimp only <;> omega
  · cases h

/-- The disassembler for the instructions that this library knows. -/
def disassembler : Disassembler where
  Instruction := Placed
  length := Placed.length
  decode := decodeAt
  setPosition code c position :=
    if position ≤ code.size then .ok { c with position } else .error "Invalid position"
  format style mode p := style.instruction mode p.next p.instruction
  decode_inside hc h := by
    obtain ⟨hpos, -, hend, hposition, -⟩ := decodeAt_eq_some hc h
    exact ⟨hpos, hend, hposition⟩
  setPosition_position h := by
    split at h
    · rw [← Except.ok.inj h]
    · cases h
  decode_short hc h := (decodeAt_eq_some hc h).2.1
  decode_ip hc h := (decodeAt_eq_some hc h).2.2.2.2
  setPosition_isOk h := ⟨_, if_pos h⟩

end X86

end PeListing
