import PeListing.X86.Decode

/-!
# The length of an instruction

A decoder takes bytes from the front and never puts any back (`Decoder.Forward`). Since every
instruction begins with a byte, `decode` gives a length that is not zero and that the bytes have
(`decode_length`).
-/

namespace PeListing.X86

namespace Decoder

variable {α β : Type}

/-- What a decoder leaves is not longer than what it was given. -/
def Forward (d : Decoder α) : Prop :=
  ∀ ⦃bytes : List UInt8⦄ ⦃a : α⦄ ⦃rest : List UInt8⦄,
    d.run bytes = some (a, rest) → rest.length ≤ bytes.length

/-- A decoder that reads nothing leaves all bytes. -/
theorem Forward.pure (a : α) : Forward (Pure.pure a : Decoder α) := by
  intro bytes a' rest h
  cases h
  exact Nat.le_refl _

/-- A decoder that fails has nothing to leave. -/
theorem Forward.failure : Forward (failure : Decoder α) := by
  intro bytes a rest h
  cases h

/-- Decoders in sequence only go forward if each does. -/
theorem Forward.bind {d : Decoder α} {f : α → Decoder β} (hd : Forward d)
    (hf : ∀ a, Forward (f a)) : Forward (d >>= f) := by
  intro bytes b rest h
  change (d.run bytes).bind (fun r => (f r.1).run r.2) = some (b, rest) at h
  obtain ⟨⟨a, middle⟩, hfirst, hsecond⟩ := Option.bind_eq_some_iff.mp h
  exact Nat.le_trans (hf a hsecond) (hd hfirst)

/-- What becomes of the value does not move the decoder. -/
theorem Forward.map {d : Decoder α} {f : α → β} (hd : Forward d) :
    Forward (do return f (← d)) := hd.bind fun _ => .pure _

/-- Reading a byte makes the rest shorter by one. -/
theorem length_of_byte {bytes : List UInt8} {b : UInt8} {rest : List UInt8}
    (h : byte.run bytes = some (b, rest)) : bytes.length = rest.length + 1 := by
  cases bytes with
  | nil => cases h
  | cons first bytes =>
    cases h
    rfl

/-- A byte is read from the front. -/
theorem Forward.byte : Forward byte := by
  intro bytes b rest h
  have := length_of_byte h
  omega

/-- An unsigned number is read byte by byte. -/
theorem Forward.unsigned (width : Nat) : Forward (unsigned width) := by
  induction width with
  | zero => exact .pure 0
  | succ width ih => exact Forward.byte.bind fun _ => ih.map

/-- A signed number is read as an unsigned one. -/
theorem Forward.signed (width : Nat) : Forward (signed width) := (Forward.unsigned width).map

/-- An immediate operand of four bytes is a signed number. -/
theorem Forward.immediate32 (w : Width) : Forward (immediate32 w) := (Forward.signed 4).map

/-- An immediate operand of one byte is a signed number. -/
theorem Forward.immediate8 (w : Width) : Forward (immediate8 w) := (Forward.signed 1).map

/-- A place in memory is read with its displacement. -/
theorem Forward.place (mode : Mode) (addressing : Nat) (number : Fin 8) :
    Forward (place mode addressing number) := by
  unfold Decoder.place
  split
  · exact .pure _
  split
  · exact .failure
  split
  · split
    · cases mode
      · exact (Forward.unsigned 4).map
      · exact (Forward.signed 4).map
    · exact .pure _
  split
  · exact (Forward.signed 1).map
  · exact (Forward.signed 4).map

/-- The byte of the operands is read first, then the place. -/
theorem Forward.operands (mode : Mode) : Forward (operands mode) :=
  Forward.byte.bind fun _ => (Forward.place mode _ _).map

/-- A place and a register are the operands of one byte. -/
theorem Forward.placeAndRegister (mode : Mode) (w : Width) (m : Mnemonic) :
    Forward (placeAndRegister mode w m) := (Forward.operands mode).map

/-- A register and a place are the operands of one byte. -/
theorem Forward.registerAndPlace (mode : Mode) (w : Width) (m : Mnemonic) :
    Forward (registerAndPlace mode w m) := (Forward.operands mode).map

/-- The distance of a branch is a number. -/
theorem Forward.branch (m : Mnemonic) (width : Nat) : Forward (branch m width) :=
  (Forward.signed width).map

/-- Every form of an arithmetic instruction only goes forward. -/
theorem Forward.arithmetic (mode : Mode) (m : Mnemonic) (form : Nat) :
    Forward (arithmetic mode m form) := by
  unfold Decoder.arithmetic
  split
  · exact .placeAndRegister mode _ m
  · exact .placeAndRegister mode _ m
  · exact .registerAndPlace mode _ m
  · exact .registerAndPlace mode _ m
  · exact (Forward.immediate8 _).map
  · exact (Forward.immediate32 _).map
  · exact .failure

/-- The instructions with operands of 32 or 64 bits only go forward. -/
theorem Forward.sized (mode : Mode) (w : Width) (opcode : Nat) :
    Forward (sized mode w opcode) := by
  unfold Decoder.sized
  split
  · exact (Forward.operands mode).bind fun _ => (Forward.immediate32 w).map
  · exact (Forward.operands mode).bind fun _ => (Forward.immediate8 w).map
  · exact .placeAndRegister mode w _
  · exact .placeAndRegister mode w _
  · exact .registerAndPlace mode w _
  · refine (Forward.operands mode).bind ?_
    rintro ⟨number, _ | address⟩
    · exact .failure
    · exact .pure _
  · refine (Forward.operands mode).bind ?_
    rintro ⟨number, p⟩
    dsimp only
    split
    · exact .failure
    · exact (Forward.immediate32 w).map
  · split
    · dsimp only
      split
      · exact .placeAndRegister mode w _
      · exact .registerAndPlace mode w _
      · exact .failure
    · exact .failure

/-- The instructions behind the byte `0F` only go forward. -/
theorem Forward.extended : Forward extended := by
  refine Forward.byte.bind fun b => ?_
  dsimp only
  split
  · exact .pure _
  split
  · exact .branch _ 4
  · exact .failure

/-- The instructions that the byte `FF` opens only go forward. -/
theorem Forward.unary (mode : Mode) : Forward (unary mode) := by
  refine (Forward.operands mode).bind ?_
  rintro ⟨number, p⟩
  dsimp only
  split
  all_goals first
    | exact .pure _
    | exact .failure

/-- The instructions whose first byte holds a number only go forward. -/
theorem Forward.numbered (mode : Mode) (opcode : Nat) : Forward (numbered mode opcode) := by
  unfold Decoder.numbered
  dsimp only
  split
  · cases mode
    · exact .pure _
    · exact .failure
  · cases mode
    · exact .pure _
    · exact .failure
  · exact .pure _
  · exact .pure _
  · exact .branch _ 1
  · exact .branch _ 1
  · exact (Forward.immediate32 _).map
  · exact .sized mode _ opcode

/-- A move from or to an absolute address only goes forward. -/
theorem Forward.absoluteMove (mode : Mode) (load : Bool) : Forward (absoluteMove mode load) := by
  cases mode
  · exact (Forward.unsigned 4).map
  · exact .failure

/-- The instructions that do not widen their operands only go forward. -/
theorem Forward.plain (mode : Mode) (opcode : Nat) : Forward (plain mode opcode) := by
  unfold Decoder.plain
  split
  · exact .extended
  · exact (Forward.immediate32 _).map
  · exact (Forward.immediate8 _).map
  · exact .pure _
  · exact .absoluteMove mode _
  · exact .absoluteMove mode _
  · exact (Forward.unsigned 2).map
  · exact .pure _
  · exact .pure _
  · exact .pure _
  · exact (Forward.immediate8 _).map
  · exact .branch _ 4
  · exact .branch _ 4
  · exact .branch _ 1
  · exact .pure _
  · exact .pure _
  · exact .pure _
  · exact .pure _
  · exact .pure _
  · exact .unary mode
  · split
    · exact .arithmetic mode _ _
    · exact .numbered mode opcode

/-- The first byte of an instruction is taken for good. -/
theorem length_lt_of_instruction {mode : Mode} {bytes : List UInt8} {i : Instruction}
    {rest : List UInt8} (h : (instruction mode).run bytes = some (i, rest)) :
    rest.length < bytes.length := by
  unfold instruction at h
  change (byte.run bytes).bind _ = some (i, rest) at h
  obtain ⟨⟨first, middle⟩, hbyte, htail⟩ := Option.bind_eq_some_iff.mp h
  have hfirst := length_of_byte hbyte
  have hforward : Forward (if mode = .bits64 ∧ first.toNat = 0x48 then do
      sized mode .qword (← byte).toNat else plain mode first.toNat) := by
    split
    · exact Forward.byte.bind fun _ => .sized mode _ _
    · exact .plain mode _
  have := hforward htail
  omega

end Decoder

/-- An instruction takes at least one of the bytes and none that are not there. -/
theorem decode_length {mode : Mode} {bytes : List UInt8} {i : Instruction} {length : Nat}
    (h : decode mode bytes = some (i, length)) : 0 < length ∧ length ≤ bytes.length := by
  obtain ⟨⟨i', rest⟩, hrun, heq⟩ := Option.map_eq_some_iff.mp h
  obtain ⟨rfl, rfl⟩ := Prod.mk.inj heq
  have hrest := Decoder.length_lt_of_instruction hrun
  have htake : (bytes.take maxLength).length ≤ bytes.length := List.length_take_le' _ _
  omega

end PeListing.X86
