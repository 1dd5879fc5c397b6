import Mathlib.Data.List.Chain
import PeListing.Listing.Basic
import PeListing.Proofs.Outcome

/-!
# What is disassembled

A listing is decoded and printed in one go. Which lines there are can be said without the printing
and without a decoder that keeps its place: the line at a position is what the decoder finds if it
stands there with the address of the position (`Line.ofCode`), and the next line stands behind it
(`linesFrom`). `Image.listing` has these lines for all code of an image.

`Covers d mode start code lines` says that lines are a listing of some code: their bytes are the
code, each byte once and in order, the first line stands at `start` and each other line where the one
before it ends, and a line is an instruction if and only if the decoder finds one there, with as many
bytes as the decoder takes. A byte at which there is none is a line of its own. The lines from the
first position on cover the code (`covers_linesFrom`).
-/

namespace PeListing

/-! ### The line at a position -/

section Lines

variable (d : Disassembler.Core) (mode : X86.Mode)

namespace Disassembler.Core

/-- The number of bytes that a line takes, given what the decoder finds there. A byte at which there
is no instruction is a line of its own. -/
def taken : Option d.Instruction → Nat
  | some i => d.length i
  | none => 1

/-- What a decoder finds takes some of the bytes. -/
theorem taken_inside {code : Array UInt8} {c : Cursor} (hc : c.position < code.size) :
    0 < d.taken (d.decode mode code c).1 ∧
      c.position + d.taken (d.decode mode code c).1 ≤ code.size := by
  rcases hdecode : d.decode mode code c with ⟨_ | i, moved⟩
  · exact ⟨Nat.one_pos, hc⟩
  · obtain ⟨hpos, hend, -⟩ := d.decode_inside hc hdecode
    exact ⟨hpos, hend⟩

/-- The instruction that a decoder finds where it stands, if there is one, with its length. -/
def find? (code : Array UInt8) (c : Cursor) : Option (d.Instruction × Nat) :=
  (d.decode mode code c).1.map fun i => (i, d.length i)

end Disassembler.Core

namespace Line

/-- The line for what a decoder has found at a position that has some address. -/
def ofFound (code : Array UInt8) (position : Nat) (address : UInt64)
    (found : Option d.Instruction) : Line d.Instruction :=
  ⟨address, (code.extract position (position + d.taken found)).toList, found⟩

/-- A line for what a decoder has found has as many bytes as it takes. -/
theorem length_ofFound {code : Array UInt8} {c : Cursor} (hc : c.position < code.size)
    (address : UInt64) :
    (ofFound d code c.position address (d.decode mode code c).1).bytes.length =
      d.taken (d.decode mode code c).1 := by
  have htaken := d.taken_inside mode hc
  simp only [ofFound, Array.length_toList, Array.size_extract]
  omega

variable (code : Array UInt8) (start : UInt64) (position : Nat)

/-- The line at a position of some code that starts at an address. -/
def ofCode : Line d.Instruction :=
  ofFound d code position (start + UInt64.ofNat position)
    (d.decode mode code ⟨position, start + UInt64.ofNat position⟩).1

variable {position}

/-- The line at a position has as many bytes as what is found there takes. -/
theorem length_ofCode (h : position < code.size) :
    (ofCode d mode code start position).bytes.length =
      d.taken (ofCode d mode code start position).instruction :=
  length_ofFound d mode (c := ⟨position, start + UInt64.ofNat position⟩) h _

/-- The line at a position has a byte. -/
theorem length_ofCode_pos (h : position < code.size) :
    0 < (ofCode d mode code start position).bytes.length := by
  rw [length_ofCode d mode code start h]
  exact (d.taken_inside mode (c := ⟨position, start + UInt64.ofNat position⟩) h).1

/-- The line at a position is what the decoder finds there. -/
theorem find?_ofCode (h : position < code.size) :
    d.find? mode code ⟨position, start + UInt64.ofNat position⟩ =
      (ofCode d mode code start position).instruction.map
        fun i => (i, (ofCode d mode code start position).bytes.length) := by
  rw [length_ofCode d mode code start h, Disassembler.Core.find?, ofCode]
  cases (d.decode mode code ⟨position, start + UInt64.ofNat position⟩).1 <;> rfl

/-- A line that is no instruction has one byte. -/
theorem length_ofCode_of_none (h : position < code.size)
    (hnone : (ofCode d mode code start position).instruction = none) :
    (ofCode d mode code start position).bytes.length = 1 := by
  rw [length_ofCode d mode code start h, hnone]
  rfl

/-- The bytes of the line at a position and those behind it are those from the position on. -/
theorem bytes_ofCode_append (h : position < code.size) :
    (ofCode d mode code start position).bytes ++
        code.toList.drop (position + (ofCode d mode code start position).bytes.length) =
      code.toList.drop position := by
  rw [length_ofCode d mode code start h, ← List.drop_drop]
  simp only [ofCode, ofFound, Array.toList_extract, List.extract_eq_take_drop,
    Nat.add_sub_cancel_left]
  exact List.take_append_drop _ _

end Line

variable (code : Array UInt8) (start : UInt64) (position : Nat)

/-- The lines of some code from a position on. -/
def linesFrom (position : Nat) : List (Line d.Instruction) :=
  if h : position < code.size then
    have := Line.length_ofCode_pos d mode code start h
    .ofCode d mode code start position ::
      linesFrom (position + (Line.ofCode d mode code start position).bytes.length)
  else []
termination_by code.size - position

/-- In the code, the first of the lines from a position on is the one at the position. -/
theorem linesFrom_of_lt {position : Nat} (h : position < code.size) :
    linesFrom d mode code start position = .ofCode d mode code start position ::
      linesFrom d mode code start
        (position + (Line.ofCode d mode code start position).bytes.length) := by
  rw [linesFrom, dif_pos h]

/-- Behind the code there are no lines. -/
theorem linesFrom_of_le {position : Nat} (h : code.size ≤ position) :
    linesFrom d mode code start position = [] := by
  rw [linesFrom, dif_neg (Nat.not_lt.mpr h)]

/-- The lines from a position on have the bytes from there on. -/
theorem flatMap_bytes_linesFrom :
    (linesFrom d mode code start position).flatMap Line.bytes = code.toList.drop position := by
  fun_induction linesFrom d mode code start position with
  | case1 position h _ ih =>
    rw [List.flatMap_cons, ih, Line.bytes_ofCode_append d mode code start h]
  | case2 position h => exact (List.drop_eq_nil_of_le (by simpa using h)).symm

/-- There are no more lines than bytes. -/
theorem length_linesFrom_le :
    (linesFrom d mode code start position).length ≤ code.size - position := by
  fun_induction linesFrom d mode code start position with
  | case1 position h hpos ih =>
    rw [List.length_cons]
    omega
  | case2 position h => exact Nat.zero_le _

/-- The lines from a position on start there, and each other line stands where the one before it
ends. -/
theorem following_linesFrom :
    (∀ line ∈ (linesFrom d mode code start position).head?,
        line.address = start + UInt64.ofNat position) ∧
      (linesFrom d mode code start position).IsChain fun a b => b.address = a.next := by
  fun_induction linesFrom d mode code start position with
  | case1 position h _ ih =>
    obtain ⟨hfirst, hfollowing⟩ := ih
    refine ⟨by simp [Line.ofCode, Line.ofFound], List.isChain_cons.mpr ⟨?_, hfollowing⟩⟩
    intro line hline
    rw [hfirst line hline, UInt64.ofNat_add, ← UInt64.add_assoc]
    rfl
  | case2 position h => exact ⟨by simp, .nil⟩

variable {position}

/-- Behind some lines stands the line at the position behind their bytes. -/
theorem eq_ofCode_of_linesFrom {before behind : List (Line d.Instruction)}
    {line : Line d.Instruction}
    (h : linesFrom d mode code start position = before ++ line :: behind) :
    position + (before.flatMap Line.bytes).length < code.size ∧
      line = .ofCode d mode code start (position + (before.flatMap Line.bytes).length) := by
  fun_induction linesFrom d mode code start position generalizing before with
  | case1 position hlt _ ih =>
    cases before with
    | nil => exact ⟨hlt, (List.cons.inj h).1.symm⟩
    | cons first before =>
      obtain ⟨rfl, hlines⟩ := List.cons.inj h
      have hrest := ih hlines
      rwa [Nat.add_assoc, ← List.length_append, ← List.flatMap_cons] at hrest
  | case2 position hend => simp at h

/-- Every line is the one at some position. -/
theorem exists_eq_ofCode_of_mem {line : Line d.Instruction}
    (h : line ∈ linesFrom d mode code start position) :
    ∃ place < code.size, line = .ofCode d mode code start place := by
  obtain ⟨before, behind, heq⟩ := List.append_of_mem h
  exact ⟨_, eq_ofCode_of_linesFrom d mode code start heq⟩

end Lines

/-! ### Lines that cover code -/

/-- Lines that cover some code from an address on. -/
structure Covers (d : Disassembler.Core) (mode : X86.Mode) (start : UInt64) (code : List UInt8)
    (lines : List (Line d.Instruction)) : Prop where
  /-- The bytes of the lines are the code. -/
  bytes_eq : lines.flatMap Line.bytes = code
  /-- Every line has a byte. -/
  bytes_pos : ∀ line ∈ lines, 0 < line.bytes.length
  /-- The first line stands where the code starts. -/
  first : ∀ line ∈ lines.head?, line.address = start
  /-- Each line stands where the one before it ends. -/
  following : lines.IsChain fun a b => b.address = a.next
  /-- A line is what the decoder finds there. -/
  decoded : ∀ before line behind, lines = before ++ line :: behind →
    d.find? mode code.toArray ⟨(before.flatMap Line.bytes).length, line.address⟩ =
      line.instruction.map fun i => (i, line.bytes.length)
  /-- A line that is no instruction has one byte. -/
  single : ∀ line ∈ lines, line.instruction = none → line.bytes.length = 1

/-- The lines of some code cover it. -/
theorem covers_linesFrom (d : Disassembler.Core) (mode : X86.Mode) (start : UInt64)
    (code : List UInt8) :
    Covers d mode start code (linesFrom d mode code.toArray start 0) where
  bytes_eq := by
    rw [flatMap_bytes_linesFrom, List.drop_zero]
  bytes_pos := by
    intro line hmem
    obtain ⟨place, hlt, rfl⟩ := exists_eq_ofCode_of_mem d mode code.toArray start hmem
    exact Line.length_ofCode_pos d mode code.toArray start hlt
  first := by
    intro line hline
    simpa using (following_linesFrom d mode code.toArray start 0).1 line hline
  following := (following_linesFrom d mode code.toArray start 0).2
  decoded := by
    intro before line behind heq
    obtain ⟨hlt, rfl⟩ := eq_ofCode_of_linesFrom d mode code.toArray start heq
    rw [Nat.zero_add] at hlt ⊢
    exact Line.find?_ofCode d mode code.toArray start hlt
  single := by
    intro line hmem hnone
    obtain ⟨place, hlt, rfl⟩ := exists_eq_ofCode_of_mem d mode code.toArray start hmem
    exact Line.length_ofCode_of_none d mode code.toArray start hlt hnone

namespace Covers

variable {d : Disassembler.Core} {mode : X86.Mode} {start : UInt64} {code : List UInt8}
  {lines before behind : List (Line d.Instruction)} {line : Line d.Instruction}

/-- A line stands behind all bytes of the lines before it. -/
theorem address_eq (h : Covers d mode start code (before ++ line :: behind)) :
    line.address = start + UInt64.ofNat (before.flatMap Line.bytes).length := by
  have hfirst := h.first
  have hfollowing := h.following
  clear h
  induction before generalizing start with
  | nil => simpa using hfirst
  | cons first before ih =>
    obtain ⟨hnext, hrest⟩ := List.isChain_cons.mp hfollowing
    rw [ih hnext hrest, Line.next, hfirst first rfl, List.flatMap_cons, List.length_append,
      UInt64.ofNat_add, UInt64.add_assoc]

/-- The lines before a line have fewer bytes than the code. -/
theorem position_lt (h : Covers d mode start code (before ++ line :: behind)) :
    (before.flatMap Line.bytes).length < code.length := by
  have hpos := h.bytes_pos line (List.mem_append_right before List.mem_cons_self)
  rw [← h.bytes_eq, List.flatMap_append, List.flatMap_cons, List.length_append, List.length_append]
  omega

/-- Where there is no code, there are no lines. -/
theorem eq_nil (h : Covers d mode start [] lines) : lines = [] := by
  cases lines with
  | nil => rfl
  | cons line lines =>
    have hpos := h.bytes_pos line List.mem_cons_self
    have hbytes := congrArg List.length h.bytes_eq
    rw [List.flatMap_cons, List.length_append, List.length_nil] at hbytes
    omega

end Covers

end PeListing
