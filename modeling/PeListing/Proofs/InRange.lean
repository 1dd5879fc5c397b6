import PeListing.Proofs.ListingRange
import PeListing.Proofs.WalkBounds

/-!
# No number leaves its range

Whatever a file holds, reading its headers, resolving addresses, building its symbol table and
writing its listing never stop because a number left its range or a position was outside. The parts
of this are statements about each reader, each walk and each line; here they meet.
-/

namespace PeListing

namespace Sample

/-- A word in the file. -/
def word (width n : Nat) : List UInt8 := LittleEndian.encode width n

/-- Zero bytes. -/
def gap (n : Nat) : List UInt8 := List.replicate n 0

/-- The start of a file: the header that points to offset 64, and there the signature and the file
header. -/
def start (machine sectionCount optionalSize : Nat) : List UInt8 :=
  word 2 0x5A4D ++ gap 58 ++ word 4 64 ++
  word 4 0x4550 ++ word 2 machine ++ word 2 sectionCount ++ gap 12 ++ word 2 optionalSize ++ gap 2

/-- A record of the section table. -/
def record (virtualSize virtualAddress rawSize rawOffset flags : Nat) : List UInt8 :=
  gap 8 ++ word 4 virtualSize ++ word 4 virtualAddress ++ word 4 rawSize ++ word 4 rawOffset ++
  gap 12 ++ word 4 flags

/-- The headers of a file for 32-bit addresses with two directories, up to the section table. -/
def head (sectionCount : Nat) : List UInt8 :=
  start 0x14C sectionCount 112 ++
  word 2 0x10B ++ gap 14 ++ word 4 0x1070 ++ gap 72 ++ word 4 2 ++
  -- the directories
  word 4 0x1000 ++ word 4 40 ++ word 4 0x102C ++ word 4 40

/-- One function is exported, at the entry point. Two are imported, and the slot of the first is at
the entry point as well. -/
def tables : List UInt8 :=
  -- the head of the exports and their only address
  gap 12 ++ word 4 0x1060 ++ word 4 1 ++ word 4 1 ++ gap 4 ++ word 4 0x1028 ++ gap 8 ++
  word 4 0x1070 ++
  -- a descriptor, the end of the descriptors and the lookup table
  word 4 0x1054 ++ gap 8 ++ word 4 0x1060 ++ word 4 0x1070 ++ gap 20 ++
  word 4 0x80000001 ++ word 4 0x80000002 ++ gap 4 ++
  -- the name of the module
  [0x6B, 0]

/-- Three instructions, and the first byte of a fourth one that the section cuts off. -/
def code : List UInt8 := [0x90, 0xF4, 0xC3, 0xE8]

/-- A small file with a section of tables and a section of code behind it. -/
def buffer : Buffer where
  bytes := ⟨List.toArray (head 2 ++ record 98 0x1000 98 280 0x40 ++ record 4 0x2000 4 378 0x20 ++
    tables ++ code)⟩
  size_lt := by decide +kernel

/-- The file is accepted. -/
theorem exists_read : ∃ image, Image.read buffer = .ok image := by
  have hread : (Image.read buffer).isOk = true := by decide +kernel
  match Image.read buffer, hread with
  | .ok image, _ => exact ⟨image, rfl⟩

/-- A fact about the image in a file that can be computed from its bytes. -/
theorem exists_read_of_map {α : Type} {b : Buffer} {f : Image → α} {a : α}
    (h : (Image.read b).toOption.map f = some a) : ∃ image, Image.read b = .ok image ∧ f image = a := by
  cases hread : Image.read b with
  | error fault =>
    rw [hread] at h
    cases h
  | ok image =>
    rw [hread] at h
    exact ⟨image, rfl, Option.some.inj h⟩

end Sample

/-- **No number leaves its range.** No operation on a file lets a number leave its range or selects
what is not there: neither reading the headers, nor, once they are read, resolving an address,
reading a name, building the symbol table under any settings, or writing the listing with any
disassembler and any symbols. Of the disassembler it is only known that an instruction takes some
bytes of the code; it may refuse any position it is set to. -/
theorem Image.operations_inRange (b : Buffer) (d : Disassembler.Core) (symbols : SymbolSettings)
    (settings : ListingSettings) (table : SymbolTable) (rva limit : UInt64) :
    InRange (Image.read b) ∧ InRange (Image.readKind b) ∧
      ∀ image, Image.read b = .ok image →
        InRange (image.offsetFor rva.toNat : Except (Fault Defect) (Option Nat)) ∧
        InRange (image.resolve rva.toNat) ∧
        InRange (image.sectionFor rva.toNat : Except (Fault Defect) (Option Section)) ∧
        InRange (image.nameAt rva.toNat limit.toNat) ∧
        InRange (image.buildSymbols symbols).outcome ∧
        InRange (image.writeListing d table settings) := by
  have hread := Image.read_yields b
  refine ⟨hread.inRange, (Image.readKind_yields b).inRange, fun image himage => ?_⟩
  obtain ⟨-, hsections⟩ := hread.of_ok himage
  have hoffset : Yields (image.offsetFor rva.toNat : Except (Fault Defect) (Option Nat))
      (fun _ => True) fun _ => True := image.offsetFor_yields rva.toNat
  have hsection : Yields (image.sectionFor rva.toNat : Except (Fault Defect) (Option Section))
      (fun _ => True) fun _ => True := image.sectionFor_yields rva.toNat
  exact ⟨hoffset.inRange, (image.resolve_yields _).inRange, hsection.inRange,
    (image.nameAt_yields _ _).inRange, (image.buildSymbols_yields symbols).inRange,
    (image.writeListing_yields d hsections table settings).inRange⟩

/-- The symbols and the listing of the small file are in range. -/
theorem Image.operations_inRange_sample :
    ∃ image, Image.read Sample.buffer = .ok image ∧
      InRange (image.buildSymbols { unresolved := .skip }).outcome ∧
      InRange (image.writeListing X86.disassembler .empty {}) := by
  obtain ⟨image, himage⟩ := Sample.exists_read
  obtain ⟨-, -, hall⟩ := Image.operations_inRange Sample.buffer X86.disassembler
    { unresolved := .skip } {} .empty 0x1060 16
  obtain ⟨-, -, -, -, hbuild, hwrite⟩ := hall image himage
  exact ⟨image, himage, hbuild, hwrite⟩

end PeListing
