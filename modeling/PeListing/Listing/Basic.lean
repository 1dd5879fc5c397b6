import PeListing.Failure
import PeListing.Image.Basic
import PeListing.Listing.Line
import PeListing.Log
import PeListing.Settings.Basic
import PeListing.Symbol.Table
import PeListing.X86.Format

/-!
# Listings

The listing of an image has the lines of every section flagged as code, in the order of the
section table. A section is swept from its first byte to its last, and each line is printed as soon
as it is decoded (`Frame.printCode`): its label if a symbol stands at its address, then its address,
its bytes and its text. A byte at which no instruction starts is a line of its own, and the decoder
is set to the byte behind it. Lines and labels are counted on the way.

A fault ends a listing, and what has been printed until then stays printed. `Image.writeListing` is
the listing of an image that has been printed whole.
-/

namespace PeListing

/-- The mode in which the code of a machine is decoded. -/
def X86.Mode.ofMachine : Machine → Except DisassemblyError X86.Mode
  | .i386 => .ok .bits32
  | .amd64 => .ok .bits64
  | .ia64 => .error (.undecodableMachine .ia64)

/-- The code of a section: its extent, as far as the file reaches. A section that starts outside
the file has none. -/
def Section.code? {ε : Type} (s : Section) (b : Buffer) :
    Except (Fault ε) (Option (List UInt8)) := do
  let (start, stop) := s.rawRange
  if start < b.size then return some (← b.range start (min stop b.size)) else return none

/-- The counts of a listing. -/
structure ListingStats where
  /-- How many lines are instructions. -/
  instructions : Nat
  /-- How many lines are bytes that are none. -/
  invalidBytes : Nat
  /-- How many lines have a label. -/
  labels : Nat
  deriving DecidableEq, Repr

namespace Image

/-- The address of the first byte of a section, which wraps around. -/
def sectionBase (image : Image) (s : Section) : UInt64 :=
  image.base + s.virtualAddress.toUInt64

/-- The log records of the listing of a section. -/
def sectionRecords {ε : Type} (image : Image) (s : Section) :
    Except (Fault ε) (List Log.Record) := do
  let name ← s.nameText
  let say (level : Log.Level) (message : String) (fields : List (String × Log.Value)) :
      Log.Record :=
    ⟨level, "pedisasm::disasm::listing", message, ("section", .text name) :: fields⟩
  let (start, stop) := s.rawRange
  let size := image.buffer.size
  if size ≤ start then
    return [say .warn "section data lies outside the file" [("offset", .number start)]]
  else
    let available ← Word.sub size start
    let sweeping := say .debug "disassembling section"
      [("address", .text ("0x" ++ Numeral.hex 0 (image.sectionBase s).toNat)),
        ("len", .number (min stop size - start))]
    if size < stop then
      return [say .warn "section data clamped to file end"
        [("declared", .number s.extent), ("available", .number available)], sweeping]
    else return [sweeping]

end Image

/-! ### Printing -/

/-- What has been printed and logged so far, the latest first. -/
structure Printout where
  /-- What has been printed. -/
  pieces : List String := []
  /-- The log records. -/
  records : List Log.Record := []
  deriving DecidableEq, Repr

/-- A listing in progress. What was printed and logged stays so when a fault ends it. -/
abbrev Printer (α : Type) : Type := ExceptT (Fault DisassemblyError) (StateM Printout) α

namespace Printer

variable {α : Type}

/-- Prints a text. -/
def print (text : String) : Printer Unit :=
  modify fun out => { out with pieces := text :: out.pieces }

/-- Adds log records in order. -/
def logAll (records : List Log.Record) : Printer Unit :=
  modify fun out => { out with records := records.reverse ++ out.records }

/-- A computation that prints nothing. -/
def ofExcept (x : Except (Fault DisassemblyError) α) : Printer α := x

/-- What becomes of a listing that goes on from some printout. -/
def after (p : Printer α) (out : Printout) : Except (Fault DisassemblyError) α × Printout :=
  p.run.run out

end Printer

/-! ### Sweeping code -/

/-- What is the same for all lines of a listing. -/
structure Frame (d : Disassembler.Core) where
  /-- The layout of the image. -/
  kind : Kind
  /-- The address at which the image wants to be loaded. -/
  base : UInt64
  /-- The mode in which the code is decoded. -/
  mode : X86.Mode

/-- What comes of decoding at one position. -/
structure Round (d : Disassembler.Core) where
  /-- The line. -/
  line : Line d.Instruction
  /-- What is printed behind its bytes. -/
  text : String
  /-- The counts with the line. -/
  stats : ListingStats
  /-- Where the decoder goes on. -/
  next : Cursor

/-- Sets a decoder to a position. -/
def Disassembler.Core.moveTo (d : Disassembler.Core) (code : Array UInt8) (c : Cursor)
    (position : Nat) : Except (Fault DisassemblyError) Cursor :=
  match d.setPosition code c position with
  | .ok c' => .ok c'
  | .error reason => .error (.defect (.decoder reason))

/-- A decoder that is set to a position stands there. -/
theorem Disassembler.Core.position_of_moveTo (d : Disassembler.Core) {code : Array UInt8}
    {c c' : Cursor} {position : Nat} (h : d.moveTo code c position = .ok c') :
    c'.position = position := by
  unfold moveTo at h
  split at h
  · next hset => exact Except.ok.inj h ▸ d.setPosition_position hset
  · cases h

namespace Frame

variable {d : Disassembler.Core} (f : Frame d) (table : SymbolTable) (settings : ListingSettings)

/-- The symbol whose name stands above the line at an address. -/
def labelAt (address : UInt64) : Option Symbol :=
  if settings.showLabels then table.resolve f.base address else none

/-- How instructions are printed. -/
def style : X86.Style where
  hexMark := settings.hexMark
  uppercaseMnemonics := settings.uppercaseMnemonics
  nameOf := if settings.annotateAddresses then table.nameFor f.base fun _ => none
    else fun _ => none

/-- The round at an instruction. The decoder goes on where it stands. -/
def instructionRound (code : Array UInt8) (stats : ListingStats) (position : Nat)
    (address : UInt64) (i : d.Instruction) (moved : Cursor) :
    Except (Fault DisassemblyError) (Round d) := do
  let instructions ← Word.add stats.instructions 1
  let stop ← Word.add position (d.length i)
  let bytes ← Select.span code position stop
  return ⟨⟨address, bytes, some i⟩, d.format (f.style table settings) f.mode i,
    { stats with instructions }, moved⟩

/-- The round at a byte that is no instruction. The decoder is set to go on behind it. -/
def dataRound (d : Disassembler.Core) (code : Array UInt8) (stats : ListingStats) (position : Nat)
    (address : UInt64) (moved : Cursor) : Except (Fault DisassemblyError) (Round d) := do
  let stop ← Word.add position 1
  let bytes ← Select.span code position stop
  let byte ← Select.element bytes 0
  let next ← d.moveTo code moved stop
  let invalidBytes ← Word.add stats.invalidBytes 1
  return ⟨⟨address, bytes, none⟩, Line.dataText byte, { stats with invalidBytes },
    { next with ip := address + 1 }⟩

/-- The round at a position, given what the decoder has found there and where it stands since. -/
def round (code : Array UInt8) (stats : ListingStats) (position : Nat) (address : UInt64) :
    Option d.Instruction × Cursor → Except (Fault DisassemblyError) (Round d)
  | (some i, moved) => f.instructionRound table settings code stats position address i moved
  | (none, moved) => dataRound d code stats position address moved

/-- Every round brings the decoder further. -/
theorem position_lt_of_round {code : Array UInt8} {stats : ListingStats} {c : Cursor}
    {address : UInt64} {r : Round d} (hc : c.position < code.size)
    (h : f.round table settings code stats c.position address (d.decode f.mode code c) = .ok r) :
    c.position < r.next.position := by
  rcases hdecode : d.decode f.mode code c with ⟨_ | i, moved⟩
  · rw [hdecode] at h
    obtain ⟨stop, hadd, h⟩ := exists_ok_of_bind h
    obtain ⟨-, hstop⟩ := Word.add_eq_ok_iff.mp hadd
    obtain ⟨bytes, -, h⟩ := exists_ok_of_bind h
    obtain ⟨byte, -, h⟩ := exists_ok_of_bind h
    obtain ⟨next, hnext, h⟩ := exists_ok_of_bind h
    obtain ⟨invalidBytes, -, h⟩ := exists_ok_of_bind h
    rw [← Except.ok.inj h]
    exact Nat.lt_of_lt_of_eq (Nat.lt_succ_self _) ((d.position_of_moveTo hnext).trans hstop).symm
  · rw [hdecode] at h
    obtain ⟨instructions, -, h⟩ := exists_ok_of_bind h
    obtain ⟨stop, -, h⟩ := exists_ok_of_bind h
    obtain ⟨bytes, -, h⟩ := exists_ok_of_bind h
    obtain ⟨hpos, -, hmoved⟩ := d.decode_inside hc hdecode
    rw [← Except.ok.inj h]
    exact Nat.lt_of_lt_of_eq (Nat.lt_add_of_pos_right hpos) hmoved.symm

/-- Prints the label above the line at an address, if it has one, and counts it. -/
def printLabel (stats : ListingStats) (address : UInt64) : Printer ListingStats :=
  match f.labelAt table settings address with
  | none => return stats
  | some symbol => do
    .print "\n"
    .print (symbol.name ++ ":\n")
    return { stats with labels := ← .ofExcept (Word.add stats.labels 1) }

/-- Prints the line of a round. -/
def printRound (r : Round d) : Printer Unit := do
  let body ← .ofExcept (Line.layoutWithin f.kind.addressWidth
    (f.kind.displayAddress r.line.address) r.line.bytes r.text)
  .print (body ++ "\n")

/-- Prints the lines of some code, which starts at an address, from where a decoder stands, and
counts them. -/
def printCode (code : Array UInt8) (start : UInt64) (stats : ListingStats) (c : Cursor) :
    Printer ListingStats := do
  if hc : c.position < code.size then
    let address := start + UInt64.ofNat c.position
    let stats ← f.printLabel table settings stats address
    match hr : f.round table settings code stats c.position address (d.decode f.mode code c) with
    | .error fault => .ofExcept (.error fault)
    | .ok r =>
      have := f.position_lt_of_round table settings hc hr
      f.printRound r
      printCode code start r.stats r.next
  else return stats
termination_by code.size - c.position

/-- Prints the lines of a section and counts them. -/
def printSection (image : Image) (stats : ListingStats) (s : Section) : Printer ListingStats := do
  .logAll (← .ofExcept (image.sectionRecords s))
  match ← .ofExcept (s.code? image.buffer) with
  | none => return stats
  | some code =>
    let start := image.sectionBase s
    f.printCode table settings code.toArray start stats ⟨0, start⟩

end Frame

/-! ### The listing of an image -/

namespace Image

variable (image : Image) (d : Disassembler.Core) (table : SymbolTable) (settings : ListingSettings)

/-- Prints the listing of an image and counts its lines and labels. -/
def printListing : Printer ListingStats := do
  let mode ← .ofExcept (Fault.lift (X86.Mode.ofMachine image.machine))
  let frame : Frame d := ⟨image.kind, image.base, mode⟩
  image.codeSections.foldlM (frame.printSection table settings image) ⟨0, 0, 0⟩

end Image

/-- A listing that has been written. -/
structure WrittenListing where
  /-- The text. -/
  text : String
  /-- The counts. -/
  stats : ListingStats
  /-- The log records. -/
  records : List Log.Record

/-- Writes the listing of an image. -/
def Image.writeListing (image : Image) (d : Disassembler.Core) (table : SymbolTable)
    (settings : ListingSettings) : Except (Fault DisassemblyError) WrittenListing :=
  match (image.printListing d table settings).after {} with
  | (.ok stats, out) => .ok ⟨String.join out.pieces.reverse, stats, out.records.reverse⟩
  | (.error fault, _) => .error fault

end PeListing
