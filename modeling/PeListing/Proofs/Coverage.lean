import PeListing.Proofs.InRange
import PeListing.Proofs.LineColumns
import PeListing.Proofs.ListingText

/-!
# A listing covers the code of an image

Every byte of the code of an image is on one line of its listing, in order, and at its address
(`Image.writeListing_covers`). The lines of a section cover its code; here they come together with
what is printed. No line has more bytes than there is room for in its columns, so the address and the
bytes of every line can be read in the text, and what is read there covers the code once more
(`Shows`).

Addresses wrap around, in a listing of 32-bit addresses at 32 bits as they are printed.
-/

namespace PeListing

namespace Kind

/-- The number of addresses that can be printed. -/
def addressSpan : Kind → Nat
  | .pe32 => 0x100000000
  | .pe32Plus => 0x10000000000000000

/-- An address so many bytes further is printed as so many more, up to the number of addresses. -/
theorem displayAddress_add (kind : Kind) (address : UInt64) (n : Nat) :
    kind.displayAddress (address + UInt64.ofNat n) =
      (kind.displayAddress address + n) % kind.addressSpan := by
  have hsum : (address + UInt64.ofNat n).toNat = (address.toNat + n) % 0x10000000000000000 := by
    rw [UInt64.toNat_add, UInt64.toNat_ofNat']
    exact Nat.add_mod_mod _ _ _
  cases kind with
  | pe32 =>
    change (address + UInt64.ofNat n).toNat % 0x100000000 =
      (address.toNat % 0x100000000 + n) % 0x100000000
    rw [hsum]
    omega
  | pe32Plus => exact hsum

end Kind

/-- What can be read in the columns of some rows is some code from an address on. -/
structure Shows (kind : Kind) (start : UInt64) (code : List UInt8) (rows : List String)
    (shown : List (Nat × List UInt8 × String)) : Prop where
  /-- This is what can be read: an address, bytes and a text on every row. -/
  read_eq : rows.map (Line.read? kind) = shown.map some
  /-- The bytes are the code. -/
  bytes_eq : shown.flatMap (fun row => row.2.1) = code
  /-- The first address is that of the code. -/
  first : ∀ row ∈ shown.head?, row.1 = kind.displayAddress start
  /-- Each other address is as much higher than the one before it as that row has bytes. -/
  following : shown.IsChain fun row row' => row'.1 = (row.1 + row.2.1.length) % kind.addressSpan

section Rows

variable {d : Disassembler} {mode : X86.Mode} {start : UInt64} {code : List UInt8}
  {lines : List (Line d.Instruction)}

/-- No line of a listing has more bytes than there is room for. -/
theorem Covers.length_le (h : Covers d mode start code lines) {line : Line d.Instruction}
    (hmem : line ∈ lines) : line.bytes.length ≤ Line.byteColumn := by
  obtain ⟨before, behind, rfl⟩ := List.append_of_mem hmem
  have hfind := h.decoded before line behind rfl
  cases hinstruction : line.instruction with
  | none =>
    rw [h.single line hmem hinstruction]
    decide
  | some i =>
    rw [hinstruction] at hfind
    obtain ⟨i', hdecode, heq⟩ := Option.map_eq_some_iff.mp hfind
    obtain ⟨-, hlength⟩ := Prod.mk.inj heq
    rw [← hlength]
    exact d.decode_short (by simpa using h.position_lt) (Prod.ext hdecode rfl)

variable (f : Frame d) (table : SymbolTable) (settings : ListingSettings)

/-- What can be read on the row of a line is the line. -/
theorem Frame.read?_row {line : Line d.Instruction} (h : line.bytes.length ≤ Line.byteColumn) :
    Line.read? f.kind (f.row table settings line) =
      some (f.kind.displayAddress line.address, line.bytes, f.lineText table settings line) :=
  line.read?_columns_append f.kind h _

/-- The rows of lines that cover some code show it. -/
theorem Covers.shows (h : Covers d mode start code lines) :
    ∃ shown, Shows f.kind start code (lines.map (f.row table settings)) shown := by
  refine ⟨lines.map fun line =>
    (f.kind.displayAddress line.address, line.bytes, f.lineText table settings line), ?_, ?_, ?_, ?_⟩
  · rw [List.map_map, List.map_map]
    exact List.map_congr_left fun line hmem => f.read?_row table settings (h.length_le hmem)
  · rw [List.flatMap_map]
    exact h.bytes_eq
  · intro row hrow
    rw [List.head?_map] at hrow
    obtain ⟨line, hline, rfl⟩ := Option.map_eq_some_iff.mp hrow
    rw [h.first line hline]
  · rw [List.isChain_map]
    refine h.following.imp fun line line' hnext => ?_
    rw [hnext, Line.next, f.kind.displayAddress_add]

/-- A line that is no instruction prints its byte. -/
theorem Frame.lineText_of_single {line : Line d.Instruction} (hnone : line.instruction = none)
    {byte : UInt8} (hbyte : line.bytes = [byte]) :
    f.lineText table settings line = Line.dataText byte := by
  rw [lineText, hnone, hbyte]
  simp [String.join]

/-- Every line is counted once. -/
theorem Frame.tally_instructions_add_invalidBytes (lines : List (Line d.Instruction)) :
    (f.tally table settings lines).instructions + (f.tally table settings lines).invalidBytes =
      lines.length := by
  let isInstruction : Line d.Instruction → Bool := fun line => line.instruction.isSome
  have hnot : lines.countP (fun line => line.instruction.isNone) =
      lines.countP fun line => ¬ isInstruction line := by
    refine List.countP_congr fun line _ => ?_
    cases h : line.instruction <;> simp [isInstruction, h]
  change lines.countP isInstruction + lines.countP (fun line => line.instruction.isNone) = _
  rw [hnot]
  exact (List.length_eq_countP_add_countP isInstruction).symm

end Rows

/-- The code of a section that starts outside the file is empty. -/
theorem Section.codeIn_of_size_le (s : Section) {b : Buffer} (h : b.size ≤ s.rawOffset.toNat) :
    s.codeIn b = [] := by
  rw [Section.codeIn, Buffer.window_eq, Nat.sub_eq_zero_of_le (by omega), List.take_zero]

/-- **A listing covers the code.** The listing of an image for a machine whose code can be decoded is
always written, whatever the symbols and settings. Its text is that of groups of lines, one group for
each section of code in the order of the section table: for each line a label or nothing, then a row.

The lines of a group cover the part of the section that is in the file. So do the rows by what is
printed on them: the bytes that can be read there are that part of the section, each byte once and in
order, the first address is that of the section, and each other one is the address before it and the
number of bytes on that row, up to the number of addresses. A line that is no instruction has one byte
and prints it, in the column of bytes and as its text. All lines are counted, and the invalid bytes
are the lines that are no instructions. -/
theorem Image.writeListing_covers {b : Buffer} {image : Image} (hread : Image.read b = .ok image)
    (hmachine : image.machine ≠ .ia64) (d : Disassembler) (table : SymbolTable)
    (settings : ListingSettings) :
    ∃ (l : Listing d) (written : WrittenListing) (groups : List (List (Line d.Instruction))),
      image.listing d = .ok l ∧ image.writeListing d table settings = .ok written ∧
      written.text = String.join (groups.flatten.map fun line =>
        l.labelAbove table settings line ++ l.row table settings line ++ "\n") ∧
      List.Forall₂ (fun s lines =>
        Covers d l.mode (image.base + s.virtualAddress.toUInt64)
          (b.window s.rawOffset.toNat (min (s.rawOffset.toNat + s.extent) b.size)) lines ∧
        (∃ shown, Shows image.kind (image.base + s.virtualAddress.toUInt64)
          (b.window s.rawOffset.toNat (min (s.rawOffset.toNat + s.extent) b.size))
          (lines.map (l.row table settings)) shown) ∧
        (b.size ≤ s.rawOffset.toNat → lines = []) ∧
        ∀ line ∈ lines, line.instruction = none → ∃ byte : UInt8, line.bytes = [byte] ∧
          Line.read? image.kind (l.row table settings line) =
            some (image.kind.displayAddress line.address, [byte],
              "db " ++ Numeral.hex 2 byte.toNat))
        image.codeSections groups ∧
      written.stats.instructions + written.stats.invalidBytes = groups.flatten.length ∧
      written.stats.invalidBytes = groups.flatten.countP fun line => line.instruction.isNone := by
  obtain ⟨rfl, hsections⟩ := (Image.read_yields b).of_ok hread
  obtain ⟨l, records, h⟩ := image.exists_disassembly d hsections hmachine
  refine ⟨l, _, l.groups, h.listing_eq, h.writeListing_eq table settings, rfl, ?_,
    l.tally_instructions_add_invalidBytes table settings l.lines, rfl⟩
  refine h.covers.imp fun s lines hcovers => ⟨hcovers, ?_, ?_, ?_⟩
  · rw [← h.kind_eq]
    exact hcovers.shows l.toFrame table settings
  · intro hout
    rw [s.codeIn_of_size_le hout] at hcovers
    exact hcovers.eq_nil
  · intro line hmem hnone
    obtain ⟨byte, hbyte⟩ := List.length_eq_one_iff.mp (hcovers.single line hmem hnone)
    refine ⟨byte, hbyte, ?_⟩
    rw [← h.kind_eq, ← hbyte, l.read?_row table settings (hcovers.length_le hmem),
      l.lineText_of_single table settings hnone hbyte, Line.dataText]

/-- The listing of the small file shows the four bytes of its section of code. The last one is no
instruction. -/
theorem Image.writeListing_covers_sample :
    ∃ (image : Image) (written : WrittenListing)
        (groups : List (List (Line X86.disassembler.Instruction))),
      Image.read Sample.buffer = .ok image ∧ image.machine ≠ .ia64 ∧
      image.writeListing X86.disassembler .empty {} = .ok written ∧
      written.text =
        "00002000  90                                            nop\n" ++
        "00002001  F4                                            hlt\n" ++
        "00002002  C3                                            ret\n" ++
        "00002003  E8                                            db e8\n" ∧
      groups.flatten.flatMap Line.bytes = Sample.code ∧
      written.stats.instructions + written.stats.invalidBytes = groups.flatten.length ∧
      groups.flatten.length = 4 := by
  have hfacts : (Image.read Sample.buffer).toOption.map (fun image => (image.machine,
      image.codeSections.map (fun s => s.codeIn Sample.buffer),
      (image.writeListing X86.disassembler .empty {}).toOption.map fun written =>
        (written.text, written.stats))) = some (.i386, [Sample.code], some (
        "00002000  90                                            nop\n" ++
        "00002001  F4                                            hlt\n" ++
        "00002002  C3                                            ret\n" ++
        "00002003  E8                                            db e8\n", ⟨3, 1, 0⟩)) := by
    decide +kernel
  obtain ⟨image, himage, hfacts⟩ := Sample.exists_read_of_map hfacts
  obtain ⟨hi386, hrest⟩ := Prod.mk.inj hfacts
  obtain ⟨hcode, hlisting⟩ := Prod.mk.inj hrest
  have hmachine : image.machine ≠ .ia64 := by simp [hi386]
  obtain ⟨l, written, groups, -, hwritten, -, hgroups, hcount, -⟩ :=
    Image.writeListing_covers himage hmachine X86.disassembler .empty {}
  rw [hwritten] at hlisting
  obtain ⟨htext, hstats⟩ := Prod.mk.inj (Option.some.inj hlisting)
  have hbytes : groups.flatten.flatMap Line.bytes = Sample.code := by
    obtain ⟨s, hs, hbytes⟩ := List.map_eq_singleton_iff.mp hcode
    rw [hs] at hgroups
    cases hgroups with
    | cons hgroup hrest =>
      cases hrest
      rw [List.flatten_singleton, hgroup.1.bytes_eq]
      exact hbytes
  have hlength : groups.flatten.length = 4 := by
    rw [← hcount, hstats]
    rfl
  exact ⟨image, written, groups, himage, hmachine, hwritten, htext, hbytes, hcount, hlength⟩

end PeListing
