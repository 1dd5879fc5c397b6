import PeListing.Proofs.EarliestSymbol
import PeListing.Proofs.OneDisassembly

/-!
# Labels stand at symbols

A listing puts the name of a symbol above a line by a lookup of the line's address, which is a word
that may have wrapped around. The lines of a section follow each other without a gap, so a line stands
as far behind the base of its section as there are bytes before it (`Covers.address_eq`). Its distance
from the base of the image is the address of the section and this position, and a lookup undoes just
that sum: where it is a word, it finds the earliest symbol at the relative address, and where the
address has wrapped around, nothing (`find?_standsAt_add`).

So the labels of a listing are known from the positions of its lines, and without them the same lines
are printed (`Image.labels_exact`).
-/

namespace PeListing

/-! ### Addresses and positions -/

/-- The relative addresses of the code of a section are words. -/
theorem Section.rva_lt (s : Section) {b : Buffer} {position : Nat}
    (h : position < (s.codeIn b).length) :
    s.virtualAddress.toNat + position < 0x10000000000000000 := by
  have haddress := lt_two_pow_32 s.virtualAddress
  have hlength := s.length_codeIn_lt b
  omega

/-- A position in a section has the address of the section in the image plus the position. -/
theorem Image.sectionBase_add (image : Image) (s : Section) (position : Nat) :
    image.sectionBase s + UInt64.ofNat position =
      image.base + UInt64.ofNat (s.virtualAddress.toNat + position) := by
  have haddress : s.virtualAddress.toUInt64 = UInt64.ofNat s.virtualAddress.toNat := by
    simp
  rw [Image.sectionBase, haddress, UInt64.ofNat_add, UInt64.add_assoc]

/-! ### Lookups behind the base -/

/-- The symbols that stand so far behind the base are those at this relative address, if the sum does
not wrap around, and none if it does. -/
theorem Symbol.standsAt_add (base : UInt64) {rva : Nat} (hrva : rva < 0x10000000000000000)
    (s : Symbol) :
    s.standsAt base (base + UInt64.ofNat rva) = true ↔
      base.toNat + rva < 0x10000000000000000 ∧ s.address.toNat = rva := by
  have hsum : (base + UInt64.ofNat rva).toNat = (base.toNat + rva) % 0x10000000000000000 := by
    rw [UInt64.toNat_add, UInt64.toNat_ofNat']
    exact Nat.add_mod_mod _ _ _
  have hbase : base.toNat < 0x10000000000000000 := base.toNat_lt
  simp only [Symbol.standsAt, hsum, decide_eq_true_eq]
  omega

/-- The symbol at an absolute address is that at the relative one, unless the sum wraps around. -/
theorem find?_standsAt_add (base : UInt64) {rva : Nat} (hrva : rva < 0x10000000000000000)
    (symbols : List Symbol) :
    symbols.find? (Symbol.standsAt base (base + UInt64.ofNat rva)) =
      if base.toNat + rva < 0x10000000000000000 then
        symbols.find? fun s => s.address.toNat = rva
      else none := by
  split
  · next hfits =>
    congr 1
    funext s
    rw [Bool.eq_iff_iff, Symbol.standsAt_add base hrva, and_iff_right hfits, decide_eq_true_iff]
  · next hwraps =>
    rw [List.find?_eq_none]
    intro s _ hstands
    exact hwraps ((Symbol.standsAt_add base hrva s).mp hstands).1

/-- There is a symbol at an absolute address just when there is one at the relative one and the sum
does not wrap around. -/
theorem isSome_find?_standsAt_add (base : UInt64) {rva : Nat} (hrva : rva < 0x10000000000000000)
    (symbols : List Symbol) :
    (symbols.find? (Symbol.standsAt base (base + UInt64.ofNat rva))).isSome ↔
      (∃ s ∈ symbols, s.address.toNat = rva) ∧ base.toNat + rva < 0x10000000000000000 := by
  rw [List.find?_isSome]
  simp only [Symbol.standsAt_add base hrva]
  constructor
  · rintro ⟨s, hs, hfits, haddress⟩
    exact ⟨⟨s, hs, haddress⟩, hfits⟩
  · rintro ⟨⟨s, hs, haddress⟩, hfits⟩
    exact ⟨s, hs, hfits, haddress⟩

/-! ### The labels of a listing -/

namespace Frame

variable {d : Disassembler.Core} (f : Frame d) (table : SymbolTable) {settings : ListingSettings}

/-- Where labels are shown, a line has the symbol at its address. -/
theorem labelOf_of_showLabels (h : settings.showLabels = true) (line : Line d.Instruction) :
    f.labelOf table settings line = table.resolve f.base line.address := by
  simp [labelOf, labelAt, h]

/-- Without labels, a line is printed as it is with them, less its label. -/
theorem printed_unlabelled (line : Line d.Instruction) :
    f.printed table { settings with showLabels := false } line =
      line.columns f.kind ++ f.lineText table settings line ++ "\n" := by
  simp [printed, labelAbove, labelOf, labelAt, labelPieces, row, lineText, style, String.join]

/-- Without labels, all counts are the same but that of the labels. -/
theorem tally_unlabelled (lines : List (Line d.Instruction)) :
    f.tally table { settings with showLabels := false } lines =
      { f.tally table settings lines with labels := 0 } := by
  simp [tally, labelOf, labelAt]

end Frame

/-- The label above a line of a section is what stands so far behind the base as the section and the
position of the line say. -/
theorem Image.labelOf_eq_find? (image : Image) {d : Disassembler} {l : Listing d}
    (hbase : l.base = image.base) (table : SymbolTable) {settings : ListingSettings}
    (hlabels : settings.showLabels = true) {s : Section} {code : List UInt8}
    {before behind : List (Line d.Instruction)} {line : Line d.Instruction}
    (h : Covers d l.mode (image.sectionBase s) code (before ++ line :: behind)) :
    l.labelOf table settings line =
      table.toList.find? (Symbol.standsAt image.base (image.base + UInt64.ofNat
        (s.virtualAddress.toNat + (before.flatMap Line.bytes).length))) := by
  rw [l.labelOf_of_showLabels table hlabels, hbase, h.address_eq, image.sectionBase_add,
    table.resolve_eq_find?]

/-- **Labels stand exactly at symbols.** Let an image for a machine whose code can be decoded be listed
with labels, and once more with all settings equal but without them. Both listings have the same
groups of lines, one group for each section of code, and print each line in the same way. The first one
puts above a line an empty line and the name of a symbol with a colon, or nothing. It does so if and
only if the table has a symbol at the relative address of the line, which is that of the section and
the number of bytes before the line, and the absolute address of the line does not wrap around. The
name is that of the symbol that was inserted first at this address. The labels are counted, and without
them the count is zero and all other counts are the same. -/
theorem Image.labels_exact {b : Buffer} {image : Image} (hread : Image.read b = .ok image)
    (hmachine : image.machine ≠ .ia64) (d : Disassembler) (table : SymbolTable)
    {settings : ListingSettings} (hlabels : settings.showLabels = true) :
    ∃ (l : Listing d) (groups : List (List (Line d.Instruction)))
        (labelled plain : WrittenListing),
      image.listing d = .ok l ∧
      image.writeListing d table settings = .ok labelled ∧
      image.writeListing d table { settings with showLabels := false } = .ok plain ∧
      labelled.text = String.join (groups.flatten.map fun line =>
        (match l.labelOf table settings line with
          | some symbol => "\n" ++ symbol.name ++ ":\n"
          | none => "") ++
        (line.columns image.kind ++ l.lineText table settings line ++ "\n")) ∧
      plain.text = String.join (groups.flatten.map fun line =>
        line.columns image.kind ++ l.lineText table settings line ++ "\n") ∧
      labelled.stats.labels =
        groups.flatten.countP (fun line => (l.labelOf table settings line).isSome) ∧
      plain.stats = { labelled.stats with labels := 0 } ∧
      List.Forall₂ (fun s lines =>
        Covers d l.mode (image.sectionBase s) (s.codeIn b) lines ∧
        ∀ before line behind, lines = before ++ line :: behind →
          let rva := s.virtualAddress.toNat + (before.flatMap Line.bytes).length
          ((l.labelOf table settings line).isSome ↔
            (∃ symbol ∈ table.toList, symbol.address.toNat = rva) ∧
              image.base.toNat + rva < 0x10000000000000000) ∧
          ∀ history, table.FilledBy history → l.labelOf table settings line =
            if image.base.toNat + rva < 0x10000000000000000 then
              history.find? fun symbol => symbol.address.toNat = rva
            else none)
        image.codeSections groups := by
  obtain ⟨rfl, hsections⟩ := (Image.read_yields b).of_ok hread
  obtain ⟨l, records, h⟩ := image.exists_disassembly d hsections hmachine
  refine ⟨l, l.groups, _, _, h.listing_eq, h.writeListing_eq table settings,
    h.writeListing_eq table { settings with showLabels := false }, ?_, ?_, rfl, ?_, h.covers.imp ?_⟩
  · refine congrArg String.join (List.map_congr_left fun line _ => ?_)
    rw [← h.kind_eq, Frame.printed, Frame.labelAbove, Frame.row]
    cases l.labelOf table settings line with
    | none => simp [Frame.labelPieces, String.join]
    | some symbol => simp [Frame.labelPieces, String.join, String.append_assoc]
  · refine congrArg String.join (List.map_congr_left fun line _ => ?_)
    rw [l.printed_unlabelled, h.kind_eq]
  · exact l.tally_unlabelled table l.lines
  · intro s lines hcovers
    refine ⟨hcovers, ?_⟩
    rintro before line behind rfl
    have hlt := s.rva_lt hcovers.position_lt
    rw [image.labelOf_eq_find? h.base_eq table hlabels hcovers]
    refine ⟨isSome_find?_standsAt_add image.base hlt table.toList, fun history hfilled => ?_⟩
    rw [hfilled.find?_toList, find?_standsAt_add image.base hlt]

namespace Sample

/-- A file for 64-bit addresses with one section of code, whose four bytes reach over the highest
address. -/
def highBuffer : Buffer where
  bytes := ⟨List.toArray (start 0x8664 1 112 ++
    -- the optional header
    word 2 0x20B ++ gap 22 ++ word 8 0xFFFFFFFFFFFFE000 ++ gap 80 ++
    -- the section table and the code
    record 4 0x1FFE 4 240 0x20 ++ [0x90, 0xF4, 0x90, 0xC3])⟩
  size_lt := by decide +kernel

/-- Two symbols at the second byte of that code and one at the third. -/
def highTable : SymbolTable :=
  .ofInsertions [⟨0x1FFF, "k", "first"⟩, ⟨0x2000, "k", "wrapped"⟩, ⟨0x1FFF, "k", "second"⟩]

end Sample

/-- Of the three symbols one gives a label: the second at its address comes too late, and the third
stands where addresses have wrapped around. -/
theorem Image.labels_exact_high :
    ∃ (image : Image) (labelled plain : WrittenListing),
      Image.read Sample.highBuffer = .ok image ∧ image.machine ≠ .ia64 ∧
      image.writeListing X86.disassembler Sample.highTable {} = .ok labelled ∧
      image.writeListing X86.disassembler Sample.highTable { showLabels := false } = .ok plain ∧
      labelled.text =
        "FFFFFFFFFFFFFFFE  90                                            nop\n" ++
        "\nfirst:\n" ++
        "FFFFFFFFFFFFFFFF  F4                                            hlt\n" ++
        "0000000000000000  90                                            nop\n" ++
        "0000000000000001  C3                                            ret\n" ∧
      labelled.stats = ⟨4, 0, 1⟩ ∧ plain.stats = ⟨4, 0, 0⟩ := by
  have hfacts : (Image.read Sample.highBuffer).toOption.map (fun image => (image.machine,
      (image.writeListing X86.disassembler Sample.highTable {}).toOption.map fun labelled =>
        (labelled.text, labelled.stats))) = some (.amd64, some (
        "FFFFFFFFFFFFFFFE  90                                            nop\n" ++
        "\nfirst:\n" ++
        "FFFFFFFFFFFFFFFF  F4                                            hlt\n" ++
        "0000000000000000  90                                            nop\n" ++
        "0000000000000001  C3                                            ret\n", ⟨4, 0, 1⟩)) := by
    decide +kernel
  obtain ⟨image, hread, himage⟩ := Sample.exists_read_of_map hfacts
  obtain ⟨hamd64, hlisting⟩ := Prod.mk.inj himage
  have hmachine : image.machine ≠ .ia64 := by simp [hamd64]
  have hlabels : ({} : ListingSettings).showLabels = true := rfl
  obtain ⟨-, -, labelled, plain, -, hlabelled, hplain, -, -, -, hstats, -⟩ :=
    Image.labels_exact hread hmachine X86.disassembler Sample.highTable hlabels
  rw [hlabelled] at hlisting
  obtain ⟨htext, hcounts⟩ := Prod.mk.inj (Option.some.inj hlisting)
  refine ⟨image, labelled, plain, hread, hmachine, hlabelled, hplain, htext, hcounts, ?_⟩
  rw [hstats, hcounts]

end PeListing
