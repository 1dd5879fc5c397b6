import PeListing.Proofs.Coverage

/-!
# Symbols and settings do not change what is disassembled

Labels, names and the place of the decoder go along in one loop, but the decoder never sees a symbol
or a setting. However many listings of an image are printed, at every step of every section their
decoders stand at the same place, and the lines they print are those of the image
(`Image.exists_disassembly`). So of two listings, all that stands before the texts of their lines is
the same (`Image.disassembly_independent`).

Symbols are seen in two places, the labels and the names of numbers. A listing in which both are
turned off is the same for all symbols.
-/

namespace PeListing

namespace Frame

variable {d : Disassembler.Core} (f : Frame d) (table : SymbolTable) (settings : ListingSettings)

/-- Without labels and names, a line is printed alike for all symbols. -/
theorem printed_of_anonymous {settings : ListingSettings} (hlabels : settings.showLabels = false)
    (hnames : settings.annotateAddresses = false) (table table' : SymbolTable)
    (line : Line d.Instruction) :
    f.printed table settings line = f.printed table' settings line := by
  simp [printed, labelAbove, labelOf, labelAt, row, lineText, style, hlabels, hnames]

/-- Without labels, lines are counted alike for all symbols. -/
theorem tally_of_unlabelled {settings : ListingSettings} (hlabels : settings.showLabels = false)
    (table table' : SymbolTable) (lines : List (Line d.Instruction)) :
    f.tally table settings lines = f.tally table' settings lines := by
  simp [tally, labelOf, labelAt, hlabels]

end Frame

/-- **Symbols and settings do not change what is disassembled.** Let an image for a machine whose
code can be decoded be listed twice, with any symbols and settings. Both listings have the same
lines: each prints for each line its own label and its own text, and between the two the same
columns, in which the same address and the same bytes can be read. A line that is no instruction
prints its byte as data in both, and one that is an instruction is formatted in both. Instructions
and invalid bytes are counted alike.

If neither listing shows labels or names and all other settings are equal, so are the listings. -/
theorem Image.disassembly_independent {b : Buffer} {image : Image}
    (hread : Image.read b = .ok image) (hmachine : image.machine ≠ .ia64) (d : Disassembler)
    (table₁ table₂ : SymbolTable) (settings₁ settings₂ : ListingSettings) :
    ∃ (l : Listing d) (written₁ written₂ : WrittenListing),
      image.listing d = .ok l ∧
      image.writeListing d table₁ settings₁ = .ok written₁ ∧
      image.writeListing d table₂ settings₂ = .ok written₂ ∧
      written₁.text = String.join (l.lines.map fun line =>
        l.labelAbove table₁ settings₁ line ++
          (line.columns image.kind ++ l.lineText table₁ settings₁ line) ++ "\n") ∧
      written₂.text = String.join (l.lines.map fun line =>
        l.labelAbove table₂ settings₂ line ++
          (line.columns image.kind ++ l.lineText table₂ settings₂ line) ++ "\n") ∧
      (∀ line ∈ l.lines,
        Line.read? image.kind (line.columns image.kind ++ l.lineText table₁ settings₁ line) =
          some (image.kind.displayAddress line.address, line.bytes,
            l.lineText table₁ settings₁ line) ∧
        Line.read? image.kind (line.columns image.kind ++ l.lineText table₂ settings₂ line) =
          some (image.kind.displayAddress line.address, line.bytes,
            l.lineText table₂ settings₂ line) ∧
        match line.instruction with
        | none => ∃ byte : UInt8, line.bytes = [byte] ∧
          l.lineText table₁ settings₁ line = Line.dataText byte ∧
          l.lineText table₂ settings₂ line = Line.dataText byte
        | some i =>
          l.lineText table₁ settings₁ line = d.format (l.style table₁ settings₁) l.mode i ∧
          l.lineText table₂ settings₂ line = d.format (l.style table₂ settings₂) l.mode i) ∧
      written₁.stats.instructions = written₂.stats.instructions ∧
      written₁.stats.invalidBytes = written₂.stats.invalidBytes ∧
      (settings₁.showLabels = false → settings₂.showLabels = false →
        settings₁.annotateAddresses = false → settings₂.annotateAddresses = false →
        settings₁.uppercaseMnemonics = settings₂.uppercaseMnemonics →
        settings₁.hexMark = settings₂.hexMark → written₁ = written₂) := by
  obtain ⟨rfl, hsections⟩ := (Image.read_yields b).of_ok hread
  obtain ⟨l, records, h⟩ := image.exists_disassembly d hsections hmachine
  refine ⟨l, _, _, h.listing_eq, h.writeListing_eq table₁ settings₁,
    h.writeListing_eq table₂ settings₂, ?_, ?_, ?_, rfl, rfl, ?_⟩
  · rw [← h.kind_eq]
    rfl
  · rw [← h.kind_eq]
    rfl
  · intro line hmem
    obtain ⟨lines, hlines, hline⟩ := List.mem_flatten.mp hmem
    obtain ⟨s, -, hcovers⟩ := h.exists_covers hlines
    have hlength := hcovers.length_le hline
    refine ⟨line.read?_columns_append _ hlength _, line.read?_columns_append _ hlength _, ?_⟩
    cases hinstruction : line.instruction with
    | none =>
      obtain ⟨byte, hbyte⟩ := List.length_eq_one_iff.mp (hcovers.single line hline hinstruction)
      exact ⟨byte, hbyte, l.lineText_of_single table₁ settings₁ hinstruction hbyte,
        l.lineText_of_single table₂ settings₂ hinstruction hbyte⟩
    | some i => exact ⟨by rw [Frame.lineText, hinstruction], by rw [Frame.lineText, hinstruction]⟩
  · intro hlabels₁ hlabels₂ hnames₁ hnames₂ hcase hmark
    obtain rfl : settings₁ = settings₂ := by
      cases settings₁
      cases settings₂
      simp_all
    rw [funext (l.printed_of_anonymous hlabels₁ hnames₁ table₁ table₂),
      l.tally_of_unlabelled hlabels₁ table₁ table₂]

/-- The small file is listed without labels and names, once without symbols and once with a symbol
at the first byte of its code. -/
theorem Image.disassembly_independent_sample :
    ∃ (image : Image) (written₁ written₂ : WrittenListing),
      Image.read Sample.buffer = .ok image ∧ image.machine ≠ .ia64 ∧
      image.writeListing X86.disassembler .empty
        { showLabels := false, annotateAddresses := false } = .ok written₁ ∧
      image.writeListing X86.disassembler (SymbolTable.empty.insert ⟨0x2000, "k", "start"⟩)
        { showLabels := false, annotateAddresses := false } = .ok written₂ ∧
      written₁ = written₂ := by
  have hmachine : (Image.read Sample.buffer).toOption.map Image.machine = some .i386 := by
    decide +kernel
  obtain ⟨image, himage⟩ := Sample.exists_read
  rw [himage] at hmachine
  have hdecodable : image.machine ≠ .ia64 := by
    rw [Option.some.inj hmachine]
    decide
  obtain ⟨-, written₁, written₂, -, hwritten₁, hwritten₂, -, -, -, -, -, heq⟩ :=
    Image.disassembly_independent himage hdecodable X86.disassembler .empty
      (SymbolTable.empty.insert ⟨0x2000, "k", "start"⟩)
      { showLabels := false, annotateAddresses := false }
      { showLabels := false, annotateAddresses := false }
  exact ⟨image, written₁, written₂, himage, hdecodable, hwritten₁, hwritten₂,
    heq rfl rfl rfl rfl rfl rfl⟩

end PeListing
