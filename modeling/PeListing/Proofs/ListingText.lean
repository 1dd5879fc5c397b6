import PeListing.Proofs.ListingRange

/-!
# What a listing prints

The loop that prints a listing comes to this: its text is that of the lines of the code, one after
another (`Frame.printed`), and its counts are those of the lines (`Frame.tally`). `Image.listing` has
these lines for an image, one group for each section of code.

The invariant of the loop is that the decoder has the address of its position. A round leaves it so,
also where there is no instruction and position and address are set by hand, and its line is that of
the position (`Frame.round_eq`). So the loop prints and counts the lines of some code
(`Frame.printCode_after`), a section and a list of sections do so too, and a listing is made of the
lines of its image. Symbols and settings have no say in these (`Image.exists_disassembly`).
-/

namespace PeListing

/-! ### Lines and counts -/

namespace Frame

section Lines

variable {d : Disassembler.Core} (f : Frame d) (table : SymbolTable) (settings : ListingSettings)

/-- A line without its label and its end. -/
def row (line : Line d.Instruction) : String :=
  line.columns f.kind ++ f.lineText table settings line

/-- What is printed for a line, piece by piece. -/
def pieces (line : Line d.Instruction) : List String :=
  labelPieces (f.labelOf table settings line) ++ [f.row table settings line ++ "\n"]

/-- What is printed for a line. -/
def printed (line : Line d.Instruction) : String :=
  f.labelAbove table settings line ++ f.row table settings line ++ "\n"

/-- How many of some lines are instructions, how many are none and how many have a label. -/
def tally (lines : List (Line d.Instruction)) : ListingStats where
  instructions := lines.countP fun line => line.instruction.isSome
  invalidBytes := lines.countP fun line => line.instruction.isNone
  labels := lines.countP fun line => (f.labelOf table settings line).isSome

/-- The pieces of lines make up what is printed for them. -/
theorem join_flatMap_pieces (lines : List (Line d.Instruction)) :
    String.join (lines.flatMap (f.pieces table settings)) =
      String.join (lines.map (f.printed table settings)) := by
  induction lines with
  | nil => rfl
  | cons line lines ih =>
    rw [List.flatMap_cons, String.join_append, ih, List.map_cons, String.join_cons, pieces,
      String.join_append, printed, labelAbove]
    simp [String.join, String.append_assoc]

/-- A line more counts for what it is. -/
theorem tally_concat (lines : List (Line d.Instruction)) (line : Line d.Instruction) :
    f.tally table settings (lines ++ [line]) =
      ⟨(f.tally table settings lines).instructions + line.instruction.isSome.toNat,
        (f.tally table settings lines).invalidBytes + line.instruction.isNone.toNat,
        (f.tally table settings lines).labels +
          (f.labelOf table settings line).isSome.toNat⟩ := by
  have hone : ∀ p : Line d.Instruction → Bool, [line].countP p = (p line).toNat := by
    intro p
    rw [List.countP_singleton]
    cases p line <;> rfl
  simp only [tally, List.countP_append, hone]

/-- No count is above the number of lines. -/
theorem tally_within (lines : List (Line d.Instruction)) :
    (f.tally table settings lines).Within lines.length :=
  ⟨List.countP_le_length, List.countP_le_length, List.countP_le_length⟩

end Lines

/-! ### The loop -/

section Loop

variable {d : Disassembler} (f : Frame d) (table : SymbolTable) (settings : ListingSettings)

/-- A round that starts with the address of its position takes the line of this position, and the next
round starts with the address of its own. -/
theorem round_eq {code : Array UInt8} {start : UInt64} {c : Cursor} (stats : ListingStats)
    (hinstructions : stats.instructions + 1 < Word.limit)
    (hinvalidBytes : stats.invalidBytes + 1 < Word.limit) (hc : c.position < code.size)
    (hsize : code.size < Word.limit) (hip : c.ip = start + UInt64.ofNat c.position) :
    ∃ r, f.round table settings code stats c.position (start + UInt64.ofNat c.position)
        (d.decode f.mode code c) = .ok r ∧
      f.Takes table settings code stats (start + UInt64.ofNat c.position) c r ∧
      r.line = .ofCode d f.mode code start c.position ∧
      r.next.position = c.position + r.line.bytes.length ∧
      r.next.ip = start + UInt64.ofNat r.next.position := by
  have hsettable : ¬ ∃ reason,
      d.setPosition code (d.decode f.mode code c).2 (c.position + 1) = .error reason := by
    rintro ⟨reason, hrefused⟩
    obtain ⟨next, hset⟩ := d.setPosition_isOk (c := (d.decode f.mode code c).2)
      (Nat.succ_le_of_lt hc)
    cases hrefused.symm.trans hset
  obtain ⟨r, hr, htakes⟩ := ((f.round_yields table settings stats
    (start + UInt64.ofNat c.position) hinstructions hinvalidBytes hc hsize).mono (fun _ => id)
      fun _ => hsettable).exists_ok
  have hcursor : (⟨c.position, start + UInt64.ofNat c.position⟩ : Cursor) = c := by
    rw [← hip]
  have hline : r.line = .ofCode d f.mode code start c.position := by
    rw [htakes.line_eq, Line.ofCode, hcursor]
  have hlength : r.line.bytes.length = d.taken r.line.instruction := by
    rw [hline]
    exact Line.length_ofCode d f.mode code start hc
  refine ⟨r, hr, htakes, hline, by rw [htakes.position_eq, hlength], ?_⟩
  rw [htakes.position_eq, UInt64.ofNat_add, ← UInt64.add_assoc]
  have hfound : r.line.instruction = (d.decode f.mode code c).1 := by
    rw [htakes.line_eq]
    rfl
  cases hinstruction : r.line.instruction with
  | none => exact htakes.ip_eq hinstruction
  | some i =>
    rw [htakes.next_eq (by rw [hinstruction]; rfl), ← hip]
    exact d.decode_ip hc (Prod.ext (hfound.symm.trans hinstruction) rfl)

/-- The lines from where the decoder stands are printed and counted, after the lines before. -/
theorem printCode_after {code : Array UInt8} (start : UInt64)
    (before : List (Line d.Instruction)) {c : Cursor}
    (hip : c.ip = start + UInt64.ofNat c.position) (hsize : code.size < Word.limit)
    (hcount : before.length + (code.size - c.position) < Word.limit) (out : Printout) :
    (f.printCode table settings code start (f.tally table settings before) c).after out =
      (.ok (f.tally table settings (before ++ linesFrom d f.mode code start c.position)),
        { out with
          pieces := ((linesFrom d f.mode code start c.position).flatMap
            (f.pieces table settings)).reverse ++ out.pieces }) := by
  rw [printCode]
  split
  · next hlt =>
    obtain ⟨hinstructions, hinvalidBytes, hlabels⟩ := f.tally_within table settings before
    rw [Printer.after_bind_of_ok (f.printLabel_after table settings (by omega) _ out)]
    obtain ⟨r, hr, htakes, hline, hposition, hnext⟩ := f.round_eq table settings
      { f.tally table settings before with
        labels := (f.tally table settings before).labels +
          (f.labelAt table settings (start + UInt64.ofNat c.position)).isSome.toNat }
      (by dsimp only; omega) (by dsimp only; omega) hlt hsize hip
    have hbytes := Line.length_ofCode_pos d f.mode code start hlt
    rw [← hline] at hbytes
    have hlabel : f.labelAt table settings (start + UInt64.ofNat c.position) =
        f.labelOf table settings r.line := by
      rw [hline]
      rfl
    have hstats : r.stats = f.tally table settings (before ++ [r.line]) := by
      rw [htakes.stats_eq, f.tally_concat, ← hlabel]
    split
    · next fault hfault => cases hr.symm.trans hfault
    · next r' hr' =>
      obtain rfl := Except.ok.inj (hr'.symm.trans hr)
      have hbehind := printCode_after start (before ++ [r'.line]) hnext hsize
        (by rw [hposition, List.length_append, List.length_singleton]; omega)
      rw [Printer.after_bind_of_ok (f.printRound_after r' _), hstats, hbehind,
        linesFrom_of_lt d f.mode code start hlt, ← hline, ← hposition, hlabel, htakes.text_eq]
      simp [pieces, row]
  · next hend =>
    rw [linesFrom_of_le d f.mode code start (Nat.le_of_not_lt hend), List.append_nil]
    rfl
termination_by code.size - c.position

end Loop

end Frame

/-! ### Sections -/

namespace Image

/-- The lines of a section, which are those of its code in the file. -/
def sectionLines (image : Image) (d : Disassembler.Core) (mode : X86.Mode) (s : Section) :
    List (Line d.Instruction) :=
  linesFrom d mode (s.codeIn image.buffer).toArray (image.sectionBase s) 0

/-- The lines of a section cover its code. -/
theorem covers_sectionLines (image : Image) (d : Disassembler.Core) (mode : X86.Mode)
    (s : Section) :
    Covers d mode (image.sectionBase s) (s.codeIn image.buffer) (image.sectionLines d mode s) :=
  covers_linesFrom d mode (image.sectionBase s) (s.codeIn image.buffer)

/-- A section has fewer than `2 ^ 32` lines. -/
theorem length_sectionLines_lt (image : Image) (d : Disassembler.Core) (mode : X86.Mode)
    (s : Section) : (image.sectionLines d mode s).length < 0x100000000 := by
  have hlines := length_linesFrom_le d mode (s.codeIn image.buffer).toArray (image.sectionBase s) 0
  rw [List.size_toArray] at hlines
  exact lt_of_le_of_lt (hlines.trans (Nat.sub_le _ _)) (s.length_codeIn_lt image.buffer)

end Image

namespace Frame

variable {d : Disassembler} (f : Frame d) (image : Image)

/-- The lines of a section are printed and counted. -/
theorem printSection_after (table : SymbolTable) (settings : ListingSettings) {s : Section}
    {records : List Log.Record}
    (hrecords : (image.sectionRecords s : Except (Fault DisassemblyError) _) = .ok records)
    (before : List (Line d.Instruction)) (hcount : before.length + 0x100000000 < Word.limit)
    (out : Printout) :
    (f.printSection table settings image (f.tally table settings before) s).after out =
      (.ok (f.tally table settings (before ++ image.sectionLines d f.mode s)),
        ⟨((image.sectionLines d f.mode s).flatMap (f.pieces table settings)).reverse ++ out.pieces,
          records.reverse ++ out.records⟩) := by
  have hlength := s.length_codeIn_lt image.buffer
  have hread : Yields (s.code? image.buffer : Except (Fault DisassemblyError) _) _
      fun _ => False := s.code?_yields image.buffer
  obtain ⟨code?, hcode?, hcode⟩ := hread.exists_ok
  unfold printSection Image.sectionLines
  rw [Printer.after_bind_of_ok (Printer.after_ofExcept hrecords out),
    Printer.after_bind_of_ok (Printer.after_logAll records _),
    Printer.after_bind_of_ok (Printer.after_ofExcept hcode? _), ← hcode]
  rw [← hcode] at hlength
  cases code? with
  | none =>
    rw [Option.getD_none, linesFrom_of_le d f.mode _ _ (Nat.zero_le 0), List.append_nil]
    rfl
  | some code =>
    rw [Option.getD_some] at hlength ⊢
    have hsize : code.toArray.size = code.length := List.size_toArray
    have hstart : image.sectionBase s = image.sectionBase s + UInt64.ofNat 0 := by simp
    exact f.printCode_after table settings (c := ⟨0, image.sectionBase s⟩) (image.sectionBase s)
      before hstart (by omega) (by dsimp only; omega) _

/-- The lines of sections are printed and counted one section after another. What is logged depends
on the sections alone. -/
theorem exists_foldlM_printSection_after (sections : List Section) :
    ∃ records : List Log.Record, ∀ (table : SymbolTable) (settings : ListingSettings)
      (before : List (Line d.Instruction)) (out : Printout),
      before.length + sections.length * 0x100000000 < Word.limit →
      let lines := (sections.map (image.sectionLines d f.mode)).flatten
      (sections.foldlM (f.printSection table settings image)
          (f.tally table settings before)).after out =
        (.ok (f.tally table settings (before ++ lines)),
          ⟨(lines.flatMap (f.pieces table settings)).reverse ++ out.pieces,
            records.reverse ++ out.records⟩) := by
  induction sections with
  | nil =>
    refine ⟨[], fun table settings before out _ => ?_⟩
    dsimp only
    rw [List.map_nil, List.flatten_nil, List.append_nil]
    rfl
  | cons s sections ih =>
    obtain ⟨others, hothers⟩ := ih
    have hlogged : Yields (image.sectionRecords s : Except (Fault DisassemblyError) _) _
        fun _ => False := image.sectionRecords_yields s
    obtain ⟨records, hrecords, -⟩ := hlogged.exists_ok
    refine ⟨records ++ others, fun table settings before out hcount => ?_⟩
    dsimp only
    rw [List.length_cons] at hcount
    have hlines := image.length_sectionLines_lt d f.mode s
    rw [List.foldlM_cons, Printer.after_bind_of_ok
      (f.printSection_after image table settings hrecords before (by omega) out),
      hothers table settings _ _ (by rw [List.length_append]; omega)]
    simp

end Frame

/-! ### Images -/

/-- The lines of an image. -/
structure Listing (d : Disassembler.Core) extends Frame d where
  /-- The lines of each section of code. -/
  groups : List (List (Line d.Instruction))

/-- All lines, section by section. -/
def Listing.lines {d : Disassembler.Core} (l : Listing d) : List (Line d.Instruction) :=
  l.groups.flatten

namespace Image

variable (image : Image)

/-- The lines of an image, unless its machine is not known. -/
def listing (d : Disassembler.Core) : Except (Fault DisassemblyError) (Listing d) := do
  let mode ← Fault.lift (X86.Mode.ofMachine image.machine)
  return ⟨⟨image.kind, image.base, mode⟩, image.codeSections.map (image.sectionLines d mode)⟩

/-- What every listing of an image is made of: its lines, and some log records. -/
structure Disassembly (d : Disassembler) (l : Listing d) (records : List Log.Record) : Prop where
  /-- The lines are those of the image. -/
  listing_eq : image.listing d = .ok l
  /-- They are for the layout of the image. -/
  kind_eq : l.kind = image.kind
  /-- They are for the base of the image. -/
  base_eq : l.base = image.base
  /-- There is one group for each section of code, which covers it. -/
  covers : List.Forall₂ (fun s lines =>
    Covers d l.mode (image.sectionBase s) (s.codeIn image.buffer) lines)
    image.codeSections l.groups
  /-- Printing a listing prints and counts the lines. -/
  printListing_after : ∀ (table : SymbolTable) (settings : ListingSettings) (out : Printout),
    (image.printListing d table settings).after out =
      (.ok (l.tally table settings l.lines),
        ⟨(l.lines.flatMap (l.pieces table settings)).reverse ++ out.pieces,
          records.reverse ++ out.records⟩)

/-- An image for a machine whose code can be decoded has lines of which every listing is made, whatever
the symbols and settings are. -/
theorem exists_disassembly (d : Disassembler) (hsections : image.sections.length < 0x10000)
    (hmachine : image.machine ≠ .ia64) : ∃ l records, image.Disassembly d l records := by
  have hlimit : Word.limit = 0x10000000000000000 := rfl
  have hlength : image.codeSections.length ≤ image.sections.length := List.length_filter_le _ _
  obtain ⟨mode, hmode, -⟩ :=
    (image.ofMachine_yields.mono (fun _ => id) fun _ hia64 => hmachine hia64).exists_ok
  let frame : Frame d.toCore := ⟨image.kind, image.base, mode⟩
  obtain ⟨records, hprinted⟩ := frame.exists_foldlM_printSection_after image image.codeSections
  refine ⟨⟨frame, image.codeSections.map (image.sectionLines d mode)⟩, records, ?_, rfl, rfl, ?_, ?_⟩
  · unfold listing
    rw [hmode]
    rfl
  · rw [List.forall₂_map_right_iff, List.forall₂_same]
    exact fun s _ => image.covers_sectionLines d mode s
  · intro table settings out
    unfold printListing
    rw [Printer.after_bind_of_ok (Printer.after_ofExcept hmode out)]
    exact hprinted table settings [] out (by rw [List.length_nil]; omega)

/-- Every line is one of a section, whose lines cover its code. -/
theorem Disassembly.exists_covers {image : Image} {d : Disassembler} {l : Listing d}
    {records : List Log.Record} (h : image.Disassembly d l records)
    {lines : List (Line d.Instruction)} (hmem : lines ∈ l.groups) :
    ∃ s ∈ image.codeSections,
      Covers d l.mode (image.sectionBase s) (s.codeIn image.buffer) lines := by
  obtain ⟨⟨n, hn⟩, rfl⟩ := List.mem_iff_get.mp hmem
  have hn' : n < image.codeSections.length := h.covers.length_eq ▸ hn
  exact ⟨_, List.get_mem _ ⟨n, hn'⟩, h.covers.get hn' hn⟩

/-- A listing has the text, the counts and the log records of its lines. -/
theorem Disassembly.writeListing_eq {image : Image} {d : Disassembler} {l : Listing d}
    {records : List Log.Record} (h : image.Disassembly d l records) (table : SymbolTable)
    (settings : ListingSettings) :
    image.writeListing d table settings =
      .ok ⟨String.join (l.lines.map (l.printed table settings)), l.tally table settings l.lines,
        records⟩ := by
  unfold writeListing
  rw [h.printListing_after table settings {}]
  simp [Frame.join_flatMap_pieces]

end Image

end PeListing
