import PeListing.Proofs.ImageRange
import PeListing.Proofs.Rounds

/-!
# A listing stays in range

The code of a section lies inside the buffer and is shorter than `2 ^ 32` bytes. Every round of a
sweep takes at least one byte of the code and raises each count by at most one, so no count gets
ahead of the bytes. With the number of sections below `2 ^ 16`, none leaves its range.

`p.Settles good` is `Yields` for a listing in progress, whatever has been printed before. There is one
statement for each step. All of it holds of any decoder that stays inside the code, also of one that
refuses a position: then the listing ends in a defect.
-/

namespace PeListing

variable {ε : Type} {bad : ε → Prop}

/-! ### Sections -/

namespace Section

/-- The name of a section is found inside its eight bytes. -/
theorem nameText_yields (s : Section) :
    Yields (s.nameText : Except (Fault ε) String) (fun _ => True) bad :=
  (Yields.range (Nat.zero_le _) List.findIdx_le_length).map fun _ _ => trivial

/-- The bytes of a section's extent that are in the file. -/
def codeIn (s : Section) (b : Buffer) : List UInt8 :=
  b.window s.rawOffset.toNat (min (s.rawOffset.toNat + s.extent) b.size)

/-- The code of a section has fewer than `2 ^ 32` bytes. -/
theorem length_codeIn_lt (s : Section) (b : Buffer) : (s.codeIn b).length < 0x100000000 := by
  have hextent := s.extent_lt
  rw [codeIn, b.window_eq, List.length_take]
  omega

/-- A section has its code in the file, and a section that starts outside has none. -/
theorem code?_yields (s : Section) (b : Buffer) :
    Yields (s.code? b : Except (Fault ε) (Option (List UInt8)))
      (fun code? => code?.getD [] = s.codeIn b) bad := by
  have hlimit : Word.limit = 0x10000000000000000 := rfl
  have hextent := s.extent_lt
  have hoffset := lt_two_pow_32 s.rawOffset
  have hstop : s.rawRange.2 = s.rawOffset.toNat + s.extent := Word.satAdd_of_lt (by omega)
  have hstart : s.rawRange.1 = s.rawOffset.toNat := rfl
  unfold Section.code?
  dsimp only
  rw [hstop, hstart, codeIn, b.window_eq]
  split
  · refine (Yields.bufferRange (by omega) (by omega)).bind ?_
    rintro _ rfl
    exact .pure rfl
  · next hnot =>
    refine .pure ?_
    have hzero : min (s.rawOffset.toNat + s.extent) b.size - s.rawOffset.toNat = 0 := by omega
    rw [hzero]
    rfl

end Section

/-- What is logged about a section is always there. -/
theorem Image.sectionRecords_yields (image : Image) (s : Section) :
    Yields (image.sectionRecords s : Except (Fault ε) (List Log.Record)) (fun _ => True) bad := by
  unfold sectionRecords
  refine s.nameText_yields.bind fun name _ => ?_
  dsimp only
  split
  · exact .pure trivial
  · next h =>
    refine (Yields.sub (Nat.le_of_not_ge h)).bind fun _ _ => ?_
    split <;> exact .pure trivial

/-! ### Listings in progress -/

namespace Printer

variable {α β : Type}

/-- From every printout on, a listing ends in a value with some property or in a defect. -/
def Settles (p : Printer α) (good : α → Prop) : Prop :=
  ∀ out, Yields (p.after out).1 good fun _ => True

namespace Settles

variable {p : Printer α} {good : α → Prop}

/-- A value settles a listing. -/
theorem pure {a : α} (h : good a) : Settles (Pure.pure a) good := fun _ => h

/-- A sequence settles if each of its steps does. -/
theorem bind {f : α → Printer β} {good' : β → Prop} (hp : p.Settles good)
    (hf : ∀ a, good a → (f a).Settles good') : (p >>= f).Settles good' := by
  intro out
  have hout := hp out
  rcases hafter : p.after out with ⟨fault | a, out'⟩
  · rw [hafter] at hout
    obtain ⟨cause, rfl, -⟩ := hout.exists_defect rfl
    rw [after_bind_of_error hafter]
    exact trivial
  · rw [hafter] at hout
    rw [after_bind_of_ok hafter]
    exact hf a hout out'

/-- What is known of the value may be weakened. -/
theorem weaken {good' : α → Prop} (h : p.Settles good) (hgood : ∀ a, good a → good' a) :
    p.Settles good' := fun out => (h out).weaken hgood

theorem logAll (records : List Log.Record) : (Printer.logAll records).Settles fun _ => True :=
  fun _ => trivial

/-- A computation beside the listing settles as it ends. -/
theorem ofExcept {x : Except (Fault DisassemblyError) α} (h : Yields x good fun _ => True) :
    (Printer.ofExcept x).Settles good := fun _ => h

end Settles

end Printer

/-! ### Counts -/

/-- No count is above a bound. -/
structure ListingStats.Within (bound : Nat) (stats : ListingStats) : Prop where
  /-- The instructions are not. -/
  instructions_le : stats.instructions ≤ bound
  /-- The bytes that are none are not. -/
  invalidBytes_le : stats.invalidBytes ≤ bound
  /-- The labels are not. -/
  labels_le : stats.labels ≤ bound

/-- Counts below a bound are below a higher one. -/
theorem ListingStats.Within.mono {bound bound' : Nat} {stats : ListingStats}
    (h : stats.Within bound) (hle : bound ≤ bound') : stats.Within bound' :=
  ⟨h.1.trans hle, h.2.trans hle, h.3.trans hle⟩

namespace Frame

variable {d : Disassembler.Core} (f : Frame d) (table : SymbolTable) (settings : ListingSettings)

/-- No count gets ahead of the bytes of the code. -/
theorem printCode_settles {code : Array UInt8} (start : UInt64) {bound : Nat}
    (hbound : bound + code.size < Word.limit) {stats : ListingStats} {c : Cursor}
    (hc : c.position ≤ code.size) (hstats : stats.Within (bound + c.position)) :
    (f.printCode table settings code start stats c).Settles
      (ListingStats.Within (bound + code.size)) := by
  obtain ⟨hinstructions, hinvalidBytes, hlabels⟩ := hstats
  rw [printCode]
  split
  · next hlt =>
    intro out
    rw [Printer.after_bind_of_ok (f.printLabel_after table settings (by omega) _ out)]
    have hround := f.round_yields table settings
      { stats with labels := stats.labels +
        (f.labelAt table settings (start + UInt64.ofNat c.position)).isSome.toNat }
      (start + UInt64.ofNat c.position) (by dsimp only; omega) (by dsimp only; omega) hlt (by omega)
    split
    · next fault hfault =>
      obtain ⟨cause, rfl, -⟩ := hround.exists_defect hfault
      exact trivial
    · next r hr =>
      have hnext := f.position_lt_of_round table settings hlt hr
      have htakes := hround.of_ok hr
      rw [Printer.after_bind_of_ok (f.printRound_after r _)]
      refine printCode_settles start hbound ?_ ?_ _
      · rw [htakes.position_eq, htakes.line_eq]
        exact (d.taken_inside f.mode hlt).2
      · rw [htakes.stats_eq]
        have hlabel := Bool.toNat_le
          (f.labelAt table settings (start + UInt64.ofNat c.position)).isSome
        have hsome := Bool.toNat_le r.line.instruction.isSome
        have hnone := Bool.toNat_le r.line.instruction.isNone
        constructor <;> dsimp only <;> omega
  · exact .pure (ListingStats.Within.mono ⟨hinstructions, hinvalidBytes, hlabels⟩ (by omega))
termination_by code.size - c.position

/-- A section raises the counts by less than `2 ^ 32`. -/
theorem printSection_settles (image : Image) (s : Section) {bound : Nat}
    (hbound : bound + 0x100000000 < Word.limit) {stats : ListingStats}
    (hstats : stats.Within bound) :
    (f.printSection table settings image stats s).Settles
      (ListingStats.Within (bound + 0x100000000)) := by
  have hlength := s.length_codeIn_lt image.buffer
  unfold printSection
  refine (Printer.Settles.ofExcept (image.sectionRecords_yields s)).bind fun records _ => ?_
  refine (Printer.Settles.logAll records).bind fun _ _ => ?_
  refine (Printer.Settles.ofExcept (s.code?_yields image.buffer)).bind fun code? hcode => ?_
  cases code? with
  | none => exact .pure (hstats.mono (by omega))
  | some code =>
    rw [← hcode, Option.getD_some] at hlength
    have hsize : code.toArray.size = code.length := List.size_toArray
    refine (f.printCode_settles table settings (image.sectionBase s) (by omega)
      (Nat.zero_le _) (hstats.mono (Nat.le_add_right _ _))).weaken fun stats' hstats' => ?_
    exact hstats'.mono (by omega)

/-- Sections raise the counts by less than `2 ^ 32` each. -/
theorem foldlM_printSection_settles (image : Image) (sections : List Section) {bound : Nat}
    (hbound : bound + sections.length * 0x100000000 < Word.limit) {stats : ListingStats}
    (hstats : stats.Within bound) :
    (sections.foldlM (f.printSection table settings image) stats).Settles fun _ => True := by
  induction sections generalizing bound stats with
  | nil => exact .pure trivial
  | cons s sections ih =>
    rw [List.length_cons] at hbound
    rw [List.foldlM_cons]
    refine (f.printSection_settles table settings image s (by omega) hstats).bind
      fun stats' hstats' => ?_
    exact ih (by omega) hstats'

end Frame

/-! ### The listing of an image -/

namespace Image

variable (image : Image)

/-- A machine has a mode unless its code cannot be decoded. -/
theorem ofMachine_yields : Yields (Fault.lift (X86.Mode.ofMachine image.machine)) (fun _ => True)
    fun _ => image.machine = .ia64 := by
  cases image.machine with
  | i386 => exact trivial
  | amd64 => exact trivial
  | ia64 => exact rfl

/-- Printing the listing of an image ends in its counts or in a defect. -/
theorem printListing_settles (d : Disassembler.Core) (h : image.sections.length < 0x10000)
    (table : SymbolTable) (settings : ListingSettings) :
    (image.printListing d table settings).Settles fun _ => True := by
  have hlimit : Word.limit = 0x10000000000000000 := rfl
  have hsections : image.codeSections.length ≤ image.sections.length := List.length_filter_le _ _
  unfold printListing
  refine (Printer.Settles.ofExcept (image.ofMachine_yields.mono (fun _ => id)
    fun _ _ => trivial)).bind fun mode _ => ?_
  exact Frame.foldlM_printSection_settles _ table settings image _ (by omega)
    ⟨Nat.le_refl 0, Nat.le_refl 0, Nat.le_refl 0⟩

/-- Writing the listing of an image ends in a listing or in a defect. -/
theorem writeListing_yields (d : Disassembler.Core) (h : image.sections.length < 0x10000)
    (table : SymbolTable) (settings : ListingSettings) :
    Yields (image.writeListing d table settings) (fun _ => True) fun _ => True := by
  have hsettles := image.printListing_settles d h table settings {}
  unfold writeListing
  rcases hafter : (image.printListing d table settings).after {} with ⟨fault | stats, out⟩
  · rw [hafter] at hsettles
    obtain ⟨cause, rfl, -⟩ := hsettles.exists_defect rfl
    exact trivial
  · exact trivial

end Image

end PeListing
