import PeListing.Proofs.WalkAdvance

/-!
# How far each walk gets

One statement for each walk over the directories of an image: it ends in an advance whose charge is
known beforehand, with a value or with a defect of resolution. At the top the whole table costs at
most two entries for each export that the settings allow, one for each import that they allow, one
for each descriptor that the file has room for, and one for each of the entry point and the two
directories.
-/

namespace PeListing

/-! ### Tables and records -/

namespace Buffer

/-- The place of an element is found within the range of numbers. -/
theorem elementOffset_yields (b : Buffer) (table index width : Nat) :
    Yields (liftM (b.elementOffset table index width)) (fun _ => True) Defect.OfResolution := by
  unfold elementOffset
  split
  · exact trivial
  · exact .throw rfl

/-- An element of four bytes is read within the range of numbers. -/
theorem tableU32_yields (b : Buffer) (table index : Nat) :
    Yields (liftM (b.tableU32 table index)) (fun _ => True) Defect.OfResolution := by
  unfold tableU32
  refine (b.elementOffset_yields table index 4).lift_bind fun offset _ => ?_
  split
  · exact trivial
  · exact .throw rfl

/-- An element of two bytes is read within the range of numbers. -/
theorem tableU16_yields (b : Buffer) (table index : Nat) :
    Yields (liftM (b.tableU16 table index)) (fun _ => True) Defect.OfResolution := by
  unfold tableU16
  refine (b.elementOffset_yields table index 2).lift_bind fun offset _ => ?_
  split
  · exact trivial
  · exact .throw rfl

end Buffer

/-- The record of the exports is read within the range of numbers. -/
theorem ExportDirectory.read_yields (b : Buffer) (offset : Nat) :
    Yields (liftM (ExportDirectory.read b offset)) (fun _ => True) Defect.OfResolution := by
  unfold ExportDirectory.read
  split
  · exact trivial
  · exact .throw rfl

/-- A descriptor of imports is read within the range of numbers. -/
theorem ImportDescriptor.read_yields (b : Buffer) (offset : Nat) :
    Yields (liftM (ImportDescriptor.read b offset)) (fun _ => True) Defect.OfResolution := by
  unfold ImportDescriptor.read
  split
  · exact trivial
  · exact .throw rfl

/-- A thunk is read within the range of numbers. -/
theorem Thunk.read_yields (b : Buffer) (offset : Nat) (kind : Kind) :
    Yields (liftM (Thunk.read b offset kind)) (fun _ => True) Defect.OfResolution := by
  unfold Thunk.read
  split
  · exact trivial
  · exact .throw rfl

/-- The slots of the first `2 ^ 32` thunks have addresses. -/
theorem ImportDescriptor.slotAddress_yields (d : ImportDescriptor) (kind : Kind) {index : Nat}
    (h : index < 0x100000000) :
    Yields (d.slotAddress kind index) (fun _ => True) Defect.OfResolution := by
  have hlimit : Word.limit = 0x10000000000000000 := rfl
  have hsize : kind.thunkSize ≤ 8 := by cases kind <;> decide
  have hinside : index * kind.thunkSize ≤ 0x100000000 * 8 := Nat.mul_le_mul (Nat.le_of_lt h) hsize
  have hthunk := lt_two_pow_32 d.firstThunk
  unfold ImportDescriptor.slotAddress
  refine (Yields.mul (by omega)).bind ?_
  rintro _ rfl
  exact (Yields.add (by omega)).map fun _ _ => trivial

/-- Every file name has a stem. -/
theorem moduleStem_yields {ε : Type} {bad : ε → Prop} (fileName : String) :
    Yields (moduleStem fileName : Except (Fault ε) String) (fun _ => True) bad := by
  obtain ⟨stem, hstem⟩ := exists_isStemOf fileName
  rw [moduleStem_of_isStemOf hstem]
  trivial

namespace Walk

variable (image : Image) (settings : SymbolSettings) {cap : Nat} {p : Progress}

/-- A name is read within the range of numbers. -/
theorem readName_yields (rva : Nat) :
    Yields (readName image settings rva) (fun _ => True) Defect.OfResolution :=
  image.nameAt_yields rva _

/-- The name of a module is read within the range of numbers. -/
theorem readModuleName_yields (rva : UInt32) :
    Yields (readModuleName image settings rva) (fun _ => True) Defect.OfResolution :=
  (readName_yields image settings rva.toNat).bind fun fileName _ => moduleStem_yields fileName

/-! ### Exports -/

/-- Reading the name of an export leaves the progress alone. -/
theorem exportName_quiet (namesOffset index : Nat) :
    (do
      let rva ← image.buffer.tableU32 namesOffset index
      readName image settings rva.toNat : Walk String).Quiet p fun _ => True :=
  Quiet.bind (.liftM_defect (image.buffer.tableU32_yields namesOffset index)) fun rva _ =>
    .liftM (readName_yields image settings rva.toNat)

/-- A name costs one at most: it is passed over if its ordinal or its text cannot be read. -/
theorem pairName_advances (namesOffset ordinalsOffset index : Nat) (names : Array (Option String))
    (hlt : p.weight cap + 1 < Word.limit) :
    (pairName image settings namesOffset ordinalsOffset index names).Advances cap .exports 1 p
      (·.size = names.size) := by
  unfold pairName
  refine Advances.recover_bind hlt
    (.liftM_defect (image.buffer.tableU16_yields ordinalsOffset index))
    (fun _ => .pure rfl) fun ordinal _ => ?_
  dsimp only
  split
  · exact .note_bind rfl rfl (.pure rfl)
  · exact .pure rfl
  · next hordinal =>
    refine Advances.recover_bind hlt (exportName_quiet image settings namesOffset index)
      (fun _ => .pure rfl) fun name _ => ?_
    obtain ⟨hbound, -⟩ := Array.getElem?_eq_some_iff.mp hordinal
    refine .of_quiet (.ofExcept ?_)
    rw [Select.replace_of_lt hbound]
    exact Array.size_set hbound

/-- The run: pairing names is charged for each of them. -/
theorem pairNames_advances (namesOffset ordinalsOffset count index : Nat)
    (names : Array (Option String)) (hlt : p.weight cap + count < Word.limit) :
    (pairNames image settings namesOffset ordinalsOffset count index names).Advances cap .exports
      count p (·.size = names.size) := by
  induction count generalizing p index names with
  | zero => exact .pure rfl
  | succ count ih =>
    unfold pairNames
    refine (pairName_advances image settings namesOffset ordinalsOffset index names
      (by omega)).bind (l := count) (by omega) fun names' q hsize hq => ?_
    have hweight := hq.weight_le
    exact (ih (index + 1) names' (by omega)).mono (Nat.le_refl _) fun _ h => h.trans hsize

/-- The names of the exports are charged for each of them. -/
theorem exportNames_advances (directory : ExportDirectory) (functionCount nameCount : Nat)
    (hlt : p.weight cap + nameCount < Word.limit) :
    (exportNames image settings directory functionCount nameCount).Advances cap .exports nameCount
      p (·.size = functionCount) := by
  unfold exportNames
  dsimp only
  split
  · exact .pure Array.size_replicate
  · refine .quiet_bind (.liftM (image.resolve_yields _)) fun namesOffset _ => ?_
    refine .quiet_bind (.liftM (image.resolve_yields _)) fun ordinalsOffset _ => ?_
    exact (pairNames_advances image settings namesOffset ordinalsOffset nameCount 0 _ hlt).mono
      (Nat.le_refl _) fun _ h => h.trans Array.size_replicate

/-- A function costs one at most: it is inserted, passed over or unused. -/
theorem insertExports_advances (directory : ExportDirectory) (moduleName : String)
    (functionsOffset : Nat) (names : List (Option String)) (index inserted : Nat)
    (hinserted : inserted + names.length < Word.limit)
    (hlt : p.weight cap + names.length < Word.limit) :
    (insertExports image settings directory moduleName functionsOffset names index
      inserted).Advances cap .exports names.length p fun _ => True := by
  induction names generalizing p index inserted with
  | nil => exact .pure trivial
  | cons name? names ih =>
    rw [List.length_cons] at hinserted hlt ⊢
    unfold insertExports
    refine Advances.recover_bind (by omega)
      (.liftM_defect (image.buffer.tableU32_yields functionsOffset index)) (fun cause => ?_)
      fun rva _ => ?_
    · refine ih (index + 1) inserted (by omega) ?_
      rw [Progress.weight_pass]
      omega
    · dsimp only
      split
      · exact (ih (index + 1) inserted (by omega) (by omega)).mono (Nat.le_succ _) fun _ => id
      · refine .insert_bind (.exported _) (.quiet_bind (.ofExcept (Yields.add (by omega))) ?_)
        rintro _ rfl
        refine ih (index + 1) (inserted + 1) (by omega) ?_
        rw [Progress.weight_insert]
        omega

/-- Cutting the number of functions is free. -/
theorem clampExports_advances (declared : UInt32) :
    (clampExports settings declared).Advances cap .exports 0 p
      fun count => count.toNat ≤ settings.maxExports.toNat := by
  unfold clampExports
  split
  · exact .note_bind rfl rfl (.pure (Nat.le_refl _))
  · next h => exact .pure (UInt32.le_iff_toNat_le.mp (UInt32.not_lt.mp h))

/-- The exports cost the entry point and two entries for each function that the settings allow. -/
theorem walkExports_advances (rva : UInt32)
    (hlt : p.weight cap + (2 * settings.maxExports.toNat + 1) < Word.limit) :
    (walkExports image settings rva).Advances cap .exports (2 * settings.maxExports.toNat + 1) p
      fun _ => True := by
  have hlimit : Word.limit = 0x10000000000000000 := rfl
  have hmax := lt_two_pow_32 settings.maxExports
  unfold walkExports
  refine .quiet_bind (.liftM (image.resolve_yields rva.toNat)) fun offset _ => ?_
  refine .quiet_bind (.liftM_defect (ExportDirectory.read_yields _ offset)) fun directory _ => ?_
  refine .quiet_bind (.liftM (readModuleName_yields image settings _)) fun moduleName _ => ?_
  refine .insert_bind (.exported _) ?_
  refine (clampExports_advances settings _).bind (l := 2 * settings.maxExports.toNat) (by omega)
    fun functionCount q hcount hq => ?_
  have hq := hq.weight_le
  rw [Progress.weight_insert] at hq
  split
  · exact .note rfl rfl trivial
  · have hnames : min directory.nameCount.toNat settings.maxExports.toNat ≤
        settings.maxExports.toNat := Nat.min_le_right _ _
    dsimp only
    refine (exportNames_advances image settings directory functionCount.toNat _ (by omega)).bind
      (l := functionCount.toNat) (by omega) fun names r hsize hr => ?_
    have hr := hr.weight_le
    have hlength : names.toList.length = functionCount.toNat := hsize
    refine .quiet_bind (.liftM (image.resolve_yields _)) fun functionsOffset _ => ?_
    refine (insertExports_advances image settings directory moduleName functionsOffset
      names.toList 0 0 (by omega) (by omega)).bind (l := 0) (by omega) fun _ _ _ _ => ?_
    exact .note rfl rfl trivial

/-! ### Imports -/

/-- The name that a thunk gives is read within the range of numbers. -/
theorem thunkName_yields {thunk : Thunk} {name : Except (Fault Defect) String}
    (h : thunkName image settings thunk = some name) :
    Yields name (fun _ => True) Defect.OfResolution := by
  have hlimit : Word.limit = 0x10000000000000000 := rfl
  cases thunk with
  | stop => cases h
  | ordinal number =>
    cases h
    exact .pure trivial
  | byName rva =>
    cases h
    have hrva := lt_two_pow_32 rva
    exact (Yields.add (by omega)).bind fun nameRva _ => readName_yields image settings nameRva

/-- The symbol of a slot stands at an address that is free. -/
theorem importSymbol_quiet (moduleName : String) (address : UInt64)
    {name : Except (Fault Defect) String} (h : Yields name (fun _ => True) Defect.OfResolution) :
    (importSymbol moduleName address name).Quiet p
      fun s => p.table.contains s.address = false := by
  unfold importSymbol
  refine .get_bind ?_
  dsimp only
  split
  · exact ⟨rfl, rfl⟩
  · next hfree => exact Quiet.bind (.liftM h) fun _ _ => ⟨eq_false_of_ne_true hfree, rfl⟩

/-- The imported functions of a descriptor cost nothing beyond the functions that may still be
met. -/
theorem walkThunks_advances (descriptor : ImportDescriptor) (moduleName : String)
    (lookupOffset budget index : Nat)
    (hbudget : budget ≤ settings.maxImports.toNat - p.importsWalked)
    (hindex : index + budget < 0x100000000)
    (hlt : p.weight settings.maxImports.toNat < Word.limit) :
    (walkThunks image settings descriptor moduleName lookupOffset budget index).Advances
      settings.maxImports.toNat .imports 0 p fun _ => True := by
  have hlimit : Word.limit = 0x10000000000000000 := rfl
  have hmax := lt_two_pow_32 settings.maxImports
  induction budget generalizing p index with
  | zero => exact .pure trivial
  | succ budget ih =>
    unfold walkThunks
    refine .quiet_bind (.liftM_defect (image.buffer.elementOffset_yields _ _ _)) fun offset _ => ?_
    refine .quiet_bind (.liftM_defect (Thunk.read_yields _ offset _)) fun thunk _ => ?_
    split
    · exact .pure trivial
    · next name hname =>
      -- From here on one entry is paid for: the symbol of this thunk or its defect.
      refine .countImport_bind (by omega) hmax ?_
      have hweight : p.countImport.weight settings.maxImports.toNat + 1 =
        p.weight settings.maxImports.toNat := Progress.weight_countImport (by omega)
      refine .quiet_bind (.liftM (descriptor.slotAddress_yields _ (by omega))) fun address _ => ?_
      refine .quiet_bind (.ofExcept (Yields.add (by omega))) ?_
      rintro _ rfl
      have hleft : budget ≤ settings.maxImports.toNat - p.countImport.importsWalked :=
        Nat.le_sub_of_add_le (by rw [Progress.importsWalked_countImport]; omega)
      refine Advances.recover_bind (by omega)
        (importSymbol_quiet moduleName address (thunkName_yields image settings hname))
        (fun cause => ?_) fun s hfree => ?_
      · refine ih (index + 1) hleft (by omega) ?_
        rw [Progress.weight_pass]
        omega
      · refine .insert_bind (.imported s hfree) (ih (index + 1) hleft (by omega) ?_)
        rw [Progress.weight_insert]
        omega

/-- The imports from one module are free, since each was charged for when it could still be met. -/
theorem walkDescriptor_advances (descriptor : ImportDescriptor)
    (hlt : p.weight settings.maxImports.toNat < Word.limit) :
    (walkDescriptor image settings descriptor).Advances settings.maxImports.toNat .imports 0 p
      fun _ => True := by
  have hmax := lt_two_pow_32 settings.maxImports
  unfold walkDescriptor
  refine .quiet_bind (.liftM (readModuleName_yields image settings _)) fun moduleName _ => ?_
  refine .quiet_bind (.liftM (image.resolve_yields _)) fun lookupOffset _ => .get_bind ?_
  dsimp only
  refine (walkThunks_advances image settings descriptor moduleName lookupOffset _ 0
    (Nat.le_refl _) (by omega) hlt).bind (l := 0) (by omega) fun _ _ _ _ => ?_
  exact .note rfl rfl trivial

/-- A descriptor costs one at most: it is passed over where it fails. -/
theorem walkDescriptors_advances (room offset modules : Nat)
    (hmodules : modules + room < Word.limit)
    (hlt : p.weight settings.maxImports.toNat + room < Word.limit) :
    (walkDescriptors image settings room offset modules).Advances settings.maxImports.toNat .imports
      room p fun _ => True := by
  induction room generalizing p offset modules with
  | zero => exact .throw rfl
  | succ room ih =>
    unfold walkDescriptors
    refine .quiet_bind (.liftM_defect (ImportDescriptor.read_yields _ offset))
      fun descriptor _ => ?_
    split
    · exact .pure trivial
    · refine ((walkDescriptor_advances image settings descriptor (by omega)).recover
        (by omega)).bind (l := room) (by omega) fun _ q _ hq => ?_
      have hq := hq.weight_le
      refine .quiet_bind (.ofExcept (Yields.add (by omega))) ?_
      rintro _ rfl
      refine .get_bind ?_
      split
      · exact .note_bind rfl rfl (.pure trivial)
      · split
        · exact ih _ _ (by omega) (by omega)
        · exact .throw rfl

/-- The imports cost one entry for each descriptor that the file has room for. -/
theorem walkImports_advances (rva : UInt32)
    (hlt : p.weight settings.maxImports.toNat +
      image.buffer.size / ImportDescriptor.recordSize < Word.limit) :
    (walkImports image settings rva).Advances settings.maxImports.toNat .imports
      (image.buffer.size / ImportDescriptor.recordSize) p fun _ => True := by
  unfold walkImports
  refine .quiet_bind (.liftM (image.resolve_yields _)) fun offset _ => ?_
  have hroom : (image.buffer.size - offset) / ImportDescriptor.recordSize ≤
    image.buffer.size / ImportDescriptor.recordSize := Nat.div_le_div_right (Nat.sub_le _ _)
  refine (walkDescriptors_advances image settings _ offset 0 (by omega) (by omega)).bind (l := 0)
    hroom fun _ _ _ _ => .get_bind ?_
  exact .note rfl rfl trivial

/-! ### The image -/

/-- A directory is charged for its walk and for passing over it. -/
theorem walkDirectory_ends {k : Nat} {policy : UnresolvedPolicy} {entry : Entry}
    {absent : Event} {walk : UInt32 → Walk Unit} (directory : DataDirectory)
    (hlt : p.weight cap + k + 1 < Word.limit) (hinsertion : absent.insertion? = none)
    (hpassing : absent.passing? = none)
    (hwalk : ∀ rva, (walk rva).Advances cap entry.phase k p fun _ => True) :
    (walkDirectory policy directory entry absent walk).Ends p
      (fun _ q => Advance cap entry.phase (k + 1) p q)
      fun cause _ => policy = .abort ∧ cause.OfResolution := by
  unfold walkDirectory
  split
  · have hrecover : (recover policy entry (walk directory.virtualAddress)).Ends p
        (fun _ q => Advance cap entry.phase (k + 1) p q)
        fun cause _ => policy = .abort ∧ cause.OfResolution :=
      ((hwalk _).recover_ends hlt).mono (fun _ _ => id)
        fun _ _ ⟨habort, hcause, _⟩ => ⟨habort, hcause⟩
    exact hrecover.bind fun _ _ hq => .pure hq
  · exact Ends.note ⟨.single (.noted absent hinsertion hpassing), Nat.le_add_right _ _⟩

/-- The number of entries that an image can make a walk deal with. -/
def maxLoad : Nat :=
  settings.maxImports.toNat + 2 * settings.maxExports.toNat +
    image.buffer.size / ImportDescriptor.recordSize + 3

/-- The walk over the exports of an image, if it has any. -/
def exportPhase : Walk Unit :=
  walkDirectory settings.unresolved (image.directory Image.exportSlot) .exportDirectory
    .noExportDirectory (walkExports image settings)

/-- The walk over the imports of an image, if it has any. -/
def importPhase : Walk Unit :=
  walkDirectory settings.unresolved (image.directory Image.importSlot) .importDirectory
    .noImportDirectory (walkImports image settings)

/-- The exports of an image are charged for twice their limit. -/
theorem exportPhase_ends :
    (exportPhase image settings).Ends .start
      (fun _ mid => Advance settings.maxImports.toNat .exports
        (2 * settings.maxExports.toNat + 1 + 1) .start mid)
      fun cause _ => settings.unresolved = .abort ∧ cause.OfResolution := by
  have hlimit : Word.limit = 0x10000000000000000 := rfl
  have hexports := lt_two_pow_32 settings.maxExports
  have himports := lt_two_pow_32 settings.maxImports
  have hstart : Progress.start.weight settings.maxImports.toNat = settings.maxImports.toNat :=
    Nat.zero_add _
  exact walkDirectory_ends _ (by omega) rfl rfl fun rva =>
    walkExports_advances image settings rva (by omega)

/-- The imports of an image are charged for each descriptor that the file has room for. -/
theorem importPhase_ends
    (hlt : p.weight settings.maxImports.toNat +
      image.buffer.size / ImportDescriptor.recordSize + 1 < Word.limit) :
    (importPhase image settings).Ends p
      (fun _ q => Advance settings.maxImports.toNat .imports
        (image.buffer.size / ImportDescriptor.recordSize + 1) p q)
      fun cause _ => settings.unresolved = .abort ∧ cause.OfResolution :=
  walkDirectory_ends _ hlt rfl rfl fun rva => walkImports_advances image settings rva (by omega)

/-- After the exports there is room for the imports: all limits are words of 32 bits and the file is
shorter than `2 ^ 63` bytes, so the charges of both directories together are far from the limit of a
count. -/
theorem weight_lt_of_exportPhase {mid : Progress}
    (h : Advance settings.maxImports.toNat .exports (2 * settings.maxExports.toNat + 1 + 1)
      .start mid) :
    mid.weight settings.maxImports.toNat +
      image.buffer.size / ImportDescriptor.recordSize + 1 < Word.limit := by
  have hlimit : Word.limit = 0x10000000000000000 := rfl
  have hexports := lt_two_pow_32 settings.maxExports
  have himports := lt_two_pow_32 settings.maxImports
  have hsize : image.buffer.size < 0x8000000000000000 := image.buffer.size_lt
  have hroom := Nat.div_le_self image.buffer.size ImportDescriptor.recordSize
  have hstart : Progress.start.weight settings.maxImports.toNat = settings.maxImports.toNat :=
    Nat.zero_add _
  have hweight := h.weight_le
  omega

/-- The walk over an image: moves of the exports, then moves of the imports, and no more entries
than the limits allow. It fails only if the policy is to abort. -/
theorem walkImage_ends :
    (walkImage image settings).Ends .start
      (fun _ q => ∃ mid, Moves .exports .start mid ∧ Moves .imports mid q ∧
        q.load ≤ maxLoad image settings)
      fun cause _ => settings.unresolved = .abort ∧ cause.OfResolution := by
  have hstart : Progress.start.weight settings.maxImports.toNat = settings.maxImports.toNat :=
    Nat.zero_add _
  unfold walkImage
  refine (exportPhase_ends image settings).bind fun _ mid hmid => ?_
  have hmidWeight := hmid.weight_le
  refine (importPhase_ends image settings (weight_lt_of_exportPhase image settings hmid)).bind
    fun _ q hq => .get_bind ?_
  have hqWeight := hq.weight_le
  have hload : q.load ≤ q.weight settings.maxImports.toNat := Nat.le_add_right _ _
  refine Ends.note ⟨mid, hmid.moves, hq.moves.tail (.noted _ rfl rfl), ?_⟩
  change q.load ≤ maxLoad image settings
  unfold maxLoad
  omega

end Walk

/-- The outcome of a build in terms of the walk over the image. -/
theorem Image.outcome_eq (image : Image) (settings : SymbolSettings) :
    (image.buildSymbols settings).outcome =
      match (Walk.walkImage image settings).after .start with
      | (.ok _, q) => .ok q.table
      | (.error fault, _) => .error fault := by
  change (((Walk.walkImage image settings).after .start).1.map fun _ =>
    ((Walk.walkImage image settings).after .start).2.table) = _
  rcases (Walk.walkImage image settings).after .start with ⟨_ | _, q⟩ <;> rfl

/-- Building the table of an image ends in a table of bounded size, or in a defect of resolution if
the policy is to abort. -/
theorem Image.buildSymbols_yields (image : Image) (settings : SymbolSettings) :
    Yields (image.buildSymbols settings).outcome
      (fun table => table.size + table.skipped ≤ Walk.maxLoad image settings)
      fun cause => settings.unresolved = .abort ∧ cause.OfResolution := by
  have hwalk := Walk.walkImage_ends image settings
  rw [image.outcome_eq]
  unfold Walk.Ends at hwalk
  match (Walk.walkImage image settings).after .start, hwalk with
  | (.ok _, q), ⟨_, _, _, hload⟩ => exact hload
  | (.error (.defect _), _), h => exact h

/-- Under `skip` there is always a table. -/
theorem Image.exists_outcome_of_skip (image : Image) (settings : SymbolSettings)
    (h : settings.unresolved = .skip) :
    ∃ table, (image.buildSymbols settings).outcome = .ok table := by
  have hbuild := image.buildSymbols_yields settings
  match (image.buildSymbols settings).outcome, hbuild with
  | .ok table, _ => exact ⟨table, rfl⟩
  | .error (.defect _), ⟨habort, _⟩ =>
    rw [h] at habort
    cases habort

end PeListing
