import PeListing.Proofs.DeclaredImports

/-!
# Failures follow the stages

Reading the headers of a file and building the symbols of an image fail in different ways: the first
with defects of the format, the second with defects of resolution (`Image.failures_follow_stages`).

A defect of resolution has its *grounds* in what the walk has come to (`Defect.Grounded`): no
section covers an address, a read does not fit into the file, or the imports have met an address
that a symbol holds already. A walk may end in a defect, or pass over it and keep it in its history.
`w.Accounts image phase` says of both that the defects have their grounds. There is one rule for
each of the steps that walks are made of, and the grounds of all defects but collisions are found by
the single reads (`Misplaces`).
-/

namespace PeListing

/-! ### Grounds -/

/-- The defects of single reads: no section covers an address, or a read does not fit in. -/
inductive Defect.Misplaced (image : Image) : Defect → Prop
  | unresolved {rva : Nat}
      (h : ∀ s ∈ image.sections, s.covers image.sectionTable.alignment rva =
        (.ok false : Except (Fault Defect) Bool)) : Misplaced image (.unresolvedRva rva)
  | outside {offset : Nat} : Misplaced image (.outOfBounds offset image.buffer.size)

/-- What a walk has come to in a phase gives grounds for a defect. Only the imports collide, and
only with a symbol that was inserted before. -/
inductive Defect.Grounded (image : Image) (phase : Phase) (past : List Event) : Defect → Prop
  | misplaced {cause : Defect} (h : cause.Misplaced image) : Grounded image phase past cause
  | collision {inserter : Phase} {s : Symbol} (himports : phase = .imports)
      (hinserted : .inserted inserter s ∈ past) :
      Grounded image phase past (.symbolCollision s.address)

/-- The defect of a single read is one of resolution. -/
theorem Defect.Misplaced.ofResolution {image : Image} {cause : Defect} (h : cause.Misplaced image) :
    cause.OfResolution := by
  cases h <;> rfl

/-- A defect with grounds is one of resolution. -/
theorem Defect.Grounded.ofResolution {image : Image} {phase : Phase} {past : List Event}
    {cause : Defect} (h : cause.Grounded image phase past) : cause.OfResolution := by
  cases h with
  | misplaced h => exact h.ofResolution
  | collision _ _ => rfl

/-- The grounds of a collision: an import meets the address of an earlier symbol. -/
theorem Defect.Grounded.of_collision {image : Image} {phase : Phase} {past : List Event}
    {address : UInt64} (h : (Defect.symbolCollision address).Grounded image phase past) :
    phase = .imports ∧ ∃ inserter s, .inserted inserter s ∈ past ∧ s.address = address := by
  cases h with
  | misplaced h => cases h
  | collision himports hinserted => exact ⟨himports, _, _, hinserted, rfl⟩

/-- Grounds in a history are grounds in a longer one. -/
theorem Defect.Grounded.of_subset {image : Image} {phase : Phase} {past past' : List Event}
    {cause : Defect} (h : cause.Grounded image phase past) (hpast : past ⊆ past') :
    cause.Grounded image phase past' := by
  cases h with
  | misplaced h => exact .misplaced h
  | collision himports hinserted => exact .collision himports (hpast hinserted)

/-! ### Single reads -/

/-- A computation whose defects are those of single reads. -/
def Misplaces {α : Type} (image : Image) (x : Except (Fault Defect) α) : Prop :=
  ∀ cause, x = .error (.defect cause) → cause.Misplaced image

namespace Misplaces

variable {α β : Type} {image : Image} {x : Except (Fault Defect) α}

/-- A value has no defects. -/
theorem ok (a : α) : Misplaces image (.ok a) := by
  intro cause h
  cases h

/-- A failure with the defect of a single read. -/
theorem error {cause : Defect} (h : cause.Misplaced image) :
    Misplaces image (.error (.defect cause) : Except (Fault Defect) α) := by
  intro cause' h'
  cases h'
  exact h

/-- A sequence has the defects of single reads if each of its steps has. -/
theorem bind {f : α → Except (Fault Defect) β} (hx : Misplaces image x)
    (hf : ∀ a, Misplaces image (f a)) : Misplaces image (x >>= f) := by
  cases x with
  | error fault =>
    intro cause h
    cases h
    exact hx cause rfl
  | ok a => exact hf a

/-- A sequence whose steps are lifted together. -/
theorem lift_bind {y : Except Defect α} {f : α → Except Defect β}
    (hy : Misplaces image (liftM y)) (hf : ∀ a, Misplaces image (liftM (f a))) :
    Misplaces image (liftM (y >>= f)) := by
  cases y with
  | error cause => exact .error (hy cause rfl)
  | ok a => exact hf a

/-- A computation without defects. -/
theorem of_ne (h : ∀ cause, x ≠ .error (.defect cause)) : Misplaces image x :=
  fun cause hx => absurd hx (h cause)

end Misplaces

section Reads

variable (image : Image) (settings : SymbolSettings)

/-- An address resolves, or no section covers it, or it leads outside the buffer. -/
theorem Image.resolve_misplaces (rva : Nat) : Misplaces image (image.resolve rva) := by
  rw [image.resolve_eq]
  cases hfound : image.sectionTable.holder? rva with
  | none =>
    refine .error (.unresolved fun s hs => ?_)
    have hnot := List.find?_eq_none.mp hfound s hs
    rw [s.covers_eq, Bool.eq_false_iff.mpr hnot]
  | some s =>
    dsimp only
    split
    · exact .ok _
    · exact .error .outside

/-- A name is read, or its place lies outside the buffer. -/
theorem Buffer.name_misplaces (offset limit : Nat) :
    Misplaces image (image.buffer.name offset limit) := by
  unfold Buffer.name
  split
  · next h =>
    have hbytes : Yields (image.buffer.nameBytes offset limit : Except (Fault Defect) (List UInt8))
        (fun _ => True) fun _ => False := image.buffer.nameBytes_yields limit h
    obtain ⟨bytes, hok, -⟩ := hbytes.exists_ok
    rw [hok]
    exact .ok _
  · exact .error .outside

/-- The place of an element is found, or it lies outside the buffer. -/
theorem Buffer.elementOffset_misplaces (table index width : Nat) :
    Misplaces image (liftM (image.buffer.elementOffset table index width)) := by
  unfold Buffer.elementOffset
  split
  · exact .ok _
  · exact .error .outside

/-- A word of four bytes in a table fails for its place only. -/
theorem Buffer.tableU32_misplaces (table index : Nat) :
    Misplaces image (liftM (image.buffer.tableU32 table index)) := by
  unfold Buffer.tableU32
  refine (Buffer.elementOffset_misplaces image table index 4).lift_bind fun offset => ?_
  split
  · exact .ok _
  · exact .error .outside

/-- A word of two bytes in a table fails for its place only. -/
theorem Buffer.tableU16_misplaces (table index : Nat) :
    Misplaces image (liftM (image.buffer.tableU16 table index)) := by
  unfold Buffer.tableU16
  refine (Buffer.elementOffset_misplaces image table index 2).lift_bind fun offset => ?_
  split
  · exact .ok _
  · exact .error .outside

/-- The record of the exports fails for its place only. -/
theorem ExportDirectory.read_misplaces (offset : Nat) :
    Misplaces image (liftM (ExportDirectory.read image.buffer offset)) := by
  rw [ExportDirectory.read_eq]
  split
  · exact .ok _
  · exact .error .outside

/-- A descriptor of imports fails for its place only. -/
theorem ImportDescriptor.read_misplaces (offset : Nat) :
    Misplaces image (liftM (ImportDescriptor.read image.buffer offset)) := by
  rw [ImportDescriptor.read_eq]
  split
  · exact .ok _
  · exact .error .outside

/-- A thunk fails for its place only. -/
theorem Thunk.read_misplaces (offset : Nat) :
    Misplaces image (liftM (Thunk.read image.buffer offset image.kind)) := by
  rw [Thunk.read_eq]
  split
  · exact .ok _
  · exact .error .outside

/-- The address of a slot is computed without a defect. -/
theorem ImportDescriptor.slotAddress_misplaces (d : ImportDescriptor) (index : Nat) :
    Misplaces image (d.slotAddress image.kind index) :=
  (Misplaces.of_ne fun _ => Word.mul_ne_defect).bind fun _ =>
    (Misplaces.of_ne fun _ => Word.add_ne_defect).bind fun _ => .ok _

namespace Walk

/-- A name fails for its place only. -/
theorem readName_misplaces (rva : Nat) : Misplaces image (readName image settings rva) :=
  (image.resolve_misplaces rva).bind fun offset => Buffer.name_misplaces image offset _

/-- The name of a module fails for its place only. -/
theorem readModuleName_misplaces (rva : UInt32) :
    Misplaces image (readModuleName image settings rva) := by
  refine (readName_misplaces image settings rva.toNat).bind fun fileName => ?_
  obtain ⟨stem, hstem⟩ := exists_isStemOf fileName
  rw [moduleStem_of_isStemOf hstem]
  exact .ok _

/-- The name that a thunk gives fails for its place only. -/
theorem thunkName_misplaces {thunk : Thunk} {name : Except (Fault Defect) String}
    (h : thunkName image settings thunk = some name) : Misplaces image name := by
  cases thunk with
  | stop => cases h
  | ordinal number =>
    cases h
    exact .ok _
  | byName rva =>
    cases h
    exact (Misplaces.of_ne fun _ => Word.add_ne_defect).bind fun _ =>
      readName_misplaces image settings _

end Walk

end Reads

/-! ### Histories -/

namespace Image

variable (image : Image)

/-- Every entry that was passed over had grounds in what came before. The latest event stands
first. -/
def Explains : List Event → Prop
  | [] => True
  | e :: past =>
    (∀ entry cause, e = .skipped entry cause → cause.Grounded image entry.phase past) ∧
      Explains past

variable {image}

/-- An entry that was passed over has grounds in what was before. -/
theorem Explains.grounded {late early : List Event} {entry : Entry} {cause : Defect}
    (h : image.Explains (late ++ .skipped entry cause :: early)) :
    cause.Grounded image entry.phase early := by
  induction late with
  | nil => exact h.1 entry cause rfl
  | cons e late ih => exact ih h.2

end Image

/-- A progress whose table holds what was inserted and whose history explains itself. -/
structure Progress.Accounted (image : Image) (p : Progress) : Prop where
  recorded : p.Recorded
  explained : image.Explains p.trail

namespace Progress.Accounted

variable {image : Image} {p : Progress}

/-- An event that neither inserts nor passes over anything needs no explanation. -/
theorem note (h : p.Accounted image) {e : Event} (hinsertion : e.insertion? = none)
    (hpassing : e.passing? = none) : (p.note e).Accounted image := by
  refine ⟨h.recorded.congr (p.inserted_note hinsertion) rfl, ?_, h.explained⟩
  intro entry cause heq
  rw [heq] at hpassing
  cases hpassing

/-- An entry with grounds may be passed over. -/
theorem pass (h : p.Accounted image) {entry : Entry} {cause : Defect}
    (hcause : cause.Grounded image entry.phase p.trail) : (p.pass entry cause).Accounted image := by
  refine ⟨h.recorded.congr (p.inserted_pass entry cause) rfl, ?_, h.explained⟩
  intro entry' cause' heq
  cases heq
  exact hcause

/-- A symbol that is inserted needs no explanation. -/
theorem insert (h : p.Accounted image) (phase : Phase) (s : Symbol) :
    (p.insert phase s).Accounted image := by
  refine ⟨h.recorded.insert phase s, ?_, h.explained⟩
  intro entry cause heq
  cases heq

/-- Meeting an imported function needs no explanation. -/
theorem countImport (h : p.Accounted image) : p.countImport.Accounted image :=
  ⟨h.recorded, h.explained⟩

/-- A taken address was given to a symbol. -/
theorem grounded_collision (h : p.Accounted image) {address : UInt64}
    (htaken : p.table.contains address = true) :
    (Defect.symbolCollision address).Grounded image .imports p.trail := by
  obtain ⟨⟨phase, s⟩, hx, rfl⟩ := List.mem_map.mp (h.recorded.contains_iff.mp htaken)
  obtain ⟨e, he, hinsertion⟩ := List.mem_filterMap.mp hx
  have hevent : e = .inserted phase s := by
    cases e <;> cases hinsertion
    rfl
  exact .collision rfl (hevent ▸ List.mem_reverse.mp he)

end Progress.Accounted

/-! ### Walks -/

namespace Walk

variable {α β : Type}

/-- Wherever a walk ends, in a value or in a defect, the defects have their grounds. -/
def Accounts (w : Walk α) (image : Image) (phase : Phase) : Prop :=
  ∀ p : Progress, p.Accounted image → w.Meets p (fun _ q => q.Accounted image)
    fun cause q => cause.Grounded image phase q.trail ∧ q.Accounted image

namespace Accounts

variable {image : Image} {phase : Phase} {w : Walk α}

/-- A value leaves the progress as it was. -/
theorem pure (a : α) : (Pure.pure a : Walk α).Accounts image phase := fun _ hp => .pure hp

/-- The defect of a single read has grounds at any time. -/
theorem throw {cause : Defect} (h : cause.Misplaced image) :
    (throw (.defect cause) : Walk α).Accounts image phase := fun _ hp => .throw ⟨.misplaced h, hp⟩

/-- A sequence accounts for its defects if each of its steps does. -/
theorem bind {f : α → Walk β} (hw : w.Accounts image phase)
    (hf : ∀ a, (f a).Accounts image phase) : (w >>= f).Accounts image phase :=
  fun p hp => (hw p hp).bind fun a q hq => hf a q hq

/-- Looking at the progress changes nothing. -/
theorem get_bind {f : Progress → Walk β} (hf : ∀ p, (f p).Accounts image phase) :
    (get >>= f).Accounts image phase := fun p hp => .get_bind (hf p p hp)

/-- An event that neither inserts nor passes over anything. -/
theorem note {e : Event} (hinsertion : e.insertion? = none) (hpassing : e.passing? = none) :
    (Walk.note e).Accounts image phase := fun _ hp => .note (hp.note hinsertion hpassing)

/-- Inserting a symbol has no defects. -/
theorem insert (phase' : Phase) (s : Symbol) : (Walk.insert phase' s).Accounts image phase :=
  fun _ hp => hp.insert phase' s

/-- A computation with the defects of single reads leaves the progress as it was. -/
theorem liftM {x : Except (Fault Defect) α} (h : Misplaces image x) :
    (MonadLiftT.monadLift x : Walk α).Accounts image phase :=
  fun _ hp => .liftM (fun _ _ => hp) fun cause hx => ⟨.misplaced (h cause hx), hp⟩

/-- A computation beside the walk that cannot leave the range of a number. -/
theorem liftM_defect {x : Except Defect α}
    (h : Misplaces image (MonadLiftT.monadLift x : Except (Fault Defect) α)) :
    (MonadLiftT.monadLift x : Walk α).Accounts image phase := by
  refine fun _ hp => .liftM_defect (fun _ _ => hp) fun cause hx => ⟨.misplaced (h cause ?_), hp⟩
  rw [hx]
  rfl

theorem ofExcept {x : Except (Fault Defect) α} (h : Misplaces image x) :
    (Walk.ofExcept x).Accounts image phase := liftM h

/-- A step that may be passed over. -/
theorem recover {policy : UnresolvedPolicy} {entry : Entry}
    (hw : w.Accounts image entry.phase) :
    (Walk.recover policy entry w).Accounts image entry.phase := by
  refine fun p hp => .recover ((hw p hp).mono (fun _ _ hq => hq) ?_)
  rintro cause q ⟨hcause, hq⟩
  split
  · exact hq.pass hcause
  · exact ⟨hcause, hq⟩

end Accounts

variable (image : Image) (settings : SymbolSettings)

/-! ### Exports -/

/-- The name of an export fails for its place only. -/
theorem exportName_accounts (namesOffset index : Nat) :
    (do
      let rva ← image.buffer.tableU32 namesOffset index
      readName image settings rva.toNat : Walk String).Accounts image .exports :=
  Accounts.bind (.liftM_defect (Buffer.tableU32_misplaces image namesOffset index)) fun rva =>
    .liftM (readName_misplaces image settings rva.toNat)

/-- One step: a name and the function that it belongs to. -/
theorem pairName_accounts (namesOffset ordinalsOffset index : Nat)
    (names : Array (Option String)) :
    (pairName image settings namesOffset ordinalsOffset index names).Accounts image .exports := by
  have hordinal : (recover settings.unresolved .exportNameOrdinal
      (image.buffer.tableU16 ordinalsOffset index) : Walk (Option UInt16)).Accounts image
        .exports :=
    .recover (.liftM_defect (Buffer.tableU16_misplaces image ordinalsOffset index))
  have hname : (recover settings.unresolved .exportName (do
      let rva ← image.buffer.tableU32 namesOffset index
      readName image settings rva.toNat) : Walk (Option String)).Accounts image .exports :=
    .recover (exportName_accounts image settings namesOffset index)
  unfold pairName
  refine hordinal.bind fun ordinal? => ?_
  split
  · exact .pure _
  · split
    · exact .bind (.note rfl rfl) fun _ => .pure _
    · exact .pure _
    · refine hname.bind fun name? => ?_
      split
      · exact .pure _
      · exact .ofExcept (.of_ne fun _ => Select.replace_ne_defect)

/-- The run: all names. -/
theorem pairNames_accounts (namesOffset ordinalsOffset count index : Nat)
    (names : Array (Option String)) :
    (pairNames image settings namesOffset ordinalsOffset count index names).Accounts image
      .exports := by
  induction count generalizing index names with
  | zero => exact .pure _
  | succ count ih =>
    unfold pairNames
    refine (pairName_accounts image settings namesOffset ordinalsOffset index names).bind ?_
    intro names
    exact ih (index + 1) names

/-- The tables of names are accounted for. -/
theorem exportNames_accounts (directory : ExportDirectory) (functionCount nameCount : Nat) :
    (exportNames image settings directory functionCount nameCount).Accounts image .exports := by
  unfold exportNames
  dsimp only
  split
  · exact .pure _
  · refine .bind (.liftM (image.resolve_misplaces _)) fun namesOffset => ?_
    refine .bind (.liftM (image.resolve_misplaces _)) fun ordinalsOffset => ?_
    exact pairNames_accounts image settings namesOffset ordinalsOffset nameCount 0 _

/-- The functions are inserted with their names. -/
theorem insertExports_accounts (directory : ExportDirectory) (moduleName : String)
    (functionsOffset : Nat) (names : List (Option String)) (index inserted : Nat) :
    (insertExports image settings directory moduleName functionsOffset names index
      inserted).Accounts image .exports := by
  induction names generalizing index inserted with
  | nil => exact .pure _
  | cons name? names ih =>
    have hslot : (recover settings.unresolved .exportAddressSlot
        (image.buffer.tableU32 functionsOffset index) : Walk (Option UInt32)).Accounts image
          .exports :=
      .recover (.liftM_defect (Buffer.tableU32_misplaces image functionsOffset index))
    unfold insertExports
    refine hslot.bind fun slot? => ?_
    split
    · exact ih _ _
    · split
      · exact ih _ _
      · refine .bind (.insert .exports _) fun _ => ?_
        exact .bind (.ofExcept (.of_ne fun _ => Word.add_ne_defect)) fun _ => ih _ _

/-- Cutting the number of functions has no defects. -/
theorem clampExports_accounts (declared : UInt32) :
    (clampExports settings declared).Accounts image .exports := by
  unfold clampExports
  split
  · exact .bind (.note rfl rfl) fun _ => .pure _
  · exact .pure _

/-- The exports of a directory are accounted for. -/
theorem walkExports_accounts (rva : UInt32) :
    (walkExports image settings rva).Accounts image .exports := by
  unfold walkExports
  refine .bind (.liftM (image.resolve_misplaces rva.toNat)) fun offset => ?_
  refine .bind (.liftM_defect (ExportDirectory.read_misplaces image offset)) fun directory => ?_
  refine .bind (.liftM (readModuleName_misplaces image settings _)) fun moduleName => ?_
  refine .bind (.insert .exports _) fun _ => ?_
  refine (clampExports_accounts image settings _).bind fun functionCount => ?_
  split
  · exact .note rfl rfl
  · refine (exportNames_accounts image settings directory _ _).bind fun names => ?_
    refine .bind (.liftM (image.resolve_misplaces _)) fun functionsOffset => ?_
    refine (insertExports_accounts image settings directory moduleName functionsOffset _ 0 0).bind
      fun inserted => ?_
    exact .note rfl rfl

/-! ### Imports -/

/-- The only step that collides. -/
theorem importSymbol_accounts (moduleName : String) (address : UInt64)
    {name : Except (Fault Defect) String} (hname : Misplaces image name) :
    (importSymbol moduleName address name).Accounts image .imports := by
  intro p hp
  unfold importSymbol
  refine .get_bind ?_
  split
  · next htaken => exact .throw ⟨hp.grounded_collision htaken, hp⟩
  · exact (Accounts.liftM hname).bind (fun _ => .pure _) p hp

/-- Meeting an imported function has no defects. -/
theorem countImport_accounts : countImport.Accounts image .imports := by
  intro p hp
  have hcount : (countImport >>= Pure.pure).Meets p (fun _ q => q.Accounted image)
      fun cause q => cause.Grounded image .imports q.trail ∧ q.Accounted image :=
    .countImport_bind (.pure hp.countImport)
  rwa [bind_pure] at hcount

/-- The run: the thunks of one descriptor. -/
theorem walkThunks_accounts (descriptor : ImportDescriptor) (moduleName : String)
    (lookupOffset budget index : Nat) :
    (walkThunks image settings descriptor moduleName lookupOffset budget index).Accounts image
      .imports := by
  induction budget generalizing index with
  | zero => exact .pure _
  | succ budget ih =>
    unfold walkThunks
    refine .bind (.liftM_defect (Buffer.elementOffset_misplaces image _ _ _)) fun offset => ?_
    refine .bind (.liftM_defect (Thunk.read_misplaces image offset)) fun thunk => ?_
    split
    · exact .pure _
    · next name hname =>
      have hsymbol : ∀ address, (recover settings.unresolved .importThunk
          (importSymbol moduleName address name)).Accounts image .imports := fun address =>
        .recover (importSymbol_accounts image moduleName address
          (thunkName_misplaces image settings hname))
      refine (countImport_accounts image).bind fun _ => ?_
      refine .bind (.liftM (descriptor.slotAddress_misplaces image index)) fun address => ?_
      refine .bind (.ofExcept (.of_ne fun _ => Word.add_ne_defect)) fun next => ?_
      refine (hsymbol address).bind fun symbol? => ?_
      split
      · exact ih next
      · exact .bind (.insert .imports _) fun _ => ih next

/-- The imports from one module are accounted for. -/
theorem walkDescriptor_accounts (descriptor : ImportDescriptor) :
    (walkDescriptor image settings descriptor).Accounts image .imports := by
  unfold walkDescriptor
  refine .bind (.liftM (readModuleName_misplaces image settings _)) fun moduleName => ?_
  refine .bind (.liftM (image.resolve_misplaces _)) fun lookupOffset => .get_bind fun p => ?_
  refine (walkThunks_accounts image settings descriptor moduleName lookupOffset _ 0).bind
    fun thunks => ?_
  exact .note rfl rfl

/-- The run: all descriptors. -/
theorem walkDescriptors_accounts (room offset modules : Nat) :
    (walkDescriptors image settings room offset modules).Accounts image .imports := by
  induction room generalizing offset modules with
  | zero => exact .throw .outside
  | succ room ih =>
    have hdescriptor : ∀ descriptor, (recover settings.unresolved .importDescriptor
        (walkDescriptor image settings descriptor)).Accounts image .imports := fun descriptor =>
      .recover (walkDescriptor_accounts image settings descriptor)
    unfold walkDescriptors
    refine .bind (.liftM_defect (ImportDescriptor.read_misplaces image offset))
      fun descriptor => ?_
    split
    · exact .pure _
    · refine (hdescriptor descriptor).bind fun _ => ?_
      refine .bind (.ofExcept (.of_ne fun _ => Word.add_ne_defect)) fun modules => ?_
      refine .get_bind fun p => ?_
      split
      · exact .bind (.note rfl rfl) fun _ => .pure _
      · split
        · exact ih _ _
        · exact .throw .outside

/-- The imports of a directory are accounted for. -/
theorem walkImports_accounts (rva : UInt32) :
    (walkImports image settings rva).Accounts image .imports := by
  unfold walkImports
  refine .bind (.liftM (image.resolve_misplaces _)) fun offset => ?_
  refine (walkDescriptors_accounts image settings _ offset 0).bind fun modules => ?_
  exact .get_bind fun p => .note rfl rfl

/-! ### The phases -/

/-- A directory that is absent is noted, and one that is present is walked. -/
theorem walkDirectory_accounts {policy : UnresolvedPolicy} {entry : Entry} {absent : Event}
    {walk : UInt32 → Walk Unit} (directory : DataDirectory)
    (hinsertion : absent.insertion? = none) (hpassing : absent.passing? = none)
    (hwalk : ∀ rva, (walk rva).Accounts image entry.phase) :
    (walkDirectory policy directory entry absent walk).Accounts image entry.phase := by
  unfold walkDirectory
  split
  · exact (Accounts.recover (hwalk _)).bind fun _ => .pure _
  · exact .note hinsertion hpassing

/-- The exports of an image are accounted for. -/
theorem exportPhase_accounts : (exportPhase image settings).Accounts image .exports :=
  walkDirectory_accounts image _ rfl rfl fun rva => walkExports_accounts image settings rva

/-- The imports of an image are accounted for. -/
theorem importPhase_accounts : (importPhase image settings).Accounts image .imports :=
  walkDirectory_accounts image _ rfl rfl fun rva => walkImports_accounts image settings rva

end Walk

namespace Image

variable {image : Image} {settings : SymbolSettings}

variable (image settings) in
/-- The phase in which a defect ends the build of the symbols. -/
def FailsIn (cause : Defect) : Phase → Prop
  | .exports => ∃ q, (Walk.exportPhase image settings).after .start = (.error (.defect cause), q)
  | .imports => ∃ mid q, (Walk.exportPhase image settings).after .start = (.ok (), mid) ∧
      (Walk.importPhase image settings).after mid = (.error (.defect cause), q)

/-- The walk over an image accounts for its defects, and one that it ends in has ended one of its
phases. -/
theorem walkImage_accounts :
    (Walk.walkImage image settings).Meets .start (fun _ q => q.Accounted image)
      fun cause q => q.Accounted image ∧
        ∃ phase, image.FailsIn settings cause phase ∧ cause.Grounded image phase q.trail := by
  have hstart : Progress.start.Accounted image := ⟨Progress.recorded_start, trivial⟩
  have hexports := (Walk.exportPhase_accounts image settings .start hstart).with_after
  refine (hexports.mono (fun _ _ => id) ?_).bind ?_
  · rintro cause q ⟨hend, hcause, hq⟩
    exact ⟨hq, .exports, ⟨q, hend⟩, hcause⟩
  · rintro ⟨⟩ mid ⟨hmid, hmidAccounted⟩
    have himports := (Walk.importPhase_accounts image settings mid hmidAccounted).with_after
    refine (himports.mono (fun _ _ => id) ?_).bind ?_
    · rintro cause q ⟨hend, hcause, hq⟩
      exact ⟨hq, .imports, ⟨mid, q, hmid, hend⟩, hcause⟩
    · rintro ⟨⟩ q ⟨-, hq⟩
      exact .get_bind (.note (hq.note rfl rfl))

/-- How the build of the symbols of an image ends, and that its history explains itself. -/
theorem outcome_accounts :
    (image.Explains (image.buildSymbols settings).history.reverse) ∧
      Yields (image.buildSymbols settings).outcome (fun _ => True) fun cause =>
        ∃ phase, image.FailsIn settings cause phase ∧
          cause.Grounded image phase (image.buildSymbols settings).history := by
  have hwalk := Walk.walkImage_ends image settings
  have haccounts := @walkImage_accounts image settings
  have hhistory : (image.buildSymbols settings).history =
    ((Walk.walkImage image settings).after .start).2.trail.reverse := rfl
  rw [hhistory, image.outcome_eq, List.reverse_reverse]
  unfold Walk.Ends at hwalk
  unfold Walk.Meets at haccounts
  generalize (Walk.walkImage image settings).after .start = x at hwalk haccounts ⊢
  rcases x with ⟨(cause | _ | _) | a, q⟩
  · obtain ⟨hq, phase, hfails, hcause⟩ := haccounts
    exact ⟨hq.explained, phase, hfails, hcause.of_subset fun _ he => List.mem_reverse.mpr he⟩
  · exact hwalk.elim
  · exact hwalk.elim
  · exact ⟨haccounts.explained, trivial⟩

end Image

/-- The defects of the format are those of the headers. -/
theorem Defect.OfFormat.eq_or {cause : Defect} (h : cause.OfFormat) :
    cause = .invalidDosSignature ∨ cause = .invalidNtSignature ∨
      (∃ field value, cause = .unsupportedArchitecture field value) ∨
      ∃ expected actual, cause = .truncatedHeader expected actual := by
  cases cause with
  | invalidDosSignature => exact .inl rfl
  | invalidNtSignature => exact .inr (.inl rfl)
  | unsupportedArchitecture field value => exact .inr (.inr (.inl ⟨field, value, rfl⟩))
  | truncatedHeader expected actual => exact .inr (.inr (.inr ⟨expected, actual, rfl⟩))
  | unresolvedRva | outOfBounds | symbolCollision => cases h

/-- The section table of an image has an offset: the declared size of the optional header is a word
of 16 bits and the offset of the headers one of 32 bits. -/
theorem Image.add?_tableOffset_ne_none (dos : DosHeader) (nt : NtHeaders) :
    Word.add? dos.ntOffset.toNat (4 + FileHeader.size + nt.file.optionalSize.toNat) ≠ none := by
  have hlimit : Word.limit = 0x10000000000000000 := rfl
  have hsize : FileHeader.size = 20 := rfl
  have hoffset := lt_two_pow_32 dos.ntOffset
  have hoptional : nt.file.optionalSize.toNat < 0x10000 := nt.file.optionalSize.toNat_lt
  rw [Word.add?_eq_some_iff.mpr ⟨by omega, rfl⟩]
  exact Option.some_ne_none _

/-- **Failures follow the stages.** Where the headers of a file cannot be read, with its sections or
without them, there is a defect of the format; it never is that the section table has no offset.
Where an image is read but its symbols cannot be built, there is a defect of resolution, which ended
one of the two phases. That defect has its grounds, and so has every defect that was passed over on
the way: an address fails to resolve only if no section covers it, and only the imports collide,
with a symbol that was inserted before. -/
theorem Image.failures_follow_stages (b : Buffer) :
    (∀ fault, Image.read b = .error fault ∨ Image.readKind b = .error fault →
      ∃ cause, fault = .defect cause ∧ cause.isResolution = false ∧
        (cause = .invalidDosSignature ∨ cause = .invalidNtSignature ∨
          (∃ field value, cause = .unsupportedArchitecture field value) ∨
          ∃ expected actual, cause = .truncatedHeader expected actual)) ∧
    (∀ dos nt, DosHeader.read b = .ok dos → NtHeaders.read b dos.ntOffset.toNat = .ok nt →
      Word.add? dos.ntOffset.toNat (4 + FileHeader.size + nt.file.optionalSize.toNat) ≠ none) ∧
    ∀ image, Image.read b = .ok image → ∀ settings,
      (∀ fault, (image.buildSymbols settings).outcome = .error fault →
        ∃ cause phase, fault = .defect cause ∧ cause.isResolution = true ∧
          image.FailsIn settings cause phase ∧
          cause.Grounded image phase (image.buildSymbols settings).history) ∧
      ∀ before entry cause later,
        (image.buildSymbols settings).history = before ++ .skipped entry cause :: later →
          cause.isResolution = true ∧ cause.Grounded image entry.phase before := by
  refine ⟨?_, fun dos nt _ _ => add?_tableOffset_ne_none dos nt, fun image _ settings => ⟨?_, ?_⟩⟩
  · intro fault hfault
    have hformat : ∃ cause, fault = .defect cause ∧ cause.OfFormat := by
      rcases hfault with hread | hkind
      · exact (Image.read_yields b).exists_defect hread
      · exact (Image.readKind_yields b).exists_defect hkind
    obtain ⟨cause, rfl, hcause⟩ := hformat
    exact ⟨cause, rfl, hcause, hcause.eq_or⟩
  · intro fault hfault
    obtain ⟨cause, rfl, phase, hfails, hcause⟩ := outcome_accounts.2.exists_defect hfault
    exact ⟨cause, phase, rfl, hcause.ofResolution, hfails, hcause⟩
  · intro before entry cause later hhistory
    have hexplains := (@outcome_accounts image settings).1
    rw [hhistory, List.reverse_append, List.reverse_cons, List.append_assoc] at hexplains
    have hcause := hexplains.grounded.of_subset fun _ he => List.mem_reverse.mp he
    exact ⟨hcause.ofResolution, hcause⟩

/-- In the small file the slot of the first import is at the entry point. -/
theorem Image.failures_follow_stages_sample :
    ∃ image, Image.read Sample.buffer = .ok image ∧
      (image.buildSymbols {}).outcome = .error (.defect (.symbolCollision 0x1070)) ∧
      image.FailsIn {} (.symbolCollision 0x1070) .imports ∧
      ∃ inserter s, .inserted inserter s ∈ (image.buildSymbols {}).history ∧
        s.address = 0x1070 := by
  have hfacts : (Image.read Sample.buffer).toOption.map (fun image =>
      (image.buildSymbols {}).outcome.map fun _ => ()) =
        some (.error (.defect (.symbolCollision 0x1070))) := by decide +kernel
  obtain ⟨image, hread, hdefect⟩ := Sample.exists_read_of_map hfacts
  have houtcome : (image.buildSymbols {}).outcome = .error (.defect (.symbolCollision 0x1070)) := by
    cases hbuilt : (image.buildSymbols {}).outcome with
    | error fault =>
      rw [hbuilt] at hdefect
      rw [Except.error.inj hdefect]
    | ok table =>
      rw [hbuilt] at hdefect
      cases hdefect
  obtain ⟨-, -, hbuild⟩ := Image.failures_follow_stages Sample.buffer
  obtain ⟨cause, phase, heq, -, hfails, hcause⟩ := (hbuild image hread {}).1 _ houtcome
  obtain rfl := Fault.defect.inj heq
  obtain ⟨rfl, hinserted⟩ := hcause.of_collision
  exact ⟨image, hread, houtcome, hfails, hinserted⟩

end PeListing
