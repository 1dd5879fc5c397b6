import PeListing.Proofs.WalkLoops

/-!
# Work and output are limited

How many symbols a walk may still put into the table is limited beforehand. The *reach* of a
progress is the number of symbols in the table together with the number of imported functions that
may still be met. An imported function that is met takes one from the reach, and its symbol, if it
has one, gives it back. So the reach never grows in the imports, and in the exports it grows by the
entry point and one for each function. `w.Grows cap k p good` says that it grows by `k` at most in a
walk.

Entries that are passed over do not count here. They count in the load (`Walk.maxLoad`), where each
name of the exports and each descriptor of the imports may cost one more.
-/

namespace PeListing

namespace Progress

/-- The number of symbols, with the imported functions that may still be met when there can be `cap`
of them. -/
def reach (cap : Nat) (p : Progress) : Nat := p.table.size + (cap - p.importsWalked)

variable (cap : Nat) (p : Progress)

/-- A symbol adds one to the reach. -/
theorem reach_insert (phase : Phase) (s : Symbol) :
    (p.insert phase s).reach cap = p.reach cap + 1 := by
  have hload := p.load_insert phase s
  change (p.insert phase s).table.size + p.table.skipped = _ at hload
  change (p.insert phase s).table.size + (cap - p.importsWalked) = _
  unfold load at hload
  unfold reach
  omega

/-- An imported function is taken from those that may still be met. -/
theorem reach_countImport {cap : Nat} {p : Progress} (h : p.importsWalked < cap) :
    p.countImport.reach cap + 1 = p.reach cap := by
  change p.table.size + (cap - (p.importsWalked + 1)) + 1 = p.table.size + (cap - p.importsWalked)
  omega

end Progress

namespace Walk

variable {α β : Type}

/-- A walk in which the reach grows by `k` at most. -/
def Grows (w : Walk α) (cap k : Nat) (p : Progress) (good : α → Prop) : Prop :=
  w.Meets p (fun a q => good a ∧ q.reach cap ≤ p.reach cap + k)
    fun _ q => q.reach cap ≤ p.reach cap + k

namespace Grows

variable {cap k l : Nat} {w : Walk α} {p p' : Progress} {good : α → Prop} {f : α → Walk β}
  {good' : β → Prop}

/-- A value does not grow the reach. -/
theorem pure {a : α} (h : good a) : (Pure.pure a : Walk α).Grows cap k p good :=
  Meets.pure ⟨h, Nat.le_add_right _ _⟩

/-- A failure does not grow the reach. -/
theorem throw {cause : Defect} : (throw (.defect cause) : Walk α).Grows cap k p good :=
  Meets.throw (Nat.le_add_right _ _)

/-- An event does not grow the reach. -/
theorem note {e : Event} : (Walk.note e).Grows cap k p fun _ => True :=
  Meets.note ⟨trivial, Nat.le_add_right _ _⟩

/-- The reach may be allowed to grow by more. -/
theorem mono {good' : α → Prop} (h : w.Grows cap k p good) (hkl : k ≤ l)
    (hgood : ∀ a, good a → good' a) : w.Grows cap l p good' := by
  refine Meets.mono h ?_ ?_
  · rintro a q ⟨ha, hq⟩
    exact ⟨hgood a ha, by omega⟩
  · intro cause q hq
    omega

/-- A walk that starts where the reach is no larger. -/
theorem start (h : w.Grows cap k p' good) (hreach : p'.reach cap + k ≤ p.reach cap + l) :
    w.Meets p' (fun a q => good a ∧ q.reach cap ≤ p.reach cap + l)
      fun _ q => q.reach cap ≤ p.reach cap + l := by
  refine Meets.mono h ?_ ?_
  · rintro a q ⟨ha, hq⟩
    exact ⟨ha, by omega⟩
  · intro cause q hq
    omega

/-- Walks in sequence grow the reach by what both do. -/
theorem bind {m : Nat} (hw : w.Grows cap k p good) (hm : k + l ≤ m)
    (hf : ∀ a q, good a → (f a).Grows cap l q good') : (w >>= f).Grows cap m p good' := by
  have hstep : w.Meets p (fun a q => (f a).Meets q
      (fun b r => good' b ∧ r.reach cap ≤ p.reach cap + m) fun _ r => r.reach cap ≤ p.reach cap + m)
      fun _ q => q.reach cap ≤ p.reach cap + m := by
    refine Meets.mono hw ?_ fun _ _ hq => by omega
    rintro a q ⟨ha, hq⟩
    exact (hf a q ha).start (by omega)
  exact hstep.bind fun _ _ => id

/-- A quiet step does not change the reach. -/
theorem quiet_bind (hw : w.Quiet p good) (hf : ∀ a, good a → (f a).Grows cap k p good') :
    (w >>= f).Grows cap k p good' := by
  have hstep : w.Meets p (fun a q => (f a).Meets q
      (fun b r => good' b ∧ r.reach cap ≤ p.reach cap + k) fun _ r => r.reach cap ≤ p.reach cap + k)
      fun _ q => q.reach cap ≤ p.reach cap + k := by
    refine hw.meets.mono ?_ ?_
    · rintro a q ⟨ha, rfl⟩
      exact hf a ha
    · rintro _ q rfl
      exact Nat.le_add_right _ _
  exact hstep.bind fun _ _ => id

/-- A quiet step that may be passed over does not change the reach either. -/
theorem recover_bind {f : Option α → Walk β} {policy : UnresolvedPolicy} {entry : Entry}
    (hw : w.Quiet p good)
    (hnone : ∀ cause : Defect, (f none).Grows cap k (p.pass entry cause) good')
    (hsome : ∀ a, good a → (f (some a)).Grows cap k p good') :
    (recover policy entry w >>= f).Grows cap k p good' := by
  have hstep : (recover policy entry w).Meets p (fun a? q => (f a?).Meets q
      (fun b r => good' b ∧ r.reach cap ≤ p.reach cap + k) fun _ r => r.reach cap ≤ p.reach cap + k)
      fun _ q => q.reach cap ≤ p.reach cap + k := by
    refine (hw.recover_meets policy entry).mono ?_ ?_
    · rintro _ q (⟨a, rfl, ha, rfl⟩ | ⟨rfl, cause, rfl⟩)
      · exact hsome a ha
      · exact hnone cause
    · rintro _ q rfl
      exact Nat.le_add_right _ _
  exact hstep.bind fun _ _ => id

/-- An event in front of a walk does not grow the reach. -/
theorem note_bind {f : Unit → Walk β} {e : Event} (hf : (f ()).Grows cap k (p.note e) good') :
    (Walk.note e >>= f).Grows cap k p good' := hf

/-- Looking at the progress does not grow the reach. -/
theorem get_bind {f : Progress → Walk β} (hf : (f p).Grows cap k p good') :
    (get >>= f).Grows cap k p good' := hf

/-- A symbol raises the reach by one. -/
theorem insert_bind {f : Unit → Walk β} {phase : Phase} {s : Symbol}
    (hf : (f ()).Grows cap k (p.insert phase s) good') :
    (Walk.insert phase s >>= f).Grows cap (k + 1) p good' := by
  have hreach := p.reach_insert cap phase s
  exact Meets.insert_bind (hf.start (by omega))

/-- An imported function that is met lowers the reach by one. -/
theorem countImport_bind {f : Unit → Walk β} (hcap : p.importsWalked < cap)
    (hf : (f ()).Grows cap (k + 1) p.countImport good') :
    (Walk.countImport >>= f).Grows cap k p good' := by
  have hreach := Progress.reach_countImport hcap
  exact Meets.countImport_bind (hf.start (by omega))

/-- Passing over a step does not grow the reach. -/
theorem recover {policy : UnresolvedPolicy} {entry : Entry} (hw : w.Grows cap k p good) :
    (Walk.recover policy entry w).Grows cap k p fun _ => True := by
  refine Meets.recover (Meets.mono hw ?_ ?_)
  · rintro a q ⟨-, hq⟩
    exact ⟨trivial, hq⟩
  · intro cause q hq
    split
    · exact ⟨trivial, hq⟩
    · exact hq

end Grows

variable (image : Image) (settings : SymbolSettings) {cap : Nat} {p : Progress}

/-! ### Exports -/

/-- Pairing a name puts nothing into the table. -/
theorem pairName_grows (namesOffset ordinalsOffset index : Nat) (names : Array (Option String)) :
    (pairName image settings namesOffset ordinalsOffset index names).Grows cap 0 p
      (·.size = names.size) := by
  unfold pairName
  refine Grows.recover_bind (.liftM_defect (image.buffer.tableU16_yields ordinalsOffset index))
    (fun _ => .pure rfl) fun ordinal _ => ?_
  dsimp only
  split
  · exact .note_bind (.pure rfl)
  · exact .pure rfl
  · next hordinal =>
    refine Grows.recover_bind (exportName_quiet image settings namesOffset index)
      (fun _ => .pure rfl) fun name _ => ?_
    obtain ⟨hbound, -⟩ := Array.getElem?_eq_some_iff.mp hordinal
    dsimp only
    rw [Select.replace_of_lt hbound]
    exact .pure (Array.size_set hbound)

/-- The run: pairing names does not grow the reach. -/
theorem pairNames_grows (namesOffset ordinalsOffset count index : Nat)
    (names : Array (Option String)) :
    (pairNames image settings namesOffset ordinalsOffset count index names).Grows cap 0 p
      (·.size = names.size) := by
  induction count generalizing p index names with
  | zero => exact .pure rfl
  | succ count ih =>
    unfold pairNames
    refine (pairName_grows image settings namesOffset ordinalsOffset index names).bind (l := 0)
      (Nat.le_refl 0) fun names' q hsize => ?_
    exact (ih (index + 1) names').mono (Nat.le_refl 0) fun _ h => h.trans hsize

/-- Reading the names of the exports does not grow the reach. -/
theorem exportNames_grows (directory : ExportDirectory) (functionCount nameCount : Nat) :
    (exportNames image settings directory functionCount nameCount).Grows cap 0 p
      (·.size = functionCount) := by
  unfold exportNames
  dsimp only
  split
  · exact .pure Array.size_replicate
  · refine .quiet_bind (.liftM (image.resolve_yields _)) fun namesOffset _ => ?_
    refine .quiet_bind (.liftM (image.resolve_yields _)) fun ordinalsOffset _ => ?_
    exact (pairNames_grows image settings namesOffset ordinalsOffset nameCount 0 _).mono
      (Nat.le_refl 0) fun _ h => h.trans Array.size_replicate

/-- Each function puts at most one symbol into the table. -/
theorem insertExports_grows (directory : ExportDirectory) (moduleName : String)
    (functionsOffset : Nat) (names : List (Option String)) (index inserted : Nat) :
    (insertExports image settings directory moduleName functionsOffset names index inserted).Grows
      cap names.length p fun _ => True := by
  induction names generalizing p index inserted with
  | nil => exact .pure trivial
  | cons name? names ih =>
    have hskip : ∀ q : Progress, (insertExports image settings directory moduleName functionsOffset
        names (index + 1) inserted).Grows cap (name? :: names).length q fun _ => True :=
      fun _ => (ih (index + 1) inserted).mono (Nat.le_succ _) fun _ => id
    unfold insertExports
    refine Grows.recover_bind
      (.liftM_defect (image.buffer.tableU32_yields functionsOffset index))
      (fun _ => hskip _) fun rva _ => ?_
    dsimp only
    split
    · exact hskip p
    · refine .insert_bind (Meets.ofExcept_bind (fun inserted' _ => ih _ _) fun _ hcause => ?_)
      exact absurd hcause Word.add_ne_defect

/-- Cutting the number of functions does not grow the reach. -/
theorem clampExports_grows (declared : UInt32) :
    (clampExports settings declared).Grows cap 0 p
      fun count => count.toNat ≤ settings.maxExports.toNat := by
  unfold clampExports
  split
  · exact .note_bind (.pure (Nat.le_refl _))
  · next h => exact .pure (UInt32.le_iff_toNat_le.mp (UInt32.not_lt.mp h))

/-- The exports put the entry point into the table, and no more functions than are allowed. -/
theorem walkExports_grows (rva : UInt32) :
    (walkExports image settings rva).Grows cap (settings.maxExports.toNat + 1) p
      fun _ => True := by
  unfold walkExports
  refine .quiet_bind (.liftM (image.resolve_yields rva.toNat)) fun offset _ => ?_
  refine .quiet_bind (.liftM_defect (ExportDirectory.read_yields _ offset)) fun directory _ => ?_
  refine .quiet_bind (.liftM (readModuleName_yields image settings _)) fun moduleName _ => ?_
  refine .insert_bind ((clampExports_grows settings _).bind (l := settings.maxExports.toNat)
    (by omega) fun functionCount q hcount => ?_)
  split
  · exact .note
  · dsimp only
    refine (exportNames_grows image settings directory functionCount.toNat _).bind
      (l := settings.maxExports.toNat) (by omega) fun names r hsize => ?_
    have hlength : names.toList.length ≤ settings.maxExports.toNat := hsize.trans_le hcount
    refine .quiet_bind (.liftM (image.resolve_yields _)) fun functionsOffset _ => ?_
    exact (insertExports_grows image settings directory moduleName functionsOffset names.toList 0
      0).bind (l := 0) hlength fun _ _ _ => .note

/-! ### Imports -/

/-- Each thunk puts at most one symbol into the table, and is met before. -/
theorem walkThunks_grows (descriptor : ImportDescriptor) (moduleName : String)
    (lookupOffset budget index : Nat) (hbudget : budget ≤ cap - p.importsWalked) :
    (walkThunks image settings descriptor moduleName lookupOffset budget index).Grows cap 0 p
      fun _ => True := by
  induction budget generalizing p index with
  | zero => exact .pure trivial
  | succ budget ih =>
    unfold walkThunks
    refine .quiet_bind (.liftM_defect (image.buffer.elementOffset_yields _ _ _)) fun offset _ => ?_
    refine .quiet_bind (.liftM_defect (Thunk.read_yields _ offset _)) fun thunk _ => ?_
    split
    · exact .pure trivial
    · next name hname =>
      have hleft : budget ≤ cap - p.countImport.importsWalked :=
        Nat.le_sub_of_add_le (by rw [Progress.importsWalked_countImport]; omega)
      -- what is met pays for the symbol that may follow
      refine .countImport_bind (by omega) ?_
      refine Meets.liftM_bind (fun address _ => ?_) fun _ _ => Nat.le_add_right _ _
      refine Meets.ofExcept_bind (fun next _ => ?_) fun _ _ => Nat.le_add_right _ _
      refine Grows.recover_bind
        (importSymbol_quiet moduleName address (thunkName_yields image settings hname))
        (fun cause => ?_) fun s _ => ?_
      · refine Grows.mono (ih next ?_) (Nat.zero_le 1) fun _ => id
        exact hleft
      · refine .insert_bind (ih next ?_)
        exact hleft

/-- The imports from one module do not grow the reach. -/
theorem walkDescriptor_grows (descriptor : ImportDescriptor) :
    (walkDescriptor image settings descriptor).Grows settings.maxImports.toNat 0 p
      fun _ => True := by
  unfold walkDescriptor
  refine .quiet_bind (.liftM (readModuleName_yields image settings _)) fun moduleName _ => ?_
  refine .quiet_bind (.liftM (image.resolve_yields _)) fun lookupOffset _ => .get_bind ?_
  exact (walkThunks_grows image settings descriptor moduleName lookupOffset _ 0
    (Nat.le_refl _)).bind (l := 0) (Nat.le_refl 0) fun _ _ _ => .note

/-- The run: all descriptors together do not grow the reach. -/
theorem walkDescriptors_grows (room offset modules : Nat) :
    (walkDescriptors image settings room offset modules).Grows settings.maxImports.toNat 0 p
      fun _ => True := by
  induction room generalizing p offset modules with
  | zero => exact .throw
  | succ room ih =>
    unfold walkDescriptors
    refine .quiet_bind (.liftM_defect (ImportDescriptor.read_yields _ offset))
      fun descriptor _ => ?_
    split
    · exact .pure trivial
    · refine (walkDescriptor_grows image settings descriptor).recover.bind (l := 0)
        (Nat.le_refl 0) fun _ q _ => ?_
      refine Meets.ofExcept_bind (fun modules _ => ?_) fun _ _ => Nat.le_add_right _ _
      refine Grows.get_bind ?_
      split
      · exact .note_bind (.pure trivial)
      · split
        · exact ih _ _
        · exact .throw

/-- The imports of a directory do not grow the reach. -/
theorem walkImports_grows (rva : UInt32) :
    (walkImports image settings rva).Grows settings.maxImports.toNat 0 p fun _ => True := by
  unfold walkImports
  refine .quiet_bind (.liftM (image.resolve_yields _)) fun offset _ => ?_
  exact (walkDescriptors_grows image settings _ offset 0).bind (l := 0) (Nat.le_refl 0)
    fun _ _ _ => .get_bind .note

/-! ### The image -/

/-- A directory grows the reach by what its walk does. -/
theorem walkDirectory_grows {k : Nat} {policy : UnresolvedPolicy} {entry : Entry} {absent : Event}
    {walk : UInt32 → Walk Unit} (directory : DataDirectory)
    (hwalk : ∀ rva, (walk rva).Grows cap k p fun _ => True) :
    (walkDirectory policy directory entry absent walk).Grows cap k p fun _ => True := by
  unfold walkDirectory
  split
  · exact (hwalk _).recover.bind (l := 0) (Nat.le_refl k) fun _ _ _ => .pure trivial
  · exact .note

/-- The walk over an image grows the reach by the exports and the entry point. -/
theorem walkImage_grows :
    (walkImage image settings).Grows settings.maxImports.toNat (settings.maxExports.toNat + 1) p
      fun _ => True := by
  unfold walkImage
  refine (walkDirectory_grows _ fun rva => walkExports_grows image settings rva).bind (l := 0)
    (Nat.le_refl _) fun _ _ _ => ?_
  refine (walkDirectory_grows _ fun rva => walkImports_grows image settings rva).bind (l := 0)
    (Nat.le_refl _) fun _ _ _ => ?_
  exact .get_bind .note

end Walk

/-- A table has no more symbols than the settings allow exports and imports, and the entry point. -/
theorem Image.size_le_of_outcome {image : Image} {settings : SymbolSettings} {table : SymbolTable}
    (h : (image.buildSymbols settings).outcome = .ok table) :
    table.size ≤ 1 + settings.maxExports.toNat + settings.maxImports.toNat := by
  have hgrows := Walk.walkImage_grows image settings (p := .start)
  have hstart : Progress.start.reach settings.maxImports.toNat = settings.maxImports.toNat :=
    Nat.zero_add _
  rw [image.outcome_eq] at h
  generalize hwalk : (Walk.walkImage image settings).after .start = x at h
  rcases x with ⟨fault | _, q⟩
  · cases h
  · obtain rfl := Except.ok.inj h
    obtain ⟨-, hreach⟩ := Walk.Meets.of_ok hgrows hwalk
    have hsize : q.table.size ≤ q.reach settings.maxImports.toNat := Nat.le_add_right _ _
    omega

/-- **Work and output are limited by the settings and by the size of the file.** Let an image be
read from a file, whatever counts, descriptors and thunks it declares. Each of the loops in which its
symbols are built ends, from any progress on, in what the walk computes: those over the names and
the functions of the exports after one round for each export that the settings allow and one more at
most, that over descriptors after one round for each descriptor that the file has room for and one
more, and that over the thunks of a descriptor after one round for each import that the settings
allow and one more.

If there is a table, it has no more symbols than the settings allow exports and imports, and the
entry point. With the entries that were passed over there are at most two for each export that the
settings allow, one for each import, one for each descriptor that the file has room for, and three
more. -/
theorem Image.work_limited {b : Buffer} {image : Image} (hread : Image.read b = .ok image)
    (settings : SymbolSettings) :
    (∀ (directory : ExportDirectory) (namesOffset ordinalsOffset : Nat)
        (names : Array (Option String)) (p : Progress),
      Walk.LoopsWithin
        (Walk.nameRound image settings namesOffset ordinalsOffset
          (min directory.nameCount.toNat settings.maxExports.toNat))
        (settings.maxExports.toNat + 1) (0, names) p
        (Walk.pairNames image settings namesOffset ordinalsOffset
          (min directory.nameCount.toNat settings.maxExports.toNat) 0 names)) ∧
    (∀ (directory : ExportDirectory) (moduleName : String) (functionsOffset : Nat)
        (names : List (Option String)) (p : Progress),
      names.length ≤ settings.maxExports.toNat →
      Walk.LoopsWithin
        (Walk.functionRound image settings directory moduleName functionsOffset)
        (settings.maxExports.toNat + 1) (names, 0, 0) p
        (Walk.insertExports image settings directory moduleName functionsOffset names 0 0)) ∧
    (∀ (offset : Nat) (p : Progress),
      Walk.LoopsWithin (Walk.descriptorRound image settings) (b.size / 20 + 1) (offset, 0) p
        (Walk.walkDescriptors image settings ((b.size - offset) / 20) offset 0)) ∧
    (∀ (descriptor : ImportDescriptor) (moduleName : String) (lookupOffset : Nat) (p : Progress),
      Walk.LoopsWithin (Walk.thunkRound image settings descriptor moduleName lookupOffset)
        (settings.maxImports.toNat + 1) 0 p
        (Walk.walkThunks image settings descriptor moduleName lookupOffset
          (settings.maxImports.toNat - p.importsWalked) 0)) ∧
    ∀ table, (image.buildSymbols settings).outcome = .ok table →
      table.size ≤ 1 + settings.maxExports.toNat + settings.maxImports.toNat ∧
      table.size + table.skipped ≤
        2 * settings.maxExports.toNat + settings.maxImports.toNat + b.size / 20 + 3 := by
  obtain ⟨rfl, -⟩ := (Image.read_yields b).of_ok hread
  refine ⟨?_, ?_, ?_, ?_, ?_⟩
  · intro directory namesOffset ordinalsOffset names p
    have hloops := Walk.pairNames_loops image settings namesOffset ordinalsOffset
      (min directory.nameCount.toNat settings.maxExports.toNat) 0 names p
    rw [Nat.zero_add] at hloops
    exact hloops.mono (Nat.succ_le_succ (Nat.min_le_right _ _))
  · intro directory moduleName functionsOffset names p hlength
    exact (Walk.insertExports_loops image settings directory moduleName functionsOffset names 0 0
      p).mono (Nat.succ_le_succ hlength)
  · intro offset p
    exact (Walk.walkDescriptors_loops image settings 0 p rfl).mono
      (Nat.succ_le_succ (Nat.div_le_div_right (Nat.sub_le _ _)))
  · intro descriptor moduleName lookupOffset p
    exact (Walk.walkThunks_loops image settings descriptor moduleName lookupOffset rfl).mono
      (Nat.succ_le_succ (Nat.sub_le _ _))
  · intro table houtcome
    have hload : table.size + table.skipped ≤ Walk.maxLoad image settings :=
      (image.buildSymbols_yields settings).of_ok houtcome
    have hsize : ImportDescriptor.recordSize = 20 := rfl
    unfold Walk.maxLoad at hload
    rw [hsize] at hload
    exact ⟨size_le_of_outcome houtcome, by omega⟩

/-- The file with both directories declares three exports and two imports. Where one of each is
allowed there is a table, with the entry point and one import. -/
theorem Image.work_limited_sample :
    ∃ image table, Image.read Sample.linkedBuffer = .ok image ∧
      (image.buildSymbols { maxExports := 1, maxImports := 1 }).outcome = .ok table ∧
      table.size = 2 ∧ table.size ≤ 3 ∧
      table.size + table.skipped ≤ Sample.linkedBuffer.size / 20 + 6 := by
  have hfacts : (Image.read Sample.linkedBuffer).toOption.bind (fun image =>
      (image.buildSymbols { maxExports := 1, maxImports := 1 }).outcome.toOption.map
        SymbolTable.size) = some 2 := by decide +kernel
  obtain ⟨image, -, hread, -⟩ := Sample.exists_linked
  rw [hread] at hfacts
  obtain ⟨table, htable, hsize⟩ := Option.map_eq_some_iff.mp hfacts
  have houtcome : (image.buildSymbols { maxExports := 1, maxImports := 1 }).outcome =
      .ok table := by
    cases hbuilt : (image.buildSymbols { maxExports := 1, maxImports := 1 }).outcome with
    | error fault =>
      rw [hbuilt] at htable
      cases htable
    | ok built =>
      rw [hbuilt] at htable
      rw [Option.some.inj htable]
  obtain ⟨-, -, -, -, hlimits⟩ := Image.work_limited hread { maxExports := 1, maxImports := 1 }
  obtain ⟨hsymbols, hentries⟩ := hlimits table houtcome
  have hone : (1 : UInt32).toNat = 1 := rfl
  dsimp only at hsymbols hentries
  rw [hone] at hsymbols hentries
  exact ⟨image, table, hread, houtcome, hsize, hsymbols, by omega⟩

end PeListing
