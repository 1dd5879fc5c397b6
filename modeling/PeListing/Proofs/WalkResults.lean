import PeListing.Proofs.ImportsDistinct

/-!
# What a walk has done where it ends

`w.Meets p good bad` says of a walk `w` that starts with the progress `p` what is true where it ends
in a value and where it ends in a defect. Nothing is said of a walk in which a number leaves its
range. That there is no such walk is known already (`Walk.walkImage_ends`), so that the statements
about results need no bounds.

The walk over an image has two phases, and the second one starts where the first one ends
(`Image.exists_phases`). Each inserts symbols and passes over entries of its own. The table of an
image is the stable sort of what both have inserted (`Image.Phases.toList_eq`), and it counts what
both have passed over (`Image.Phases.skipped_eq`).
-/

namespace PeListing

namespace Walk

variable {α β : Type}

/-- Where a walk ends in a value it has one property, and where it ends in a defect another. -/
def Meets (w : Walk α) (p : Progress) (good : α → Progress → Prop)
    (bad : Defect → Progress → Prop) : Prop :=
  match w.after p with
  | (.ok a, q) => good a q
  | (.error (.defect cause), q) => bad cause q
  | (.error _, _) => True

/-- What is known of the progress at a defect that may be passed over. -/
def OnPass (policy : UnresolvedPolicy) (info : Progress → Prop) (cause : Defect) (q : Progress) :
    Prop :=
  policy = .skip → cause.isResolution = true → info q

/-- What is known at a defect may be weakened. -/
theorem OnPass.mono {policy : UnresolvedPolicy} {info info' : Progress → Prop} {cause : Defect}
    {q : Progress} (h : OnPass policy info cause q) (hinfo : info q → info' q) :
    OnPass policy info' cause q :=
  fun hskip hres => hinfo (h hskip hres)

namespace Meets

variable {w : Walk α} {p q : Progress} {good good' : α → Progress → Prop}
  {bad bad' : Defect → Progress → Prop}

/-- A walk that ends in a value has the property of values. -/
theorem of_ok (h : w.Meets p good bad) {a : α} (hw : w.after p = (.ok a, q)) : good a q := by
  unfold Meets at h
  rw [hw] at h
  exact h

/-- What is true where a walk ends is true of just that end. -/
theorem with_after (h : w.Meets p good bad) :
    w.Meets p (fun a q => w.after p = (.ok a, q) ∧ good a q)
      fun cause q => w.after p = (.error (.defect cause), q) ∧ bad cause q := by
  unfold Meets at h ⊢
  generalize w.after p = x at h ⊢
  rcases x with ⟨(cause | _ | _) | a, q⟩
  · exact ⟨rfl, h⟩
  · trivial
  · trivial
  · exact ⟨rfl, h⟩

/-- A value ends a walk where it is. -/
theorem pure {a : α} (h : good a p) : Meets (Pure.pure a) p good bad := h

/-- A defect ends a walk where it is. -/
theorem throw {cause : Defect} (h : bad cause p) :
    Meets (throw (.defect cause) : Walk α) p good bad := h

/-- What is known of both ends may be weakened. -/
theorem mono (h : w.Meets p good bad) (hgood : ∀ a q, good a q → good' a q)
    (hbad : ∀ cause q, bad cause q → bad' cause q) : w.Meets p good' bad' := by
  unfold Meets at h ⊢
  generalize w.after p = x at h ⊢
  rcases x with ⟨(cause | _ | _) | a, q⟩
  · exact hbad cause q h
  · trivial
  · trivial
  · exact hgood a q h

/-- What is known of the value may be weakened. -/
theorem imp (h : w.Meets p good bad) (hgood : ∀ a q, good a q → good' a q) :
    w.Meets p good' bad :=
  h.mono hgood fun _ _ hbad => hbad

/-- Walks in sequence: the second goes on from where the first ends. -/
theorem bind {f : α → Walk β} {good' : β → Progress → Prop} (hw : w.Meets p good bad)
    (hf : ∀ a q, good a q → (f a).Meets q good' bad) : (w >>= f).Meets p good' bad := by
  unfold Meets at hw ⊢
  rw [after_bind]
  generalize w.after p = x at hw ⊢
  rcases x with ⟨(cause | _ | _) | a, q⟩
  · exact hw
  · trivial
  · trivial
  · exact hf a q hw

/-- An event ends a walk with one more event. -/
theorem note {e : Event} {good : Unit → Progress → Prop} (h : good () (p.note e)) :
    (Walk.note e).Meets p good bad := h

/-- A computation that leaves the progress alone. -/
theorem liftM {x : Except (Fault Defect) α} (hgood : ∀ a, x = .ok a → good a p)
    (hbad : ∀ cause, x = .error (.defect cause) → bad cause p) :
    Meets (MonadLiftT.monadLift x : Walk α) p good bad := by
  rcases x with (cause | _ | _) | a
  · exact hbad cause rfl
  · trivial
  · trivial
  · exact hgood a rfl

/-- A computation that leaves the progress alone and every number in its range. -/
theorem liftM_defect {x : Except Defect α} (hgood : ∀ a, x = .ok a → good a p)
    (hbad : ∀ cause, x = .error cause → bad cause p) :
    Meets (MonadLiftT.monadLift x : Walk α) p good bad := by
  rcases x with cause | a
  · exact hbad cause rfl
  · exact hgood a rfl

/-- A computation that leaves the progress alone, in front of a walk. -/
theorem liftM_bind {x : Except (Fault Defect) α} {f : α → Walk β}
    {good' : β → Progress → Prop} (hf : ∀ a, x = .ok a → (f a).Meets p good' bad)
    (hbad : ∀ cause, x = .error (.defect cause) → bad cause p) :
    ((MonadLiftT.monadLift x : Walk α) >>= f).Meets p good' bad := by
  have hx : Meets (MonadLiftT.monadLift x : Walk α) p (fun a q => x = .ok a ∧ q = p) bad :=
    liftM (fun _ ha => ⟨ha, rfl⟩) hbad
  apply hx.bind
  rintro a q ⟨ha, rfl⟩
  exact hf a ha

theorem ofExcept_bind {x : Except (Fault Defect) α} {f : α → Walk β}
    {good' : β → Progress → Prop} (hf : ∀ a, x = .ok a → (f a).Meets p good' bad)
    (hbad : ∀ cause, x = .error (.defect cause) → bad cause p) :
    (ofExcept x >>= f).Meets p good' bad := liftM_bind hf hbad

/-- A computation that leaves every number in its range, in front of a walk. -/
theorem liftM_defect_bind {x : Except Defect α} {f : α → Walk β}
    {good' : β → Progress → Prop} (hf : ∀ a, x = .ok a → (f a).Meets p good' bad)
    (hbad : ∀ cause, x = .error cause → bad cause p) :
    ((MonadLiftT.monadLift x : Walk α) >>= f).Meets p good' bad := by
  have hx : Meets (MonadLiftT.monadLift x : Walk α) p (fun a q => x = .ok a ∧ q = p) bad :=
    liftM_defect (fun _ ha => ⟨ha, rfl⟩) hbad
  apply hx.bind
  rintro a q ⟨ha, rfl⟩
  exact hf a ha

/-- A computation with a known value. -/
theorem liftM_bind_of_eq {x : Except (Fault Defect) α} {a : α} {f : α → Walk β}
    {good' : β → Progress → Prop} (hx : x = .ok a) (h : (f a).Meets p good' bad) :
    ((MonadLiftT.monadLift x : Walk α) >>= f).Meets p good' bad := by
  rw [hx]
  exact h

/-- A computation with a known value that leaves every number in its range. -/
theorem liftM_defect_bind_of_eq {x : Except Defect α} {a : α} {f : α → Walk β}
    {good' : β → Progress → Prop} (hx : x = .ok a) (h : (f a).Meets p good' bad) :
    ((MonadLiftT.monadLift x : Walk α) >>= f).Meets p good' bad := by
  rw [hx]
  exact h

/-- Looking at the progress gives it and changes nothing. -/
theorem get_bind {f : Progress → Walk β} {good' : β → Progress → Prop}
    (h : (f p).Meets p good' bad) : (get >>= f).Meets p good' bad := h

theorem note_bind {e : Event} {f : Unit → Walk β} {good' : β → Progress → Prop}
    (h : (f ()).Meets (p.note e) good' bad) : (Walk.note e >>= f).Meets p good' bad := h

theorem insert_bind {phase : Phase} {s : Symbol} {f : Unit → Walk β}
    {good' : β → Progress → Prop} (h : (f ()).Meets (p.insert phase s) good' bad) :
    (insert phase s >>= f).Meets p good' bad := h

/-- An imported function that is met in front of a walk. -/
theorem countImport_bind {f : Unit → Walk β} {good' : β → Progress → Prop}
    (h : (f ()).Meets p.countImport good' bad) : (countImport >>= f).Meets p good' bad := by
  unfold Meets
  rw [after_bind]
  by_cases hlt : p.importsWalked + 1 < 0x100000000
  · rw [after_countImport hlt]
    exact h
  · have hover : countImport.after p = (.error .overflow, p) := by
      change (ofExcept (Word.add32 p.importsWalked 1) >>= fun count =>
        modify fun p => { p with importsWalked := count }).after p = _
      rw [after_bind, after_ofExcept, Word.add32, if_neg hlt]
    rw [hover]
    trivial

/-- A step that may be passed over. Where it ends in a defect, either the entry counts as passed over
or the walk ends there too. -/
theorem recover {good : Option α → Progress → Prop} {policy : UnresolvedPolicy} {entry : Entry}
    (h : w.Meets p (fun a q => good (some a) q) fun cause q =>
      if policy = .skip ∧ cause.isResolution = true then good none (q.pass entry cause)
      else bad cause q) :
    (recover policy entry w).Meets p good bad := by
  unfold Meets at h ⊢
  cases policy with
  | abort =>
    rw [after_recover_abort]
    generalize w.after p = x at h ⊢
    rcases x with ⟨(cause | _ | _) | a, q⟩
    · exact h
    · trivial
    · trivial
    · exact h
  | skip =>
    rw [after_recover_skip]
    generalize w.after p = x at h ⊢
    rcases x with ⟨(cause | _ | _) | a, q⟩
    · dsimp only at h ⊢
      by_cases hres : cause.isResolution = true
      · rw [if_pos ⟨rfl, hres⟩] at h
        rw [if_pos hres, after_bind]
        by_cases hlt : q.table.skipped + 1 < Word.limit
        · rw [after_skip hlt]
          exact h
        · rw [after_skip_overflow hlt]
          trivial
      · rw [if_neg fun hskip => hres hskip.2] at h
        rw [if_neg hres]
        exact h
    · trivial
    · trivial
    · exact h

/-- A step that may not be passed over. -/
theorem recover_abort_bind {policy : UnresolvedPolicy} {entry : Entry} {f : Option α → Walk β}
    {good' : β → Progress → Prop} (habort : policy = .abort)
    (h : w.Meets p (fun a q => (f (some a)).Meets q good' bad) bad) :
    (Walk.recover policy entry w >>= f).Meets p good' bad := by
  have hstep : (Walk.recover policy entry w).Meets p (fun a? q => (f a?).Meets q good' bad) bad := by
    refine recover (h.mono (fun _ _ => id) fun cause q hbad => ?_)
    have hstrict : ¬ (policy = .skip ∧ cause.isResolution = true) := by
      rintro ⟨hskip, -⟩
      cases habort.symm.trans hskip
    rw [if_neg hstrict]
    exact hbad
  exact hstep.bind fun _ _ => id

/-- A step that may be passed over, in a walk of which only what can be passed over is known where it
ends in a defect. -/
theorem recover_bind {policy : UnresolvedPolicy} {entry : Entry} {f : Option α → Walk β}
    {good' : β → Progress → Prop} {info : Progress → Prop}
    (h : w.Meets p (fun a q => (f (some a)).Meets q good' (OnPass policy info))
      (OnPass policy fun q =>
        ∀ cause, (f none).Meets (q.pass entry cause) good' (OnPass policy info))) :
    (Walk.recover policy entry w >>= f).Meets p good' (OnPass policy info) := by
  have hstep : (Walk.recover policy entry w).Meets p
      (fun a? q => (f a?).Meets q good' (OnPass policy info)) (OnPass policy info) := by
    refine recover (h.mono (fun _ _ => id) fun cause q hbad => ?_)
    by_cases hskip : policy = .skip ∧ cause.isResolution = true
    · rw [if_pos hskip]
      exact hbad hskip.1 hskip.2 cause
    · rw [if_neg hskip]
      intro hpolicy hres
      exact absurd ⟨hpolicy, hres⟩ hskip
  exact hstep.bind fun _ _ => id

end Meets

/-- The name of a module is the stem of the file name at its address. -/
theorem readModuleName_eq_ok_iff {image : Image} {settings : SymbolSettings} {rva : UInt32}
    {moduleName : String} :
    readModuleName image settings rva = .ok moduleName ↔
      ∃ fileName, image.nameAt rva.toNat settings.maxNameLength.toNat = .ok fileName ∧
        IsStemOf moduleName fileName := by
  unfold readModuleName readName
  cases image.nameAt rva.toNat settings.maxNameLength.toNat with
  | error fault => simp [bind, Except.bind]
  | ok fileName => simp [bind, Except.bind, isStemOf_iff (ε := Defect)]

end Walk

/-! ### What one phase has done -/

/-- The entry of a phase that an event passes over, with the reason. -/
def Event.passedOf? (phase : Phase) (e : Event) : Option (Entry × Defect) :=
  e.passing?.filter fun x => x.1.phase = phase

/-- The entries that a phase passed over, in order and with the reasons. -/
def SymbolBuild.passedIn (b : SymbolBuild) (phase : Phase) : List (Entry × Defect) :=
  b.history.filterMap (Event.passedOf? phase)

namespace Progress

variable (p : Progress)

/-- The symbols that a phase has inserted, in order. -/
def insertedIn (phase : Phase) : List Symbol :=
  p.trail.reverse.filterMap (Event.symbolOf? phase)

/-- The entries that a phase has passed over, in order and with the reasons. -/
def passedIn (phase : Phase) : List (Entry × Defect) :=
  p.trail.reverse.filterMap (Event.passedOf? phase)

/-- The symbols of a phase are those among all that carry its name. -/
theorem insertedIn_eq_filterMap (phase : Phase) :
    p.insertedIn phase = p.inserted.filterMap fun x => if x.1 = phase then some x.2 else none := by
  rw [insertedIn, inserted, List.filterMap_filterMap]
  refine List.filterMap_congr fun e _ => ?_
  cases e <;> rfl

/-- An event that inserts nothing leaves the symbols of every phase alone. -/
theorem insertedIn_note {e : Event} (h : e.insertion? = none) (phase : Phase) :
    (p.note e).insertedIn phase = p.insertedIn phase := by
  have hnone : e.symbolOf? phase = none := by
    rw [Option.eq_none_iff_forall_ne_some]
    intro s hs
    rw [Event.symbolOf?_eq_some_iff, h] at hs
    cases hs
  simp [insertedIn, note, hnone]

/-- Passing over an entry inserts nothing. -/
@[simp] theorem insertedIn_pass (entry : Entry) (cause : Defect) (phase : Phase) :
    (p.pass entry cause).insertedIn phase = p.insertedIn phase := p.insertedIn_note rfl phase

/-- A symbol comes behind the others of its phase. -/
@[simp] theorem insertedIn_insert (phase : Phase) (s : Symbol) :
    (p.insert phase s).insertedIn phase = p.insertedIn phase ++ [s] := by
  simp [insertedIn, insert, note, Event.symbolOf?]

/-- A symbol of one phase is none of the other. -/
theorem insertedIn_insert_of_ne {phase other : Phase} (h : phase ≠ other) (s : Symbol) :
    (p.insert phase s).insertedIn other = p.insertedIn other := by
  simp [insertedIn, insert, note, Event.symbolOf?, h]

/-- An event that passes over nothing leaves the entries passed over alone. -/
theorem passedIn_note {e : Event} (h : e.passing? = none) (phase : Phase) :
    (p.note e).passedIn phase = p.passedIn phase := by
  simp [passedIn, note, Event.passedOf?, h]

/-- Inserting a symbol passes over nothing. -/
@[simp] theorem passedIn_insert (inserter : Phase) (s : Symbol) (phase : Phase) :
    (p.insert inserter s).passedIn phase = p.passedIn phase := p.passedIn_note rfl phase

/-- An entry that is passed over comes behind the others of its phase. -/
@[simp] theorem passedIn_pass (entry : Entry) (cause : Defect) :
    (p.pass entry cause).passedIn entry.phase = p.passedIn entry.phase ++ [(entry, cause)] := by
  have hone : (Event.skipped entry cause).passedOf? entry.phase = some (entry, cause) := by
    simp [Event.passedOf?, Event.passing?]
  simp [passedIn, pass, note, hone]

/-- An entry of one phase is none of the other. -/
theorem passedIn_pass_of_ne {entry : Entry} {other : Phase} (h : entry.phase ≠ other)
    (cause : Defect) : (p.pass entry cause).passedIn other = p.passedIn other := by
  simp [passedIn, pass, note, Event.passedOf?, Event.passing?, h]

end Progress

section Phase

variable {phase other : Phase} {p q : Progress}

/-- A move of one phase leaves the symbols of the other alone. -/
theorem Move.insertedIn_of_ne (h : Move phase p q) (hne : phase ≠ other) :
    q.insertedIn other = p.insertedIn other := by
  cases h with
  | noted e he _ => exact p.insertedIn_note he other
  | passed entry cause _ => exact p.insertedIn_pass entry cause other
  | exported s => exact p.insertedIn_insert_of_ne hne s
  | counted => rfl
  | imported s _ => exact p.insertedIn_insert_of_ne hne s

/-- A phase leaves the symbols of the other alone. -/
theorem Moves.insertedIn_of_ne (h : Moves phase p q) (hne : phase ≠ other) :
    q.insertedIn other = p.insertedIn other := by
  induction h with
  | refl => rfl
  | tail _ hmove ih => rw [hmove.insertedIn_of_ne hne, ih]

/-- What moves of a phase insert is what the phase inserts. -/
theorem Moves.exists_inserted_eq_append (h : Moves phase p q) :
    ∃ added, q.inserted.map Prod.snd = p.inserted.map Prod.snd ++ added ∧
      q.insertedIn phase = p.insertedIn phase ++ added := by
  induction h with
  | refl => exact ⟨[], (List.append_nil _).symm, (List.append_nil _).symm⟩
  | @tail mid q _ hmove ih =>
    obtain ⟨added, hall, hphase⟩ := ih
    rcases hmove.inserted_eq_or_insert with ⟨hinserted, -⟩ | ⟨s, rfl, -⟩
    · refine ⟨added, by rw [hinserted, hall], ?_⟩
      rw [q.insertedIn_eq_filterMap, hinserted, ← mid.insertedIn_eq_filterMap, hphase]
    · refine ⟨added ++ [s], ?_, ?_⟩
      · rw [mid.inserted_insert, List.map_append, hall, List.append_assoc]
        rfl
      · rw [mid.insertedIn_insert, hphase, List.append_assoc]

/-- A move of one phase leaves alone what the other has passed over. -/
theorem Move.passedIn_of_ne (h : Move phase p q) (hne : phase ≠ other) :
    q.passedIn other = p.passedIn other := by
  cases h with
  | noted e _ he => exact p.passedIn_note he other
  | passed entry cause _ => exact p.passedIn_pass_of_ne hne cause
  | exported s => exact p.passedIn_insert .exports s other
  | counted => rfl
  | imported s _ => exact p.passedIn_insert .imports s other

/-- A phase leaves alone what the other has passed over. -/
theorem Moves.passedIn_of_ne (h : Moves phase p q) (hne : phase ≠ other) :
    q.passedIn other = p.passedIn other := by
  induction h with
  | refl => rfl
  | tail _ hmove ih => rw [hmove.passedIn_of_ne hne, ih]

/-- A move counts an entry as passed over just where its phase passes over one. -/
theorem Move.skipped_add_length (h : Move phase p q) :
    q.table.skipped + (p.passedIn phase).length = p.table.skipped + (q.passedIn phase).length := by
  cases h with
  | noted e _ he => rw [p.passedIn_note he, Progress.note]
  | passed entry cause _ =>
    rw [p.passedIn_pass, List.length_append]
    exact (Nat.add_right_comm p.table.skipped 1 _).trans (Nat.add_assoc _ _ 1)
  | exported s =>
    rw [p.passedIn_insert]
    rfl
  | counted => rfl
  | imported s _ =>
    rw [p.passedIn_insert]
    rfl

/-- A phase counts the entries that it passes over. -/
theorem Moves.skipped_add_length (h : Moves phase p q) :
    q.table.skipped + (p.passedIn phase).length = p.table.skipped + (q.passedIn phase).length := by
  induction h with
  | refl => rfl
  | tail _ hmove ih =>
    have hstep := hmove.skipped_add_length
    omega

end Phase

/-! ### The two phases -/

namespace Image

variable {image : Image} {settings : SymbolSettings} {table : SymbolTable} {mid last : Progress}

variable (image settings table mid last) in
/-- Both phases have ended in a value, the first one with the progress `mid` and the second one with
the progress `last`, which has the table of the image. -/
structure Phases : Prop where
  /-- The exports are walked from the start. -/
  exportPhase_after : (Walk.exportPhase image settings).after .start = (.ok (), mid)
  /-- The imports are walked from where the exports end. -/
  importPhase_after : (Walk.importPhase image settings).after mid = (.ok (), last)
  /-- What the exports do. -/
  exports_moves : Moves .exports .start mid
  /-- What the imports do. -/
  imports_moves : Moves .imports mid last
  /-- The table is that of the end. -/
  table_eq : last.table = table
  /-- The history has the symbols of the end. -/
  insertedIn_eq : (image.buildSymbols settings).insertedIn = last.insertedIn
  /-- The history has the entries that were passed over by the end. -/
  passedIn_eq : (image.buildSymbols settings).passedIn = last.passedIn

/-- Where there is a table, both phases have ended in a value. -/
theorem exists_phases (h : (image.buildSymbols settings).outcome = .ok table) :
    ∃ mid last : Progress, image.Phases settings table mid last := by
  have hexports := Walk.exportPhase_ends image settings
  have hinserted : (image.buildSymbols settings).insertedIn =
    ((Walk.walkImage image settings).after .start).2.insertedIn := rfl
  have hpassed : (image.buildSymbols settings).passedIn =
    ((Walk.walkImage image settings).after .start).2.passedIn := rfl
  have hwalk : Walk.walkImage image settings = (do
    Walk.exportPhase image settings
    Walk.importPhase image settings
    let table := (← get).table
    Walk.note (.built table.size table.skipped)) := rfl
  rw [outcome_eq, hwalk, Walk.after_bind] at h
  rw [hwalk, Walk.after_bind] at hinserted hpassed
  unfold Walk.Ends at hexports
  generalize hmid : (Walk.exportPhase image settings).after .start = x at h hexports hinserted hpassed
  rcases x with ⟨_ | ⟨⟨⟩⟩, mid⟩
  · cases h
  have himports := Walk.importPhase_ends image settings
    (Walk.weight_lt_of_exportPhase image settings hexports)
  dsimp only at h hinserted hpassed
  rw [Walk.after_bind] at h hinserted hpassed
  unfold Walk.Ends at himports
  generalize hlast : (Walk.importPhase image settings).after mid = y at h himports hinserted hpassed
  rcases y with ⟨_ | ⟨⟨⟩⟩, last⟩
  · cases h
  cases h
  exact ⟨mid, last, hmid, hlast, hexports.moves, himports.moves, rfl,
    hinserted.trans (funext (last.insertedIn_note rfl)),
    hpassed.trans (funext (last.passedIn_note rfl))⟩

namespace Phases

/-- The symbols of the exports are those that the first phase ends with. -/
theorem insertedIn_exports (h : image.Phases settings table mid last) :
    (image.buildSymbols settings).insertedIn .exports = mid.insertedIn .exports := by
  rw [h.insertedIn_eq]
  exact Moves.insertedIn_of_ne h.imports_moves (by decide)

/-- The first phase inserts no imports. -/
theorem insertedIn_imports_eq_nil (h : image.Phases settings table mid last) :
    mid.insertedIn .imports = [] :=
  Moves.insertedIn_of_ne h.exports_moves (by decide)

/-- The first phase passes over no imports. -/
theorem passedIn_imports_eq_nil (h : image.Phases settings table mid last) :
    mid.passedIn .imports = [] :=
  Moves.passedIn_of_ne h.exports_moves (by decide)

/-- The table holds the symbols of both phases, sorted by their addresses. Of symbols at one address,
the one that was inserted first comes first. -/
theorem toList_eq (h : image.Phases settings table mid last) :
    table.toList = stableSort ((image.buildSymbols settings).insertedIn .exports ++
      (image.buildSymbols settings).insertedIn .imports) := by
  obtain ⟨exports, hexports, hin⟩ := Moves.exists_inserted_eq_append h.exports_moves
  obtain ⟨imports, himports, hin'⟩ := Moves.exists_inserted_eq_append h.imports_moves
  have hall : last.inserted.map Prod.snd =
      mid.insertedIn .exports ++ last.insertedIn .imports := by
    rw [himports, hexports, hin, hin', h.insertedIn_imports_eq_nil]
    rfl
  have hrecorded : last.Recorded :=
    Moves.recorded h.imports_moves (Moves.recorded h.exports_moves Progress.recorded_start)
  rw [← h.table_eq, hrecorded.toList_eq, hall, h.insertedIn_exports, h.insertedIn_eq]

/-- The table counts the entries that both phases have passed over. -/
theorem skipped_eq (h : image.Phases settings table mid last) :
    table.skipped = ((image.buildSymbols settings).passedIn .exports).length +
      ((image.buildSymbols settings).passedIn .imports).length := by
  have hexports := Moves.skipped_add_length h.exports_moves
  have himports := Moves.skipped_add_length h.imports_moves
  have hothers : last.passedIn .exports = mid.passedIn .exports :=
    Moves.passedIn_of_ne h.imports_moves (by decide)
  have hstart : Progress.start.table.skipped = 0 := rfl
  have hempty : (Progress.start.passedIn .exports).length = 0 := rfl
  rw [h.passedIn_imports_eq_nil, List.length_nil] at himports
  rw [← h.table_eq, h.passedIn_eq, hothers]
  omega

end Phases

end Image

namespace Sample

/-- The headers of a file whose only section has the 99 bytes at offset 240. -/
def headers : List UInt8 := head 1 ++ record 99 0x1000 99 240 0x20

/-- Exports and imports by number and by name. Three functions are exported: the first is unused, the
second has no name, and two names are those of the third. One more name belongs to no function. -/
def linkedContent : List UInt8 :=
  -- the names and the head of the exports
  [0x61, 0, 0x62, 0, 0, 0, 0x63, 0] ++ gap 4 ++ word 4 0x1028 ++ word 4 0xFFFFFFFF ++ word 4 3 ++
  word 4 3 ++ word 4 0x1050 ++ word 4 0x1062 ++ word 4 0x105C ++ [0x6B, 0x2E, 0x64, 0] ++
  -- a descriptor, the end of the descriptors and the lookup table
  word 4 0x1044 ++ gap 8 ++ word 4 0x1028 ++ word 4 0x2000 ++ gap 4 ++
  word 4 0x80000007 ++ word 4 0x1004 ++ gap 4 ++
  -- the addresses of the functions, the functions of the names and the addresses of the names
  gap 4 ++ word 4 0x1010 ++ word 4 0x1020 ++ word 2 2 ++ word 2 9 ++ word 2 2 ++
  word 4 0x1002 ++ gap 4 ++ word 4 0x1000

/-- A file with both directories. -/
def linkedBuffer : Buffer := ⟨⟨(headers ++ linkedContent).toArray⟩, by decide +kernel⟩

/-- The file is accepted, and both its directories are walked without a defect. -/
theorem exists_linked :
    ∃ image table, Image.read linkedBuffer = .ok image ∧
      (image.buildSymbols {}).outcome = .ok table ∧
      (image.directory Image.exportSlot).virtualAddress ≠ 0 ∧
      (image.directory Image.importSlot).virtualAddress ≠ 0 ∧
      (image.buildSymbols {}).insertedIn .exports =
        [⟨0x1070, "k", "EntryPoint"⟩, ⟨0x1010, "k", "#0"⟩, ⟨0x1020, "k", "b"⟩] ∧
      (image.buildSymbols {}).insertedIn .imports = [⟨0x2000, "k", "#7"⟩, ⟨0x2004, "k", "c"⟩] := by
  have hfacts : (Image.read linkedBuffer).toOption.map (fun image =>
      ((image.buildSymbols {}).outcome.isOk,
        decide ((image.directory Image.exportSlot).virtualAddress ≠ 0),
        decide ((image.directory Image.importSlot).virtualAddress ≠ 0),
        (image.buildSymbols {}).insertedIn .exports,
        (image.buildSymbols {}).insertedIn .imports)) =
      some (true, true, true,
        [⟨0x1070, "k", "EntryPoint"⟩, ⟨0x1010, "k", "#0"⟩, ⟨0x1020, "k", "b"⟩],
        [⟨0x2000, "k", "#7"⟩, ⟨0x2004, "k", "c"⟩]) := by decide +kernel
  obtain ⟨image, hread, himage⟩ := exists_read_of_map hfacts
  simp only [Prod.mk.injEq, decide_eq_true_eq] at himage
  obtain ⟨hok, hexport, himport, hexports, himports⟩ := himage
  cases houtcome : (image.buildSymbols {}).outcome with
  | error fault =>
    rw [houtcome] at hok
    cases hok
  | ok table => exact ⟨image, table, hread, houtcome, hexport, himport, hexports, himports⟩

end Sample

end PeListing
