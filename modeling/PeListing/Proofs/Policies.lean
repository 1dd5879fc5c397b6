import PeListing.Proofs.WalkBounds

/-!
# The two policies

A walk that aborts and a walk that skips, started with the same progress, do the same until the
first entry that does not resolve. There the first ends with the defect and the second counts the
entry, and nothing lowers that count again.

`Lockstep strict lenient` states this for a pair of walks. It holds for every pair that differs in
the policy alone, so that the two tables of an image agree wherever the strict one exists.
-/

namespace PeListing

namespace Walk

variable {α β : Type}

/-- How the ends of a strict and of a lenient walk from `p` may lie to each other. -/
inductive Abreast (p : Progress) :
    Except (Fault Defect) α × Progress → Except (Fault Defect) α × Progress → Prop
  /-- Both end alike, and no entry was passed over. -/
  | together {r : Except (Fault Defect) α} {q : Progress}
      (h : q.table.skipped = p.table.skipped) : Abreast p (r, q) (r, q)
  /-- The strict walk failed, and the lenient one has counted an entry or lost count. -/
  | apart {cause : Defect} {q q' : Progress} {r : Except (Fault Defect) α}
      (h : r = .error .overflow ∨ p.table.skipped < q'.table.skipped) :
      Abreast p (.error (.defect cause), q) (r, q')

/-- Two walks that do the same until an entry does not resolve. -/
def Lockstep (strict lenient : Walk α) : Prop :=
  ∀ p, Abreast p (strict.after p) (lenient.after p)

namespace Lockstep

variable {strict lenient : Walk α}

/-- A walk that passes over no entry is in lockstep with itself. -/
theorem refl (h : ∀ p, (strict.after p).2.table.skipped = p.table.skipped) :
    Lockstep strict strict := fun p => .together (h p)

/-- A value ends both walks alike. -/
theorem pure (a : α) : Lockstep (Pure.pure a) (Pure.pure a) := refl fun _ => rfl

/-- A fault ends both walks alike. -/
theorem throw (fault : Fault Defect) :
    Lockstep (throw fault : Walk α) (MonadExcept.throw fault) := refl fun _ => rfl

/-- A computation beside the walks ends both alike. -/
theorem ofExcept (x : Except (Fault Defect) α) : Lockstep (ofExcept x) (Walk.ofExcept x) :=
  refl fun _ => rfl

theorem liftM (x : Except (Fault Defect) α) :
    Lockstep (MonadLiftT.monadLift x) (MonadLiftT.monadLift x) := refl fun _ => rfl

/-- A computation that cannot leave the range of a number ends both alike. -/
theorem liftM_defect (x : Except Defect α) :
    Lockstep (MonadLiftT.monadLift x) (MonadLiftT.monadLift x) := refl fun _ => rfl

theorem get : Lockstep MonadState.get MonadState.get := refl fun _ => rfl

theorem note (e : Event) : Lockstep (note e) (Walk.note e) := refl fun _ => rfl

theorem insert (phase : Phase) (s : Symbol) : Lockstep (insert phase s) (Walk.insert phase s) :=
  refl fun _ => rfl

/-- A lenient walk takes back no entry that was passed over. -/
theorem skipped_le (h : Lockstep strict lenient) (p : Progress) :
    (lenient.after p).1 = .error .overflow ∨
      p.table.skipped ≤ (lenient.after p).2.table.skipped := by
  have hp := h p
  generalize strict.after p = x, lenient.after p = y at hp
  cases hp with
  | together h => exact .inr (Nat.le_of_eq h.symm)
  | apart h => exact h.imp_right Nat.le_of_lt

/-- Two sequences are in lockstep if their steps are. -/
theorem bind {f g : α → Walk β} (h : Lockstep strict lenient) (hf : ∀ a, Lockstep (f a) (g a)) :
    Lockstep (strict >>= f) (lenient >>= g) := by
  intro p
  rw [after_bind, after_bind]
  have hp := h p
  generalize strict.after p = x, lenient.after p = y at hp
  cases hp with
  | @together r q hq =>
    match r with
    | .error _ => exact .together hq
    | .ok a =>
      have hnext := hf a q
      dsimp only
      generalize (f a).after q = x', (g a).after q = y' at hnext
      cases hnext with
      | together h => exact .together (h.trans hq)
      | apart h => exact .apart (hq ▸ h)
  | @apart cause q q' r hr =>
    -- The strict walk is over; what the lenient one does next takes no entry back.
    match r with
    | .error _ => exact .apart (hr.imp_left fun h => congrArg Except.error (Except.error.inj h))
    | .ok a =>
      have hlt : p.table.skipped < q'.table.skipped := hr.resolve_left (by simp)
      exact .apart (((hf a).skipped_le q').imp_right (Nat.lt_of_lt_of_le hlt))

/-- Both walks take the same branch. -/
theorem ite {c : Prop} [Decidable c] {strict' lenient' : Walk α}
    (h : Lockstep strict lenient) (h' : Lockstep strict' lenient') :
    Lockstep (if c then strict else strict') (if c then lenient else lenient') := by
  split
  · exact h
  · exact h'

/-- Passing over an entry counts it, unless the count leaves its range. -/
theorem passOver_counts (entry : Entry) (cause : Defect) (p : Progress) :
    ((do skip entry cause; return none : Walk (Option α)).after p).1 = .error .overflow ∨
      p.table.skipped <
        ((do skip entry cause; return none : Walk (Option α)).after p).2.table.skipped := by
  rw [after_bind]
  by_cases hlt : p.table.skipped + 1 < Word.limit
  · rw [after_skip hlt]
    exact .inr (Nat.lt_succ_self _)
  · rw [after_skip_overflow hlt]
    exact .inl rfl

/-- The one step in which the policies differ. -/
theorem recover (h : Lockstep strict lenient) (entry : Entry) :
    Lockstep (recover .abort entry strict) (Walk.recover .skip entry lenient) := by
  intro p
  rw [after_recover_abort, after_recover_skip]
  have hp := h p
  generalize strict.after p = x, lenient.after p = y at hp
  cases hp with
  | @together r q hq =>
    match r with
    | .ok a => exact .together hq
    | .error (.defect cause) =>
      dsimp only
      split
      · exact .apart (hq ▸ passOver_counts entry cause q)
      · exact .together hq
    | .error .overflow => exact .together hq
    | .error .outOfRange => exact .together hq
  | @apart cause' q q' r hr =>
    match r with
    | .ok a => exact .apart (.inr (hr.resolve_left (by simp)))
    | .error (.defect cause) =>
      have hlt : p.table.skipped < q'.table.skipped := hr.resolve_left (by simp)
      dsimp only
      split
      · exact .apart ((passOver_counts entry cause q').imp_right (Nat.lt_trans hlt))
      · exact .apart (.inr hlt)
    | .error .overflow => exact .apart (.inl rfl)
    | .error .outOfRange => exact .apart (.inr (hr.resolve_left (by simp)))

end Lockstep

variable (image : Image) (settings : SymbolSettings)

/-! ### Exports -/

/-- One step: a name is paired in both walks. -/
theorem pairName_lockstep (namesOffset ordinalsOffset index : Nat) (names : Array (Option String)) :
    Lockstep
      (pairName image { settings with unresolved := .abort } namesOffset ordinalsOffset index
        names)
      (pairName image { settings with unresolved := .skip } namesOffset ordinalsOffset index
        names) := by
  unfold pairName
  refine ((Lockstep.liftM_defect _).recover _).bind fun ordinal? => ?_
  rcases ordinal? with _ | ordinal
  · exact .pure _
  · dsimp only
    rcases names[ordinal.toNat]? with _ | _ | _
    · exact (Lockstep.note _).bind fun _ => .pure _
    · dsimp only
      have hname : Lockstep (do
          let rva ← image.buffer.tableU32 namesOffset index
          readName image settings rva.toNat : Walk String) _ :=
        (Lockstep.liftM_defect _).bind fun _ => .liftM _
      refine (hname.recover _).bind fun name? => ?_
      rcases name? with _ | name
      · exact .pure _
      · exact .ofExcept _
    · exact .pure _

/-- The run: all names are paired in both walks. -/
theorem pairNames_lockstep (namesOffset ordinalsOffset count index : Nat)
    (names : Array (Option String)) :
    Lockstep
      (pairNames image { settings with unresolved := .abort } namesOffset ordinalsOffset count index
        names)
      (pairNames image { settings with unresolved := .skip } namesOffset ordinalsOffset count index
        names) := by
  induction count generalizing index names with
  | zero => exact .pure _
  | succ count ih =>
    unfold pairNames
    exact (pairName_lockstep image settings _ _ _ _).bind fun names' => ih (index + 1) names'

/-- Both walks find the same names. -/
theorem exportNames_lockstep (directory : ExportDirectory) (functionCount nameCount : Nat) :
    Lockstep
      (exportNames image { settings with unresolved := .abort } directory functionCount
        nameCount)
      (exportNames image { settings with unresolved := .skip } directory functionCount
        nameCount) := by
  unfold exportNames
  refine .ite (.pure _) ((Lockstep.liftM _).bind fun _ => (Lockstep.liftM _).bind fun _ => ?_)
  exact pairNames_lockstep image settings _ _ _ _ _

/-- The run: both walks insert the same functions. -/
theorem insertExports_lockstep (directory : ExportDirectory) (moduleName : String)
    (functionsOffset : Nat) (names : List (Option String)) (index inserted : Nat) :
    Lockstep
      (insertExports image { settings with unresolved := .abort } directory moduleName
        functionsOffset names index inserted)
      (insertExports image { settings with unresolved := .skip } directory moduleName
        functionsOffset names index inserted) := by
  induction names generalizing index inserted with
  | nil => exact .pure _
  | cons name? names ih =>
    unfold insertExports
    refine ((Lockstep.liftM_defect _).recover _).bind fun slot? => ?_
    rcases slot? with _ | rva
    · exact ih (index + 1) inserted
    · refine .ite (ih (index + 1) inserted) ((Lockstep.insert _ _).bind fun _ => ?_)
      exact (Lockstep.ofExcept _).bind fun inserted' => ih (index + 1) inserted'

/-- Both walks cut the number of functions alike. -/
theorem clampExports_lockstep (declared : UInt32) :
    Lockstep (clampExports settings declared) (clampExports settings declared) :=
  .ite ((Lockstep.note _).bind fun _ => .pure _) (.pure _)

/-- Both walks go over the exports of a directory together. -/
theorem walkExports_lockstep (rva : UInt32) :
    Lockstep (walkExports image { settings with unresolved := .abort } rva)
      (walkExports image { settings with unresolved := .skip } rva) := by
  unfold walkExports
  refine (Lockstep.liftM _).bind fun offset => (Lockstep.liftM_defect _).bind fun directory => ?_
  refine (Lockstep.liftM _).bind fun moduleName => (Lockstep.insert _ _).bind fun _ => ?_
  refine (clampExports_lockstep settings _).bind fun functionCount => .ite (.note _) ?_
  refine (exportNames_lockstep image settings _ _ _).bind fun names => ?_
  refine (Lockstep.liftM _).bind fun functionsOffset => ?_
  exact (insertExports_lockstep image settings _ _ _ _ _ _).bind fun inserted => .note _

/-! ### Imports -/

/-- Both walks make the same symbol of a thunk. -/
theorem importSymbol_lockstep (moduleName : String) (address : UInt64)
    (name : Except (Fault Defect) String) :
    Lockstep (importSymbol moduleName address name) (importSymbol moduleName address name) := by
  refine Lockstep.get.bind fun p => .ite (.throw _) ?_
  exact (Lockstep.liftM _).bind fun text => .pure _

/-- Both walks meet the same imported function. -/
theorem countImport_lockstep : Lockstep countImport countImport :=
  Lockstep.get.bind fun _ => (Lockstep.ofExcept _).bind fun _ => .refl fun _ => rfl

/-- The run: the thunks of one descriptor in both walks. -/
theorem walkThunks_lockstep (descriptor : ImportDescriptor) (moduleName : String)
    (lookupOffset budget index : Nat) :
    Lockstep
      (walkThunks image { settings with unresolved := .abort } descriptor moduleName lookupOffset
        budget index)
      (walkThunks image { settings with unresolved := .skip } descriptor moduleName lookupOffset
        budget index) := by
  induction budget generalizing index with
  | zero => exact .pure _
  | succ budget ih =>
    unfold walkThunks
    refine (Lockstep.liftM_defect _).bind fun offset => ?_
    refine (Lockstep.liftM_defect _).bind fun thunk => ?_
    -- The policy has no part in the name of a thunk.
    have hname : thunkName image { settings with unresolved := .skip } thunk =
      thunkName image { settings with unresolved := .abort } thunk := rfl
    rw [hname]
    rcases thunkName image { settings with unresolved := .abort } thunk with _ | name
    · exact .pure _
    · refine countImport_lockstep.bind fun _ => (Lockstep.liftM _).bind fun address => ?_
      refine (Lockstep.ofExcept _).bind fun next => ?_
      refine ((importSymbol_lockstep moduleName address name).recover _).bind fun symbol? => ?_
      rcases symbol? with _ | symbol
      · exact ih next
      · exact (Lockstep.insert _ _).bind fun _ => ih next

/-- Both walks go over the imports from one module together. -/
theorem walkDescriptor_lockstep (descriptor : ImportDescriptor) :
    Lockstep (walkDescriptor image { settings with unresolved := .abort } descriptor)
      (walkDescriptor image { settings with unresolved := .skip } descriptor) := by
  unfold walkDescriptor
  refine (Lockstep.liftM _).bind fun moduleName => (Lockstep.liftM _).bind fun lookupOffset => ?_
  refine Lockstep.get.bind fun p => ?_
  exact (walkThunks_lockstep image settings _ _ _ _ _).bind fun thunks => .note _

/-- The run: all descriptors in both walks. -/
theorem walkDescriptors_lockstep (room offset modules : Nat) :
    Lockstep
      (walkDescriptors image { settings with unresolved := .abort } room offset modules)
      (walkDescriptors image { settings with unresolved := .skip } room offset modules) := by
  induction room generalizing offset modules with
  | zero => exact .throw _
  | succ room ih =>
    unfold walkDescriptors
    refine (Lockstep.liftM_defect _).bind fun descriptor => .ite (.pure _) ?_
    refine ((walkDescriptor_lockstep image settings descriptor).recover _).bind fun _ => ?_
    refine (Lockstep.ofExcept _).bind fun modules' => Lockstep.get.bind fun p => ?_
    refine .ite ((Lockstep.note _).bind fun _ => .pure _) ?_
    rcases Word.add? offset ImportDescriptor.recordSize with _ | next
    · exact .throw _
    · exact ih next modules'

/-- Both walks go over the imports of a directory together. -/
theorem walkImports_lockstep (rva : UInt32) :
    Lockstep (walkImports image { settings with unresolved := .abort } rva)
      (walkImports image { settings with unresolved := .skip } rva) := by
  unfold walkImports
  refine (Lockstep.liftM _).bind fun offset => ?_
  refine (walkDescriptors_lockstep image settings _ _ _).bind fun modules => ?_
  exact Lockstep.get.bind fun p => .note _

/-! ### The image -/

/-- Both walks find a directory, or none does. -/
theorem walkDirectory_lockstep {strict lenient : UInt32 → Walk Unit}
    (h : ∀ rva, Lockstep (strict rva) (lenient rva)) (directory : DataDirectory) (entry : Entry)
    (absent : Event) :
    Lockstep (walkDirectory .abort directory entry absent strict)
      (walkDirectory .skip directory entry absent lenient) :=
  .ite (((h _).recover entry).bind fun _ => .pure _) (.note _)

/-- The two walks over an image are in lockstep. -/
theorem walkImage_lockstep :
    Lockstep (walkImage image { settings with unresolved := .abort })
      (walkImage image { settings with unresolved := .skip }) := by
  unfold walkImage
  refine (walkDirectory_lockstep (walkExports_lockstep image settings) _ _ _).bind fun _ => ?_
  refine (walkDirectory_lockstep (walkImports_lockstep image settings) _ _ _).bind fun _ => ?_
  exact Lockstep.get.bind fun p => .note _

end Walk

/-- Where the strict build gives a table, so does the lenient one, and nothing was passed over. -/
theorem Image.outcome_skip_of_abort {image : Image} {settings : SymbolSettings}
    {table : SymbolTable}
    (h : (image.buildSymbols { settings with unresolved := .abort }).outcome = .ok table) :
    (image.buildSymbols { settings with unresolved := .skip }).outcome = .ok table ∧
      table.skipped = 0 := by
  have hstep := Walk.walkImage_lockstep image settings .start
  rw [Image.outcome_eq] at h ⊢
  generalize (Walk.walkImage image { settings with unresolved := .abort }).after .start = x,
    (Walk.walkImage image { settings with unresolved := .skip }).after .start = y at hstep h
  cases hstep with
  | @together r q hq =>
    match r, h with
    | .ok _, h =>
      cases h
      exact ⟨rfl, hq⟩
  | apart _ => cases h

/-- Where the lenient build passes over nothing, the strict one gives the same table. -/
theorem Image.outcome_abort_of_skip {image : Image} {settings : SymbolSettings}
    {table : SymbolTable}
    (h : (image.buildSymbols { settings with unresolved := .skip }).outcome = .ok table)
    (hskipped : table.skipped = 0) :
    (image.buildSymbols { settings with unresolved := .abort }).outcome = .ok table := by
  have hstep := Walk.walkImage_lockstep image settings .start
  rw [Image.outcome_eq] at h ⊢
  generalize (Walk.walkImage image { settings with unresolved := .abort }).after .start = x,
    (Walk.walkImage image { settings with unresolved := .skip }).after .start = y at hstep h
  cases hstep with
  | together _ => exact h
  | @apart cause q q' r hr =>
    match r, h with
    | .ok _, h =>
      cases h
      have hlt : 0 < q'.table.skipped := hr.resolve_left (by simp)
      omega

/-- **The two policies agree.** Skipping always gives a table, and aborting gives a table exactly
where skipping passed over nothing, and then the same one. -/
theorem Image.outcome_abort_iff_skip (image : Image) (settings : SymbolSettings) :
    ∃ table, (image.buildSymbols { settings with unresolved := .skip }).outcome = .ok table ∧
      ∀ strict, (image.buildSymbols { settings with unresolved := .abort }).outcome = .ok strict ↔
        table.skipped = 0 ∧ strict = table := by
  obtain ⟨table, htable⟩ := image.exists_outcome_of_skip { settings with unresolved := .skip } rfl
  refine ⟨table, htable, fun strict => ⟨fun hstrict => ?_, ?_⟩⟩
  · obtain ⟨hlenient, hskipped⟩ := Image.outcome_skip_of_abort hstrict
    rw [hlenient] at htable
    cases htable
    exact ⟨hskipped, rfl⟩
  · rintro ⟨hskipped, rfl⟩
    exact Image.outcome_abort_of_skip htable hskipped

end PeListing
