import PeListing.Proofs.ExactReads
import PeListing.Proofs.WalkResults

/-!
# The loops of a walk end

A walk has four loops: over the names and over the functions of the exports, over the descriptors of
the imports and over the thunks of a descriptor. Each is given here by one of its rounds, with the
test that the loop itself makes and nothing that counts rounds. `Loops round n s p r` says that such
a loop, left to itself, ends after `n` rounds with `r`.

The first two loops run through a list. The thunks of a descriptor may have no end in the file; each
one that is met uses up one of the imported functions that the settings allow. A descriptor may
use up none of them, but it takes up bytes of the file. In each case the recursion by which the loop
is computed counts just what the loop uses up, so it stops no loop early
(`Walk.pairNames_loops`, `Walk.insertExports_loops`, `Walk.walkDescriptors_loops`,
`Walk.walkThunks_loops`).
-/

namespace PeListing.Walk

variable {σ α : Type}

/-- A loop that starts in a state and with some progress ends after so many rounds. A round leads to
the next state or ends the loop with a value; a round that fails ends the loop too. -/
inductive Loops (round : σ → Walk (σ ⊕ α)) :
    Nat → σ → Progress → Except (Fault Defect) α × Progress → Prop
  | fails {s : σ} {p q : Progress} {fault : Fault Defect}
      (h : (round s).after p = (.error fault, q)) : Loops round 1 s p (.error fault, q)
  | ends {s : σ} {p q : Progress} {a : α} (h : (round s).after p = (.ok (.inr a), q)) :
      Loops round 1 s p (.ok a, q)
  | goesOn {s s' : σ} {p q : Progress} {n : Nat} {r : Except (Fault Defect) α × Progress}
      (h : (round s).after p = (.ok (.inl s'), q)) (hrest : Loops round n s' q r) :
      Loops round (n + 1) s p r

/-- A loop ends in what a walk gives, after no more rounds than a limit. -/
def LoopsWithin (round : σ → Walk (σ ⊕ α)) (limit : Nat) (s : σ) (p : Progress) (w : Walk α) :
    Prop :=
  ∃ n ≤ limit, Loops round n s p (w.after p)

namespace LoopsWithin

variable {round : σ → Walk (σ ⊕ α)} {limit : Nat} {s : σ} {p : Progress}

/-- A loop within a limit is within a higher one. -/
theorem mono {limit' : Nat} {w : Walk α} (h : LoopsWithin round limit s p w)
    (hle : limit ≤ limit') : LoopsWithin round limit' s p w := by
  obtain ⟨n, hn, hloops⟩ := h
  exact ⟨n, Nat.le_trans hn hle, hloops⟩

/-- A last round. -/
theorem last {w : Walk α}
    (h : (round s).after p = ((w.after p).1.map Sum.inr, (w.after p).2)) :
    LoopsWithin round (limit + 1) s p w := by
  refine ⟨1, Nat.le_add_left 1 limit, ?_⟩
  generalize w.after p = x at h ⊢
  rcases x with ⟨fault | a, q⟩
  · exact .fails h
  · exact .ends h

/-- A round, and what follows it where it leads to another state. -/
theorem bind (next : σ → Walk α) {w : Walk α}
    (hw : w.after p = (round s >>= Sum.elim next pure).after p)
    (h : (round s).Meets p
      (fun r q => ∀ s', r = .inl s' → LoopsWithin round limit s' q (next s')) fun _ _ => True) :
    LoopsWithin round (limit + 1) s p w := by
  unfold LoopsWithin
  rw [hw, after_bind]
  rcases hround : (round s).after p with ⟨fault | s' | a, q⟩
  · exact ⟨1, Nat.le_add_left 1 limit, .fails hround⟩
  · obtain ⟨n, hn, hloops⟩ := h.of_ok hround s' rfl
    exact ⟨n + 1, Nat.succ_le_succ hn, .goesOn hround hloops⟩
  · exact ⟨1, Nat.le_add_left 1 limit, .ends hround⟩

end LoopsWithin

/-- A walk of whose end nothing is asked. -/
theorem Meets.top {w : Walk α} {p : Progress} : w.Meets p (fun _ _ => True) fun _ _ => True := by
  unfold Meets
  split <;> trivial

/-- A quiet walk ends with the progress that it has started with. -/
theorem Quiet.meets {w : Walk α} {p : Progress} {good : α → Prop} (h : w.Quiet p good) :
    w.Meets p (fun a q => good a ∧ q = p) fun _ q => q = p := by
  unfold Quiet Ends at h
  unfold Meets
  generalize w.after p = x at h ⊢
  rcases x with ⟨(cause | _ | _) | a, q⟩
  · exact h.2
  · trivial
  · trivial
  · exact h

/-- A quiet step that may be passed over leaves the progress alone, or counts as passed over. -/
theorem Quiet.recover_meets {w : Walk α} {p : Progress} {good : α → Prop} (h : w.Quiet p good)
    (policy : UnresolvedPolicy) (entry : Entry) :
    (recover policy entry w).Meets p
      (fun a? q => (∃ a, a? = some a ∧ good a ∧ q = p) ∨
        a? = none ∧ ∃ cause, q = p.pass entry cause)
      fun _ q => q = p := by
  refine Meets.recover (h.meets.mono ?_ ?_)
  · rintro a q ⟨ha, hq⟩
    exact .inl ⟨a, rfl, ha, hq⟩
  · rintro cause q rfl
    split
    · exact .inr ⟨rfl, cause, rfl⟩
    · rfl

variable (image : Image) (settings : SymbolSettings)

/-! ### Exports -/

/-- A round of the loop over names: the next one is paired with its function. -/
def nameRound (namesOffset ordinalsOffset count : Nat) (s : Nat × Array (Option String)) :
    Walk ((Nat × Array (Option String)) ⊕ Array (Option String)) := do
  if s.1 < count then
    let names ← pairName image settings namesOffset ordinalsOffset s.1 s.2
    return .inl (s.1 + 1, names)
  else return .inr s.2

/-- The names are walked in as many rounds as there are names, and one to end. -/
theorem pairNames_loops (namesOffset ordinalsOffset count index : Nat)
    (names : Array (Option String)) (p : Progress) :
    LoopsWithin (nameRound image settings namesOffset ordinalsOffset (index + count)) (count + 1)
      (index, names) p (pairNames image settings namesOffset ordinalsOffset count index names) := by
  induction count generalizing index names p with
  | zero =>
    have hround : nameRound image settings namesOffset ordinalsOffset index (index, names) =
      (return .inr names) := if_neg (Nat.lt_irrefl index)
    apply LoopsWithin.last
    rw [Nat.add_zero, hround]
    rfl
  | succ count ih =>
    have hround : nameRound image settings namesOffset ordinalsOffset (index + (count + 1))
        (index, names) = (do
          let names ← pairName image settings namesOffset ordinalsOffset index names
          return .inl (index + 1, names)) := if_pos (Nat.lt_add_of_pos_right (Nat.succ_pos count))
    refine .bind (fun s => pairNames image settings namesOffset ordinalsOffset count s.1 s.2) ?_ ?_
    · rw [hround, bind_assoc]
      simp only [pure_bind, Sum.elim_inl]
      rfl
    · rw [hround]
      refine Meets.top.bind fun names' q _ => .pure ?_
      rintro _ ⟨⟩
      have hrest := ih (index + 1) names' q
      rwa [Nat.add_assoc, Nat.add_comm 1 count] at hrest

/-- A round of the loop over functions: the next one is put into the table, unless it is unused or
does not resolve. -/
def functionRound (directory : ExportDirectory) (moduleName : String) (functionsOffset : Nat) :
    List (Option String) × Nat × Nat → Walk ((List (Option String) × Nat × Nat) ⊕ Nat)
  | ([], _, inserted) => return .inr inserted
  | (name? :: names, index, inserted) => do
    let slot? ← recover settings.unresolved .exportAddressSlot
      (image.buffer.tableU32 functionsOffset index)
    match slot? with
    | none => return .inl (names, index + 1, inserted)
    | some rva =>
      if rva = 0 then return .inl (names, index + 1, inserted)
      else do
        let ordinal := directory.ordinalBase + UInt32.ofNat index
        let name := name?.getD (Symbol.ordinalName ordinal.toNat)
        insert .exports ⟨rva.toUInt64, moduleName, name⟩
        let inserted ← ofExcept (Word.add inserted 1)
        return .inl (names, index + 1, inserted)

/-- The functions are walked in as many rounds as there are functions, and one to end. -/
theorem insertExports_loops (directory : ExportDirectory) (moduleName : String)
    (functionsOffset : Nat) (names : List (Option String)) (index inserted : Nat) (p : Progress) :
    LoopsWithin (functionRound image settings directory moduleName functionsOffset)
      (names.length + 1) (names, index, inserted) p
      (insertExports image settings directory moduleName functionsOffset names index inserted) := by
  induction names generalizing index inserted p with
  | nil =>
    apply LoopsWithin.last
    rfl
  | cons name? names ih =>
    refine .bind (fun s => insertExports image settings directory moduleName functionsOffset
      s.1 s.2.1 s.2.2) ?_ ?_
    · rw [insertExports]
      unfold functionRound
      dsimp only
      rw [bind_assoc]
      congr 2
      funext slot?
      cases slot? with
      | none => rfl
      | some rva =>
        dsimp only
        split
        · rfl
        · simp only [bind_assoc, pure_bind, Sum.elim_inl]
    · unfold functionRound
      refine Meets.top.bind fun slot? q _ => ?_
      cases slot? with
      | none =>
        refine .pure ?_
        rintro _ ⟨⟩
        exact ih _ _ _
      | some rva =>
        dsimp only
        split
        · refine .pure ?_
          rintro _ ⟨⟩
          exact ih _ _ _
        · refine .insert_bind (.ofExcept_bind (fun inserted' _ => .pure ?_) fun _ _ => trivial)
          rintro _ ⟨⟩
          exact ih _ _ _

/-! ### Imports -/

/-- What a round of the loop over thunks does below the limit: the next thunk counts as met, and
its symbol is put into the table unless it does not resolve. The end of the lookup table ends the
loop. -/
def thunkStep (descriptor : ImportDescriptor) (moduleName : String) (lookupOffset index : Nat) :
    Walk (Nat ⊕ Nat) := do
  let offset ← image.buffer.elementOffset lookupOffset index image.kind.thunkSize
  let thunk ← Thunk.read image.buffer offset image.kind
  match thunkName image settings thunk with
  | none => return .inr index
  | some name => do
    countImport
    let address ← descriptor.slotAddress image.kind index
    let next ← ofExcept (Word.add index 1)
    let symbol? ← recover settings.unresolved .importThunk (importSymbol moduleName address name)
    match symbol? with
    | none => return .inl next
    | some symbol => do
      insert .imports symbol
      return .inl next

/-- A round of the loop over thunks, which first looks at the limit. -/
def thunkRound (descriptor : ImportDescriptor) (moduleName : String) (lookupOffset index : Nat) :
    Walk (Nat ⊕ Nat) := do
  if settings.maxImports.toNat ≤ (← get).importsWalked then return .inr index
  else thunkStep image settings descriptor moduleName lookupOffset index

/-- The thunks are walked by the next one and then the rest. -/
theorem walkThunks_succ (descriptor : ImportDescriptor) (moduleName : String)
    (lookupOffset budget index : Nat) :
    walkThunks image settings descriptor moduleName lookupOffset (budget + 1) index =
      thunkStep image settings descriptor moduleName lookupOffset index >>= Sum.elim
        (walkThunks image settings descriptor moduleName lookupOffset budget) pure := by
  rw [walkThunks]
  unfold thunkStep
  simp only [bind_assoc]
  refine bind_congr fun offset => bind_congr fun thunk => ?_
  cases thunkName image settings thunk with
  | none => rfl
  | some name =>
    simp only [bind_assoc]
    refine bind_congr fun _ => bind_congr fun _ => bind_congr fun _ => bind_congr fun symbol? => ?_
    cases symbol? with
    | none => rfl
    | some symbol => simp only [bind_assoc, pure_bind, Sum.elim_inl]

/-- Where the loop over thunks goes on, one more imported function has been met. -/
theorem thunkStep_meets (descriptor : ImportDescriptor) (moduleName : String)
    (lookupOffset index : Nat) (p : Progress) :
    (thunkStep image settings descriptor moduleName lookupOffset index).Meets p
      (fun r q => ∀ next, r = .inl next → q.importsWalked = p.importsWalked + 1)
      fun _ _ => True := by
  unfold thunkStep
  refine .liftM_defect_bind (fun offset _ => ?_) fun _ _ => trivial
  refine .liftM_defect_bind (fun thunk _ => ?_) fun _ _ => trivial
  cases hname : thunkName image settings thunk with
  | none =>
    refine .pure ?_
    rintro _ ⟨⟩
  | some name =>
    refine .countImport_bind (.liftM_bind (fun address _ => ?_) fun _ _ => trivial)
    refine .ofExcept_bind (fun next _ => ?_) fun _ _ => trivial
    have hsymbol : (recover settings.unresolved .importThunk
        (importSymbol moduleName address name)).Meets p.countImport
        (fun _ q => q.importsWalked = p.importsWalked + 1) fun _ _ => True := by
      have hquiet := importSymbol_quiet (p := p.countImport) moduleName address
        (thunkName_yields image settings hname)
      refine (hquiet.recover_meets _ _).mono ?_ fun _ _ _ => trivial
      rintro _ q (⟨_, -, -, rfl⟩ | ⟨-, _, rfl⟩) <;> rfl
    refine hsymbol.bind fun symbol? q hq => ?_
    cases symbol? with
    | none => exact .pure fun _ _ => hq
    | some symbol => exact .insert_bind (.pure fun _ _ => hq)

/-- Below the limit a round does not stop for it. -/
theorem thunkRound_after_of_lt {p : Progress} (h : p.importsWalked < settings.maxImports.toNat)
    (descriptor : ImportDescriptor) (moduleName : String) (lookupOffset index : Nat) :
    (thunkRound image settings descriptor moduleName lookupOffset index).after p =
      (thunkStep image settings descriptor moduleName lookupOffset index).after p := by
  change (ite (settings.maxImports.toNat ≤ p.importsWalked) _ _ : Walk _).after p = _
  rw [if_neg (Nat.not_le.mpr h)]

/-- The loop over the thunks of a descriptor ends when the imported functions that may still be met
are used up. -/
theorem walkThunks_loops (descriptor : ImportDescriptor) (moduleName : String)
    (lookupOffset : Nat) {budget index : Nat} {p : Progress}
    (h : budget = settings.maxImports.toNat - p.importsWalked) :
    LoopsWithin (thunkRound image settings descriptor moduleName lookupOffset) (budget + 1) index p
      (walkThunks image settings descriptor moduleName lookupOffset budget index) := by
  induction budget generalizing index p with
  | zero =>
    -- the budget is used up just where the loop finds the limit reached
    have hlimit : settings.maxImports.toNat ≤ p.importsWalked := Nat.le_of_sub_eq_zero h.symm
    apply LoopsWithin.last
    change (ite (settings.maxImports.toNat ≤ p.importsWalked) _ _ : Walk _).after p = _
    rw [if_pos hlimit]
    rfl
  | succ budget ih =>
    have hround := thunkRound_after_of_lt image settings (p := p) (by omega) descriptor moduleName
      lookupOffset index
    refine .bind (walkThunks image settings descriptor moduleName lookupOffset budget) ?_ ?_
    · rw [walkThunks_succ, after_bind, after_bind, hround]
    · unfold Meets
      rw [hround]
      refine (thunkStep_meets image settings descriptor moduleName lookupOffset index p).imp ?_
      intro r q hwalked next hr
      refine ih ?_
      rw [hwalked next hr]
      omega

/-- A round of the loop over descriptors. The end of the descriptors ends the loop, and so does the
limit, which is looked at behind each descriptor. -/
def descriptorRound (s : Nat × Nat) : Walk ((Nat × Nat) ⊕ Nat) := do
  let descriptor ← ImportDescriptor.read image.buffer s.1
  if descriptor.isTerminator then return .inr s.2
  else do
    let _ ← recover settings.unresolved .importDescriptor (walkDescriptor image settings descriptor)
    let modules ← ofExcept (Word.add s.2 1)
    if settings.maxImports.toNat ≤ (← get).importsWalked then
      note (.importLimitReached settings.maxImports)
      return .inr modules
    else
      match Word.add? s.1 ImportDescriptor.recordSize with
      | some next => return .inl (next, modules)
      | none => throw (.defect (.outOfBounds s.1 image.buffer.size))

/-- The descriptors are walked by the next one and then the rest. -/
theorem walkDescriptors_succ (room offset modules : Nat) :
    walkDescriptors image settings (room + 1) offset modules =
      descriptorRound image settings (offset, modules) >>=
        Sum.elim (fun s => walkDescriptors image settings room s.1 s.2) pure := by
  rw [walkDescriptors]
  unfold descriptorRound
  dsimp only
  rw [bind_assoc]
  refine bind_congr fun descriptor => ?_
  split
  · rfl
  · simp only [bind_assoc]
    refine bind_congr fun _ => bind_congr fun modules => bind_congr fun p => ?_
    split
    · rfl
    · cases Word.add? offset ImportDescriptor.recordSize <;> rfl

/-- The loop over descriptors ends where the next one does not fit into the file. -/
theorem walkDescriptors_loops {room offset : Nat} (modules : Nat) (p : Progress)
    (h : room = (image.buffer.size - offset) / ImportDescriptor.recordSize) :
    LoopsWithin (descriptorRound image settings) (room + 1) (offset, modules) p
      (walkDescriptors image settings room offset modules) := by
  have hsize : ImportDescriptor.recordSize = 20 := rfl
  rw [hsize] at h
  induction room generalizing offset modules p with
  | zero =>
    -- the recursion stops with the defect that reading one more descriptor has
    have hread : ImportDescriptor.read image.buffer offset =
        .error (.outOfBounds offset image.buffer.size) := by
      rw [ImportDescriptor.read_eq, if_neg (by omega)]
    apply LoopsWithin.last
    unfold descriptorRound
    dsimp only
    rw [hread]
    rfl
  | succ room ih =>
    refine .bind (fun s => walkDescriptors image settings room s.1 s.2) ?_ ?_
    · rw [walkDescriptors_succ]
    · unfold descriptorRound
      refine .liftM_defect_bind (fun descriptor _ => ?_) fun _ _ => trivial
      split
      · refine .pure ?_
        rintro _ ⟨⟩
      · refine Meets.top.bind fun _ q _ => ?_
        refine .ofExcept_bind (fun modules _ => .get_bind ?_) fun _ _ => trivial
        split
        · refine .note_bind (.pure ?_)
          rintro _ ⟨⟩
        · split
          · next next hnext =>
            obtain ⟨-, rfl⟩ := Word.add?_eq_some_iff.mp hnext
            refine .pure ?_
            rintro _ ⟨⟩
            refine ih modules q ?_
            change room = (image.buffer.size - (offset + 20)) / 20
            omega
          · exact .throw trivial

end PeListing.Walk
