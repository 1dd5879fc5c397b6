import PeListing.Proofs.ImportStream
import PeListing.Proofs.Policies
import PeListing.Proofs.WalkResults

/-!
# Imports as declared

The walk over the imports of an image inserts what they declare (`Image.Declares`), in that order, and
passes over the rest (`Image.imports_declared`).

The walk is compared with a reader that goes along. `Progress.Absorbs` says what the walk has done with
the items that the reader has met. `Walk.Reaches` says how far both have come, and `Walk.Follows` that
a part of the walk gets to where the reader gets to. A defect inside that part can only be due to
something that the reader cannot read either. So if the walk passes over the defect, it goes on from
where the reader does.
-/

namespace PeListing

/-! ### What becomes of items -/

namespace Progress

/-- The addresses of the symbols inserted so far. -/
def addresses (p : Progress) : List UInt64 := p.inserted.map fun x => x.2.address

/-- An event that inserts nothing takes no address. -/
theorem addresses_note {e : Event} (h : e.insertion? = none) (p : Progress) :
    (p.note e).addresses = p.addresses := by
  rw [addresses, p.inserted_note h, addresses]

/-- A symbol takes its address. -/
@[simp] theorem addresses_insert (p : Progress) (phase : Phase) (s : Symbol) :
    (p.insert phase s).addresses = p.addresses ++ [s.address] := by
  simp [addresses]

variable {p : Progress}

/-- The table has the addresses that were given to symbols. -/
theorem Recorded.contains_iff (h : p.Recorded) {address : UInt64} :
    p.table.contains address = true ↔ address ∈ p.addresses := by
  constructor
  · intro hcontains
    by_contra hfree
    have hnone : atAddress (p.inserted.map Prod.snd) address = [] := by
      refine atAddress_eq_nil fun s hs heq => hfree ?_
      obtain ⟨x, hx, rfl⟩ := List.mem_map.mp hs
      exact List.mem_map.mpr ⟨x, hx, heq⟩
    rw [← h address, ← SymbolTable.contains_eq_false_iff, hcontains] at hnone
    cases hnone
  · intro hmem
    obtain ⟨x, hx, rfl⟩ := List.mem_map.mp hmem
    by_contra hfree
    exact h.address_ne (eq_false_of_ne_true hfree) hx rfl

/-- From `p` to `q` a walk has come by items: it has inserted those that are symbols at a free address
and passed over the others. -/
structure Absorbs (p : Progress) (items : List (Option Symbol)) (q : Progress) : Prop where
  recorded : q.Recorded
  inserted : q.insertedIn .imports = p.insertedIn .imports ++ admitted p.addresses items
  addresses : q.addresses = p.addresses ++ (admitted p.addresses items).map Symbol.address
  skipped : q.table.skipped + (admitted p.addresses items).length = p.table.skipped + items.length

namespace Absorbs

variable {p q r : Progress} {items rest : List (Option Symbol)}

/-- Where nothing is done, no item is dealt with. -/
theorem refl (h : p.Recorded) : Absorbs p [] p :=
  ⟨h, (List.append_nil _).symm, (List.append_nil _).symm, rfl⟩

/-- Items are dealt with one after another. -/
theorem trans (h : Absorbs p items q) (h' : Absorbs q rest r) : Absorbs p (items ++ rest) r := by
  have hadmitted : admitted p.addresses (items ++ rest) =
      admitted p.addresses items ++ admitted q.addresses rest := by
    rw [admitted_append, h.addresses]
  refine ⟨h'.recorded, ?_, ?_, ?_⟩
  · rw [hadmitted, h'.inserted, h.inserted, List.append_assoc]
  · rw [hadmitted, h'.addresses, h.addresses, List.map_append, List.append_assoc]
  · have hskipped := h.skipped
    have hskipped' := h'.skipped
    rw [hadmitted, List.length_append, List.length_append]
    omega

/-- An event that inserts nothing. -/
theorem note (h : Absorbs p items q) {e : Event} (he : e.insertion? = none) :
    Absorbs p items (q.note e) := by
  refine ⟨h.recorded.congr (q.inserted_note he) rfl, ?_, ?_, h.skipped⟩
  · exact (q.insertedIn_note he .imports).trans h.inserted
  · exact (addresses_note he q).trans h.addresses

/-- Meeting an imported function deals with no item. -/
theorem countImport (h : Absorbs p items q) : Absorbs p items q.countImport :=
  ⟨h.recorded, h.inserted, h.addresses, h.skipped⟩

/-- An item that is passed over: nothing, or a symbol at an address that is taken. -/
theorem pass (h : Absorbs p items q) (entry : Entry) (cause : Defect) {item : Option Symbol}
    (hitem : ∀ s, item = some s → s.address ∈ q.addresses) :
    Absorbs p (items ++ [item]) (q.pass entry cause) := by
  have hnone : admitted q.addresses [item] = [] := by
    cases item with
    | none => rfl
    | some s => simp [admitted, hitem s rfl]
  refine h.trans ⟨h.recorded.congr (q.inserted_pass entry cause) rfl, ?_, ?_, ?_⟩
  · rw [hnone, q.insertedIn_pass, List.append_nil]
  · rw [hnone, List.map_nil, List.append_nil]
    exact addresses_note rfl q
  · rw [hnone]
    rfl

/-- A symbol at a free address is inserted. -/
theorem insert (h : Absorbs p items q) {s : Symbol} (hfree : s.address ∉ q.addresses) :
    Absorbs p (items ++ [some s]) (q.insert .imports s) := by
  have hone : admitted q.addresses [some s] = [s] := by simp [admitted, hfree]
  refine h.trans ⟨h.recorded.insert .imports s, ?_, ?_, ?_⟩
  · rw [hone, q.insertedIn_insert]
  · rw [hone, q.addresses_insert]
    rfl
  · rw [hone]
    rfl

end Absorbs

end Progress

/-! ### The walk along the stream -/

namespace Walk

variable {image : Image} {settings : SymbolSettings} {p q : Progress}

variable (image settings p q) in
/-- While a walk goes from `p` to `q`, a reader at the cursor `c` that may take `n` thunks gets to
`c'`. The walk has yet to deal with the items `pending` that the reader met last. -/
def Reaches (c : ImportCursor) (n : Nat) (pending : List (Option Symbol)) (c' : ImportCursor) :
    Prop :=
  ∃ items left, p.Absorbs items q ∧ q.importsWalked + left = settings.maxImports.toNat ∧
    ∀ rest, image.Declares settings c' left rest →
      image.Declares settings c n (items ++ (pending ++ rest))

variable {c c₁ c' : ImportCursor} {n n₁ : Nat} {pending : List (Option Symbol)}

/-- A walk that goes no further than the reader. -/
theorem Reaches.refl (hp : p.Recorded) (hleft : p.importsWalked + n₁ = settings.maxImports.toNat)
    (hstep : ∀ rest, image.Declares settings c' n₁ rest →
      image.Declares settings c n (pending ++ rest)) :
    Reaches image settings p p c n pending c' :=
  ⟨[], n₁, .refl hp, hleft, hstep⟩

/-- Steps that come first. -/
theorem Reaches.after {p₁ : Progress} {items : List (Option Symbol)}
    (h : Reaches image settings p₁ q c₁ n₁ pending c') (habsorbs : p.Absorbs items p₁)
    (hstep : ∀ rest, image.Declares settings c₁ n₁ rest →
      image.Declares settings c n (items ++ rest)) :
    Reaches image settings p q c n pending c' := by
  obtain ⟨items', left, habsorbs', hleft, hrest⟩ := h
  refine ⟨items ++ items', left, habsorbs.trans habsorbs', hleft, fun rest h => ?_⟩
  rw [List.append_assoc]
  exact hstep _ (hrest rest h)

/-- An event that inserts nothing leaves both where they are. -/
theorem Reaches.note (h : Reaches image settings p q c n pending c') {e : Event}
    (he : e.insertion? = none) : Reaches image settings p (q.note e) c n pending c' := by
  obtain ⟨items, left, habsorbs, hleft, hrest⟩ := h
  exact ⟨items, left, habsorbs.note he, hleft, hrest⟩

/-- What cannot be read is passed over. -/
theorem Reaches.pass (h : Reaches image settings p q c n [none] c') (entry : Entry)
    (cause : Defect) : Reaches image settings p (q.pass entry cause) c n [] c' := by
  obtain ⟨items, left, habsorbs, hleft, hrest⟩ := h
  refine ⟨items ++ [none], left, habsorbs.pass entry cause nofun, hleft, fun rest h => ?_⟩
  rw [List.append_assoc]
  exact hrest rest h

variable (image settings) in
/-- A walk that starts with `p₁` gets to where a reader gets from `c` to `c'` while a walk goes on from
`p`. It ends in a defect only where the reader has met something that it cannot read. -/
def Follows {α : Type} (w : Walk α) (p p₁ : Progress) (c : ImportCursor) (n : Nat)
    (c' : ImportCursor) : Prop :=
  w.Meets p₁ (fun _ q => Reaches image settings p q c n [] c')
    (OnPass settings.unresolved fun q => Reaches image settings p q c n [none] c')

/-- Steps that come first, in front of a part of the walk. -/
theorem Follows.after {α : Type} {w : Walk α} {p₁ : Progress} {items : List (Option Symbol)}
    (h : Follows image settings w p₁ p₁ c₁ n₁ c') (habsorbs : p.Absorbs items p₁)
    (hstep : ∀ rest, image.Declares settings c₁ n₁ rest →
      image.Declares settings c n (items ++ rest)) :
    Follows image settings w p p₁ c n c' :=
  h.mono (fun _ _ h => h.after habsorbs hstep) fun _ _ h => h.mono fun h => h.after habsorbs hstep

/-- The name that a thunk gives. -/
theorem thunkName_ofValue {v : Nat} (hv : v < 2 * image.kind.ordinalFlag.toNat) (hne : v ≠ 0) :
    ∃ name, thunkName image settings (Thunk.ofValue image.kind (UInt64.ofNat v)) = some name ∧
      name.toOption = image.importName? settings v := by
  rw [Thunk.ofValue_eq hv hne, Image.importName?]
  by_cases htop : image.kind.ordinalFlag.toNat ≤ v
  · rw [if_pos htop, if_pos htop]
    refine ⟨_, rfl, ?_⟩
    rw [UInt16.toNat_ofNat']
    rfl
  · rw [if_neg htop, if_neg htop]
    refine ⟨_, rfl, ?_⟩
    have hlimit : Word.limit = 0x10000000000000000 := rfl
    have hsmall : v % 0x80000000 < 0x80000000 := Nat.mod_lt _ (by decide)
    have hadd : (Word.add (v % 0x80000000) 2 : Except (Fault Defect) Nat) =
        .ok (v % 0x80000000 + 2) := Word.add_of_lt (by omega)
    rw [UInt32.toNat_ofNat_of_lt' (Nat.lt_trans hsmall (by decide)), hadd]
    rfl

/-- The symbol of a slot is given only if its address is free. -/
theorem importSymbol_meets (hp : p.Recorded) (moduleName : String) (address : UInt64)
    (name : Except (Fault Defect) String) {item : Option Symbol}
    (hitem : item = name.toOption.map fun name => ⟨address, moduleName, name⟩) :
    (importSymbol moduleName address name).Meets p
      (fun s q => q = p ∧ item = some s ∧ s.address ∉ p.addresses)
      fun _ q => q = p ∧ ∀ s, item = some s → s.address ∈ p.addresses := by
  unfold importSymbol
  refine .get_bind ?_
  by_cases hcontains : p.table.contains address = true
  · rw [if_pos hcontains]
    refine .throw ⟨rfl, fun s hs => ?_⟩
    rw [hitem, Option.map_eq_some_iff] at hs
    obtain ⟨_, -, rfl⟩ := hs
    exact hp.contains_iff.mp hcontains
  · rw [if_neg hcontains]
    refine .liftM_bind (fun name hname => ?_) fun cause hcause => ?_
    · rw [hname] at hitem
      exact .pure ⟨rfl, hitem, mt hp.contains_iff.mpr hcontains⟩
    · rw [hcause] at hitem
      exact ⟨rfl, fun s hs => nomatch hitem.symm.trans hs⟩

/-- One step: a thunk that does not end its table, and what comes behind it. -/
theorem thunk_follows {descriptor lookup index budget value : Nat} {moduleName : String}
    {name : Except (Fault Defect) String} {k : Nat → Walk Nat} (hp : p.Recorded)
    (hbudget : p.importsWalked + (budget + 1) = settings.maxImports.toNat)
    (hin : lookup + index * image.kind.thunkSize + image.kind.thunkSize ≤ image.buffer.size)
    (hvalue : image.buffer.number (lookup + index * image.kind.thunkSize) image.kind.thunkSize =
      value) (hne : value ≠ 0) (hname : name.toOption = image.importName? settings value)
    (hk : ∀ p₁ : Progress, p₁.Recorded → p₁.importsWalked + budget = settings.maxImports.toNat →
      Follows image settings (k (index + 1)) p₁ p₁
        (.thunk descriptor moduleName lookup (index + 1)) budget c') :
    Follows image settings (do
      countImport
      let address ← (ImportDescriptor.ofBuffer image.buffer descriptor).slotAddress image.kind index
      let next ← ofExcept (Word.add index 1)
      let symbol? ← recover settings.unresolved .importThunk (importSymbol moduleName address name)
      match symbol? with
      | none => k next
      | some symbol => do
        insert .imports symbol
        k next) p p (.thunk descriptor moduleName lookup index) (budget + 1) c' := by
  have hlimit : Word.limit = 0x10000000000000000 := rfl
  have hsize : image.buffer.size < 0x8000000000000000 := image.buffer.size_lt
  have hwidth : 0 < image.kind.thunkSize := by cases image.kind <;> decide
  have hindex : index ≤ index * image.kind.thunkSize := Nat.le_mul_of_pos_right index hwidth
  have hcounted : p.countImport.importsWalked + budget = settings.maxImports.toNat := by
    rw [← hbudget, Nat.add_comm budget, ← Nat.add_assoc]
    rfl
  have hstart : p.Absorbs [] p.countImport := (Progress.Absorbs.refl hp).countImport
  have hitem : image.importSymbol? settings descriptor moduleName index value =
      name.toOption.map fun name => ⟨UInt64.ofNat (image.buffer.number (descriptor + 16) 4 +
        index * image.kind.thunkSize), moduleName, name⟩ := by
    rw [hname, Image.importSymbol?]
  have hstep : ∀ rest, image.Declares settings (.thunk descriptor moduleName lookup (index + 1))
      budget rest → image.Declares settings (.thunk descriptor moduleName lookup index) (budget + 1)
        ([image.importSymbol? settings descriptor moduleName index value] ++ rest) :=
    fun rest h => .thunk hin hvalue hne h
  refine Meets.countImport_bind (.liftM_bind_of_eq (image.buffer.slotAddress_ofBuffer descriptor hin)
    (.liftM_bind_of_eq (Word.add_of_lt (by omega)) (.recover_bind ?_)))
  apply (importSymbol_meets hstart.recorded moduleName _ name hitem).mono
  · rintro s q ⟨rfl, hs, hfree⟩
    rw [hs] at hstep
    have habsorbs := hstart.insert hfree
    exact .insert_bind ((hk _ habsorbs.recorded hcounted).after habsorbs hstep)
  · rintro _ q ⟨rfl, htaken⟩ - - cause
    have habsorbs := hstart.pass .importThunk cause htaken
    exact (hk _ habsorbs.recorded hcounted).after habsorbs hstep

/-- The run: the thunks of one descriptor. -/
theorem walkThunks_follows (descriptor : Nat) (moduleName : String) (lookup : Nat)
    {budget index : Nat} (hp : p.Recorded)
    (hbudget : p.importsWalked + budget = settings.maxImports.toNat) :
    Follows image settings (walkThunks image settings (.ofBuffer image.buffer descriptor) moduleName
      lookup budget index) p p (.thunk descriptor moduleName lookup index) budget
        (.next (descriptor + 20)) := by
  induction budget generalizing index p with
  | zero => exact Meets.pure (.refl hp hbudget fun _ h => .limit h)
  | succ budget ih =>
    have hlimit : Word.limit = 0x10000000000000000 := rfl
    have hsize : image.buffer.size < 0x8000000000000000 := image.buffer.size_lt
    unfold walkThunks
    by_cases hin : lookup + index * image.kind.thunkSize + image.kind.thunkSize ≤ image.buffer.size
    · have hoffset : image.buffer.elementOffset lookup index image.kind.thunkSize =
          .ok (lookup + index * image.kind.thunkSize) :=
        image.buffer.elementOffset_eq_ok_iff.mpr ⟨by omega, rfl⟩
      refine Meets.liftM_defect_bind_of_eq hoffset
        (.liftM_defect_bind_of_eq ((Thunk.read_eq ..).trans (if_pos hin)) ?_)
      generalize hvalue : image.buffer.number (lookup + index * image.kind.thunkSize)
        image.kind.thunkSize = value
      by_cases hzero : value = 0
      · subst hzero
        exact .pure (.refl hp hbudget fun _ h => .last hin hvalue h)
      · obtain ⟨name, hthunk, hname⟩ : ∃ name, thunkName image settings
            (Thunk.ofValue image.kind (UInt64.ofNat value)) = some name ∧
              name.toOption = image.importName? settings value :=
          thunkName_ofValue (hvalue ▸ image.buffer.number_thunk_lt image.kind _) hzero
        rw [hthunk]
        exact thunk_follows hp hbudget hin hvalue hzero hname fun p₁ hp₁ h => ih hp₁ h
    · -- the file ends inside the table, whichever reading tells
      have hcut : Reaches image settings p p (.thunk descriptor moduleName lookup index)
          (budget + 1) [none] (.next (descriptor + 20)) :=
        .refl hp hbudget fun _ h => .cut (Nat.lt_of_not_le hin) h
      refine Meets.liftM_defect_bind (fun offset hoffset => ?_) fun _ _ _ _ => hcut
      refine .liftM_defect_bind (fun thunk hthunk => ?_) fun _ _ _ _ => hcut
      obtain ⟨-, rfl⟩ := image.buffer.elementOffset_eq_ok_iff.mp hoffset
      rw [Thunk.read_eq, if_neg hin] at hthunk
      cases hthunk

/-- The imports from one module. -/
theorem walkDescriptor_follows {offset : Nat} (hp : p.Recorded)
    (hbudget : p.importsWalked + n = settings.maxImports.toNat)
    (hin : offset + 20 ≤ image.buffer.size) (hne : image.buffer.number offset 4 ≠ 0) :
    Follows image settings (walkDescriptor image settings (.ofBuffer image.buffer offset)) p p
      (.descriptor offset) n (.next (offset + 20)) := by
  have hword := image.buffer.toNat_number_four
  have hpassed : (∀ moduleName lookup,
      ¬ image.EntersModule settings offset moduleName lookup) →
      Reaches image settings p p (.descriptor offset) n [none] (.next (offset + 20)) :=
    fun hnone => .refl hp hbudget fun _ h => .passed hin hne hnone h
  have hleft : settings.maxImports.toNat - p.importsWalked = n := by omega
  unfold walkDescriptor
  refine Meets.liftM_bind (fun moduleName hmodule => ?_) fun cause hcause _ _ => hpassed ?_
  · rw [readModuleName_eq_ok_iff, ImportDescriptor.ofBuffer, hword] at hmodule
    refine .liftM_bind (fun lookup hlookup => .get_bind ?_) fun cause hcause _ _ => hpassed ?_
    · rw [ImportDescriptor.ofBuffer, hword] at hlookup
      dsimp only
      rw [hleft]
      have hthunks := (walkThunks_follows offset moduleName lookup hp hbudget).after (.refl hp)
        fun rest h => .entered hin hne ⟨hmodule, hlookup⟩ h
      exact hthunks.bind fun _ _ h => .note (h.note rfl)
    · rintro moduleName' lookup' ⟨-, hlookup⟩
      rw [ImportDescriptor.ofBuffer, hword, hlookup] at hcause
      cases hcause
  · rintro moduleName' lookup' ⟨hmodule, -⟩
    have hread : readModuleName image settings
        (ImportDescriptor.ofBuffer image.buffer offset).nameRva = .ok moduleName' := by
      rw [readModuleName_eq_ok_iff, ImportDescriptor.ofBuffer, hword]
      exact hmodule
    rw [hread] at hcause
    cases hcause

variable (image settings p q) in
/-- While a walk goes from `p` to `q`, a reader at the cursor `c` that may take `n` thunks comes to the
end. The walk has yet to deal with the items `pending`. -/
def Finishes (c : ImportCursor) (n : Nat) (pending : List (Option Symbol)) : Prop :=
  ∃ items, p.Absorbs items q ∧ image.Declares settings c n (items ++ pending)

/-- An event that inserts nothing comes behind the end. -/
theorem Finishes.note (h : Finishes image settings p q c n pending) {e : Event}
    (he : e.insertion? = none) : Finishes image settings p (q.note e) c n pending := by
  obtain ⟨items, habsorbs, hdeclares⟩ := h
  exact ⟨items, habsorbs.note he, hdeclares⟩

/-- What cannot be read at the end is passed over. -/
theorem Finishes.pass (h : Finishes image settings p q c n [none]) (entry : Entry) (cause : Defect) :
    Finishes image settings p (q.pass entry cause) c n [] := by
  obtain ⟨items, habsorbs, hdeclares⟩ := h
  refine ⟨items ++ [none], habsorbs.pass entry cause nofun, ?_⟩
  rwa [List.append_nil]

/-- At the limit there is no other descriptor. -/
theorem Reaches.stop {offset : Nat} (h : Reaches image settings p q c n [] (.next offset))
    (hlimit : settings.maxImports.toNat ≤ q.importsWalked) :
    Finishes image settings p q c n [] := by
  obtain ⟨items, left, habsorbs, hleft, hrest⟩ := h
  obtain rfl : left = 0 := by omega
  exact ⟨items, habsorbs, hrest [] .stop⟩

/-- Below the limit the next descriptor follows. -/
theorem Reaches.more {offset : Nat} (h : Reaches image settings p q c n [] (.next offset))
    (hlimit : ¬ settings.maxImports.toNat ≤ q.importsWalked) :
    q.Recorded ∧ ∃ left, q.importsWalked + left = settings.maxImports.toNat ∧
      ∀ r pending, Finishes image settings q r (.descriptor offset) left pending →
        Finishes image settings p r c n pending := by
  obtain ⟨items, left, habsorbs, hleft, hrest⟩ := h
  obtain ⟨left, rfl⟩ := Nat.exists_eq_succ_of_ne_zero (show left ≠ 0 by omega)
  refine ⟨habsorbs.recorded, left + 1, hleft, ?_⟩
  rintro r pending ⟨items', habsorbs', hdeclares⟩
  refine ⟨items ++ items', habsorbs.trans habsorbs', ?_⟩
  rw [List.append_assoc]
  exact hrest _ (.more hdeclares)

/-- One step: what comes behind a descriptor, resolved or not. -/
theorem nextDescriptor_meets {room offset : Nat} (modules : Nat)
    (hin : offset + 20 ≤ image.buffer.size)
    (h : Reaches image settings p q (.descriptor offset) n [] (.next (offset + 20)))
    (hrest : ∀ modules left, q.Recorded → q.importsWalked + left = settings.maxImports.toNat →
      (walkDescriptors image settings room (offset + 20) modules).Meets q
        (fun _ r => Finishes image settings q r (.descriptor (offset + 20)) left [])
        (OnPass settings.unresolved fun r =>
          Finishes image settings q r (.descriptor (offset + 20)) left [none])) :
    Meets (do
        let modules ← ofExcept (Word.add modules 1)
        if settings.maxImports.toNat ≤ (← get).importsWalked then
          note (.importLimitReached settings.maxImports)
          return modules
        else
          match Word.add? offset ImportDescriptor.recordSize with
          | some next => walkDescriptors image settings room next modules
          | none => throw (.defect (.outOfBounds offset image.buffer.size))) q
      (fun _ r => Finishes image settings p r (.descriptor offset) n [])
      (OnPass settings.unresolved fun r =>
        Finishes image settings p r (.descriptor offset) n [none]) := by
  have hsize : image.buffer.size < 0x8000000000000000 := image.buffer.size_lt
  have hword : Word.limit = 0x10000000000000000 := rfl
  have hnext : Word.add? offset ImportDescriptor.recordSize = some (offset + 20) :=
    Word.add?_eq_some_iff.mpr ⟨show offset + 20 < Word.limit by omega, rfl⟩
  refine .ofExcept_bind (fun count _ => .get_bind ?_) fun _ h => absurd h Word.add_ne_defect
  by_cases hlimit : settings.maxImports.toNat ≤ q.importsWalked
  · rw [if_pos hlimit]
    exact .note_bind (.pure ((h.stop hlimit).note rfl))
  · rw [if_neg hlimit, hnext]
    obtain ⟨hrecorded, left, hleft, hfinish⟩ := h.more hlimit
    exact (hrest count left hrecorded hleft).mono (fun _ r h => hfinish r [] h)
      fun _ r h => h.mono (hfinish r [none])

/-- The run: all descriptors. -/
theorem walkDescriptors_meets {room offset : Nat} (modules : Nat)
    (hroom : room = (image.buffer.size - offset) / 20) (hp : p.Recorded)
    (hbudget : p.importsWalked + n = settings.maxImports.toNat) :
    (walkDescriptors image settings room offset modules).Meets p
      (fun _ q => Finishes image settings p q (.descriptor offset) n [])
      (OnPass settings.unresolved fun q =>
        Finishes image settings p q (.descriptor offset) n [none]) := by
  induction room generalizing offset modules n p with
  | zero => exact .throw fun _ _ => ⟨[], .refl hp, .outside (by omega)⟩
  | succ room ih =>
    have hin : offset + 20 ≤ image.buffer.size := by omega
    have hend : (ImportDescriptor.ofBuffer image.buffer offset).isTerminator = true ↔
        image.buffer.number offset 4 = 0 :=
      beq_iff_eq.trans (image.buffer.ofNat_number_four_eq_zero_iff offset)
    unfold walkDescriptors
    refine .liftM_defect_bind_of_eq ((ImportDescriptor.read_eq ..).trans (if_pos hin)) ?_
    by_cases hzero : image.buffer.number offset 4 = 0
    · rw [if_pos (hend.mpr hzero)]
      exact .pure ⟨[], .refl hp, .terminator hin hzero⟩
    · rw [if_neg (mt hend.mp hzero)]
      have hnext : room = (image.buffer.size - (offset + 20)) / 20 := by omega
      refine .recover_bind ((walkDescriptor_follows hp hbudget hin hzero).mono
        (fun _ q h => ?_) fun _ q h => h.mono fun h cause => ?_)
      · exact nextDescriptor_meets modules hin h fun count _ => ih count hnext
      · exact nextDescriptor_meets modules hin (h.pass .importDescriptor cause)
          fun count _ => ih count hnext

/-- The imports of a directory. -/
theorem walkImports_meets (rva : UInt32) (hp : p.Recorded)
    (hbudget : p.importsWalked + n = settings.maxImports.toNat) :
    (walkImports image settings rva).Meets p
      (fun _ q => Finishes image settings p q (.directory rva.toNat) n [])
      (OnPass settings.unresolved fun q =>
        Finishes image settings p q (.directory rva.toNat) n [none]) := by
  unfold walkImports
  refine .liftM_bind (fun offset hoffset => ?_) fun cause hcause _ _ => ?_
  · have hresolved : ∀ q pending, Finishes image settings p q (.descriptor offset) n pending →
        Finishes image settings p q (.directory rva.toNat) n pending :=
      fun q pending ⟨items, habsorbs, h⟩ => ⟨items, habsorbs, .resolved hoffset h⟩
    refine ((walkDescriptors_meets 0 rfl hp hbudget).mono (fun _ q h => hresolved q [] h)
      fun _ q h => h.mono (hresolved q [none])).bind fun modules q h => .get_bind (.note ?_)
    exact h.note rfl
  · refine ⟨[], .refl hp, .unresolved fun offset hoffset => ?_⟩
    rw [hoffset] at hcause
    cases hcause

end Walk

/-! ### The imports of an image -/

/-- Only the imports meet imported functions. -/
theorem Move.importsWalked_eq {phase : Phase} {p q : Progress} (h : Move phase p q)
    (hphase : phase = .exports) : q.importsWalked = p.importsWalked := by
  cases h with
  | counted => cases hphase
  | _ => rfl

/-- The exports meet no imported functions. -/
theorem Moves.importsWalked_eq {p q : Progress} (h : Moves .exports p q) :
    q.importsWalked = p.importsWalked := by
  induction h with
  | refl => rfl
  | tail _ hmove ih => rw [hmove.importsWalked_eq rfl, ih]

/-- After the exports the addresses taken are those of the exports. -/
theorem Moves.addresses_eq {p : Progress} (h : Moves .exports .start p) :
    p.addresses = (p.insertedIn .exports).map Symbol.address := by
  have hexports : ∀ x ∈ p.inserted, x.1 = .exports :=
    Moves.inserted_exports h fun x hx => absurd hx List.not_mem_nil
  have hall : p.insertedIn .exports = p.inserted.map Prod.snd := by
    rw [p.insertedIn_eq_filterMap, ← List.filterMap_eq_map]
    refine List.filterMap_congr fun x hx => ?_
    rw [if_pos (hexports x hx)]
    rfl
  rw [hall, List.map_map]
  rfl

/-- Where the imports are walked to an end, the walk has dealt with all that they declare. -/
theorem Image.exists_absorbs {image : Image} {settings : SymbolSettings} {mid last : Progress}
    (hpresent : (image.directory Image.importSlot).virtualAddress ≠ 0)
    (hmoves : Moves .exports .start mid)
    (h : (Walk.importPhase image settings).after mid = (.ok (), last)) :
    ∃ items, mid.Absorbs items last ∧
      image.Declares settings image.importCursor settings.maxImports.toNat items := by
  have hbudget : mid.importsWalked + settings.maxImports.toNat = settings.maxImports.toNat := by
    rw [Moves.importsWalked_eq hmoves]
    exact Nat.zero_add _
  have hmid : mid.Recorded := Moves.recorded hmoves Progress.recorded_start
  have hphase : (Walk.importPhase image settings).Meets mid (fun _ q =>
      Walk.Finishes image settings mid q image.importCursor settings.maxImports.toNat [])
      (Walk.OnPass settings.unresolved fun _ => True) := by
    unfold Walk.importPhase Walk.walkDirectory
    rw [if_pos (DataDirectory.isPresent_iff.mpr hpresent)]
    exact .recover_bind ((Walk.walkImports_meets _ hmid hbudget).mono (fun _ q hq => .pure hq)
      fun _ q hq => hq.mono fun hq cause => .pure (hq.pass .importDirectory cause))
  obtain ⟨items, habsorbs, hdeclares⟩ := hphase.of_ok h
  rw [List.append_nil] at hdeclares
  exact ⟨items, habsorbs, hdeclares⟩

/-- The imports of a table are the items that were met at free addresses. -/
theorem Image.Phases.insertedIn_imports_eq {image : Image} {settings : SymbolSettings}
    {table : SymbolTable} {mid last : Progress} {items : List (Option Symbol)}
    (h : image.Phases settings table mid last) (habsorbs : mid.Absorbs items last) :
    (image.buildSymbols settings).insertedIn .imports =
      admitted (((image.buildSymbols settings).insertedIn .exports).map Symbol.address) items := by
  rw [h.insertedIn_exports, h.insertedIn_eq, habsorbs.inserted, h.insertedIn_imports_eq_nil,
    Moves.addresses_eq h.exports_moves, List.nil_append]

/-- Every item that was met is a symbol of the imports or an entry that they passed over. -/
theorem Image.Phases.length_eq {image : Image} {settings : SymbolSettings} {table : SymbolTable}
    {mid last : Progress} {items : List (Option Symbol)}
    (h : image.Phases settings table mid last) (habsorbs : mid.Absorbs items last) :
    items.length = ((image.buildSymbols settings).insertedIn .imports).length +
      ((image.buildSymbols settings).passedIn .imports).length := by
  have hmet := habsorbs.skipped
  have hpassed := Moves.skipped_add_length h.imports_moves
  rw [h.passedIn_imports_eq_nil, List.length_nil] at hpassed
  rw [h.insertedIn_eq, h.passedIn_eq, habsorbs.inserted, h.insertedIn_imports_eq_nil,
    List.nil_append]
  omega

/-- **Imports are what the file declares.** Where an image has imports and there is a table, the
symbols that the imports inserted are, in order, those that a reader meets at free addresses. The
reader takes as many thunks as the settings allow, and each item that it meets besides is an entry
passed over. The table is the stable sort of what was inserted, exports before imports, and it counts
what was passed over. Where every defect ends the walk there is nothing besides, and the symbols are
the first ones that any reader meets who may take more thunks. -/
theorem Image.imports_declared {image : Image} {settings : SymbolSettings} {table : SymbolTable}
    (hpresent : (image.directory Image.importSlot).virtualAddress ≠ 0)
    (h : (image.buildSymbols settings).outcome = .ok table) :
    ∃ items : List (Option Symbol),
      (∀ other, image.Declares settings image.importCursor settings.maxImports.toNat other ↔
        other = items) ∧
      (image.buildSymbols settings).insertedIn .imports =
        admitted (((image.buildSymbols settings).insertedIn .exports).map Symbol.address) items ∧
      items.length = ((image.buildSymbols settings).insertedIn .imports).length +
        ((image.buildSymbols settings).passedIn .imports).length ∧
      table.skipped = ((image.buildSymbols settings).passedIn .exports).length +
        ((image.buildSymbols settings).passedIn .imports).length ∧
      table.toList = stableSort ((image.buildSymbols settings).insertedIn .exports ++
        (image.buildSymbols settings).insertedIn .imports) ∧
      (settings.unresolved = .abort →
        items = ((image.buildSymbols settings).insertedIn .imports).map some ∧
        ∀ m, settings.maxImports.toNat ≤ m → ∃ stream,
          image.Declares settings image.importCursor m stream ∧
            items = stream.take settings.maxImports.toNat) := by
  obtain ⟨mid, last, hphases⟩ := exists_phases h
  obtain ⟨items, habsorbs, hdeclares⟩ :=
    exists_absorbs hpresent hphases.exports_moves hphases.importPhase_after
  have hinserted := hphases.insertedIn_imports_eq habsorbs
  have hlength := hphases.length_eq habsorbs
  have hskipped := hphases.skipped_eq
  refine ⟨items, fun other => ⟨fun h' => h'.unique hdeclares, fun h' => h' ▸ hdeclares⟩, hinserted,
    hlength, hskipped, hphases.toList_eq, fun habort => ?_⟩
  have hstrict : (image.buildSymbols { settings with unresolved := .abort }).outcome =
      .ok table := by
    rw [← habort]
    exact h
  have hzero : table.skipped = 0 := (outcome_skip_of_abort hstrict).2
  have hall : items = ((image.buildSymbols settings).insertedIn .imports).map some := by
    have hle : items.length ≤ ((image.buildSymbols settings).insertedIn .imports).length := by omega
    rw [hinserted] at hle ⊢
    exact eq_map_some_of_length_le hle
  have hsome : ∀ item ∈ items, item.isSome = true := by
    intro item hitem
    rw [hall] at hitem
    obtain ⟨s, -, rfl⟩ := List.mem_map.mp hitem
    rfl
  refine ⟨hall, fun m hle => ?_⟩
  obtain ⟨stream, hstream⟩ := image.exists_declares settings m
  exact ⟨stream, hstream, hdeclares.eq_take hsome hstream hle⟩

/-- The file with both directories declares an import by number and one by name. -/
theorem Image.imports_declared_sample :
    ∃ image table, Image.read Sample.linkedBuffer = .ok image ∧
      (image.buildSymbols {}).outcome = .ok table ∧
      (image.buildSymbols {}).insertedIn .imports = [⟨0x2000, "k", "#7"⟩, ⟨0x2004, "k", "c"⟩] ∧
      image.Declares {} image.importCursor ({} : SymbolSettings).maxImports.toNat
        [some ⟨0x2000, "k", "#7"⟩, some ⟨0x2004, "k", "c"⟩] := by
  obtain ⟨image, table, hread, houtcome, -, hpresent, -, himports⟩ := Sample.exists_linked
  obtain ⟨items, hdeclares, -, -, -, -, hall⟩ := imports_declared hpresent houtcome
  refine ⟨image, table, hread, houtcome, himports, (hdeclares _).mpr ?_⟩
  rw [(hall rfl).1, himports]
  rfl

end PeListing
