import PeListing.Proofs.ExactReads
import PeListing.Proofs.WalkResults

/-!
# Exports and their names

The exports of an image are given by three tables: the addresses of the functions, the addresses of
names, and for each name the function that it belongs to. The tables need not agree. A function may
have several names or none, and a name may belong to no function. `ExportLayout` says where the
tables stand and what their words are, and `ExportLayout.Named` which name a function has: the first
that belongs to it, or its ordinal where there is none.

The walk fills in names one after another and leaves a function alone that has a name. What it keeps
after the first `n` names is `ExportLayout.Paired`: a function that has a name by then has the first
of those `n` that belong to it, and to any other function none of them belongs. With all names filled
in, the exports are inserted in the order of their addresses' table (`Image.exports_paired`).
-/

namespace PeListing

/-- Where the exports of an image stand in its buffer: the record that heads them and the tables that
it points to. -/
structure ExportLayout where
  /-- The record. -/
  directory : Nat
  /-- The table of the functions' addresses. -/
  functions : Nat
  /-- The table of the names' addresses. -/
  names : Nat
  /-- The table that gives each name its function. -/
  ordinals : Nat

namespace ExportLayout

section Words

variable (t : ExportLayout) (b : Buffer) (settings : SymbolSettings)

/-- The address of the file name of the module. -/
def nameRva : Nat := b.number (t.directory + 12) 4

/-- The ordinal of the first function. -/
def ordinalBase : Nat := b.number (t.directory + 16) 4

/-- The number of functions that are walked. -/
def functionCount : Nat := min (b.number (t.directory + 20) 4) settings.maxExports.toNat

/-- The number of names that are walked. -/
def nameCount : Nat := min (b.number (t.directory + 24) 4) settings.maxExports.toNat

/-- The address of a function. -/
def address (k : Nat) : Nat := b.number (t.functions + k * 4) 4

/-- The address of a name. -/
def namePointer (i : Nat) : Nat := b.number (t.names + i * 4) 4

/-- The function that a name belongs to. -/
def ordinal (i : Nat) : Nat := b.number (t.ordinals + i * 2) 2

end Words

variable (t : ExportLayout) (image : Image) (settings : SymbolSettings)

/-- What the first `n` names make of the `k`-th function: it has the first of them that belongs to
it, or no name if none does. -/
def NamedAmong (n k : Nat) : Option String → Prop
  | some name => ∃ i < n, t.ordinal image.buffer i = k ∧ (∀ j < i, t.ordinal image.buffer j ≠ k) ∧
      t.names + i * 4 + 4 ≤ image.buffer.size ∧
      image.nameAt (t.namePointer image.buffer i) settings.maxNameLength.toNat = .ok name
  | none => ∀ i < n, t.ordinal image.buffer i ≠ k

/-- The name of the `k`-th function. -/
def Named (k : Nat) (name : String) : Prop :=
  t.NamedAmong image settings (t.nameCount image.buffer settings) k (some name) ∨
    t.NamedAmong image settings (t.nameCount image.buffer settings) k none ∧
      name = "#" ++ toString ((t.ordinalBase image.buffer + k) % 0x100000000)

/-- The tables are those that the record points to. They lie inside the buffer as far as they are
walked, and the functions have the given names. -/
structure HasTables (nameOf : Nat → String) : Prop where
  resolve_functions : image.resolve (image.buffer.number (t.directory + 28) 4) = .ok t.functions
  functions_le : ∀ k < t.functionCount image.buffer settings,
    t.functions + k * 4 + 4 ≤ image.buffer.size
  resolve_names : t.nameCount image.buffer settings ≠ 0 →
    image.resolve (image.buffer.number (t.directory + 32) 4) = .ok t.names
  resolve_ordinals : t.nameCount image.buffer settings ≠ 0 →
    image.resolve (image.buffer.number (t.directory + 36) 4) = .ok t.ordinals
  ordinals_le : ∀ i < t.nameCount image.buffer settings,
    t.ordinals + i * 2 + 2 ≤ image.buffer.size
  named : ∀ k < t.functionCount image.buffer settings, t.Named image settings k (nameOf k)

/-- The record is that of an image. It lies inside the buffer, and the module and the functions have
the given names. Where there are no functions, the tables are not looked at. -/
structure Describes (moduleName : String) (nameOf : Nat → String) : Prop where
  resolve_directory :
    image.resolve (image.directory Image.exportSlot).virtualAddress.toNat = .ok t.directory
  directory_le : t.directory + 40 ≤ image.buffer.size
  stem : ∃ fileName,
    image.nameAt (t.nameRva image.buffer) settings.maxNameLength.toNat = .ok fileName ∧
      IsStemOf moduleName fileName
  tables : t.functionCount image.buffer settings ≠ 0 → t.HasTables image settings nameOf

/-- The symbols of the functions from the `start`-th on: every function with an address has one. -/
def functionSymbols (moduleName : String) (nameOf : Nat → String) (start count : Nat) :
    List Symbol :=
  ((List.range' start count).filter fun k => t.address image.buffer k ≠ 0).map fun k =>
    ⟨UInt64.ofNat (t.address image.buffer k), moduleName, nameOf k⟩

/-- The first function comes before the others if it has an address. -/
theorem functionSymbols_succ (moduleName : String) (nameOf : Nat → String) (start count : Nat) :
    t.functionSymbols image moduleName nameOf start (count + 1) =
      (if t.address image.buffer start = 0 then []
        else [⟨UInt64.ofNat (t.address image.buffer start), moduleName, nameOf start⟩]) ++
      t.functionSymbols image moduleName nameOf (start + 1) count := by
  unfold functionSymbols
  rw [List.range'_succ, List.filter_cons]
  by_cases haddress : t.address image.buffer start = 0
  · simp [haddress]
  · simp [haddress]

/-! ### Pairing names with functions -/

variable {t image settings}

/-- A name more leaves a function alone that has one, or that the name does not belong to. -/
theorem NamedAmong.succ {n k : Nat} {name? : Option String}
    (h : t.NamedAmong image settings n k name?)
    (hn : name? = none → t.ordinal image.buffer n ≠ k) :
    t.NamedAmong image settings (n + 1) k name? := by
  cases name? with
  | some name =>
    obtain ⟨i, hi, hrest⟩ := h
    exact ⟨i, Nat.lt_succ_of_lt hi, hrest⟩
  | none =>
    intro i hi
    rcases Nat.lt_succ_iff_lt_or_eq.mp hi with hlt | rfl
    · exact h i hlt
    · exact hn rfl

variable (t image settings) in
/-- The names that the functions have once the first `n` names are paired. -/
structure Paired (n : Nat) (names : Array (Option String)) : Prop where
  size_eq : names.size = t.functionCount image.buffer settings
  named : ∀ k name?, names[k]? = some name? → t.NamedAmong image settings n k name?

/-- Before any name is paired, no function has one. -/
theorem Paired.replicate :
    t.Paired image settings 0 (Array.replicate (t.functionCount image.buffer settings) none) := by
  refine ⟨Array.size_replicate, fun k name? h => ?_⟩
  rw [Array.getElem?_replicate, Option.ite_none_right_eq_some, Option.some_inj] at h
  obtain ⟨-, rfl⟩ := h
  exact fun i hi => absurd hi (Nat.not_lt_zero i)

/-- A name that belongs to no function without a name changes nothing. -/
theorem Paired.succ {n : Nat} {names : Array (Option String)} (h : t.Paired image settings n names)
    (hn : names[t.ordinal image.buffer n]? ≠ some none) : t.Paired image settings (n + 1) names := by
  refine ⟨h.size_eq, fun k name? hk => (h.named k name? hk).succ ?_⟩
  rintro rfl rfl
  exact hn hk

/-- A name goes to its function if that has none. -/
theorem Paired.set {n : Nat} {names : Array (Option String)} (h : t.Paired image settings n names)
    {name : String} (hfree : names[t.ordinal image.buffer n]? = some none)
    (hle : t.names + n * 4 + 4 ≤ image.buffer.size)
    (hname : image.nameAt (t.namePointer image.buffer n) settings.maxNameLength.toNat = .ok name)
    (hlt : t.ordinal image.buffer n < names.size) :
    t.Paired image settings (n + 1) (names.set (t.ordinal image.buffer n) (some name) hlt) := by
  refine ⟨by rw [Array.size_set, h.size_eq], fun k name? hk => ?_⟩
  rw [Array.getElem?_set] at hk
  by_cases heq : t.ordinal image.buffer n = k
  · rw [if_pos heq, Option.some_inj] at hk
    subst hk
    have hnone : ∀ i < n, t.ordinal image.buffer i ≠ k := h.named k none (heq ▸ hfree)
    exact ⟨n, Nat.lt_succ_self n, heq, hnone, hle, hname⟩
  · rw [if_neg heq] at hk
    exact (h.named k name? hk).succ fun _ => heq

variable (t image) in
/-- The name of a function when all names are paired. -/
def pairedName (names : Array (Option String)) (k : Nat) : String :=
  names[k]?.join.getD (Symbol.ordinalName ((t.ordinalBase image.buffer + k) % 0x100000000))

/-- With all names paired, every function has its name. -/
theorem Paired.named_pairedName {names : Array (Option String)}
    (h : t.Paired image settings (t.nameCount image.buffer settings) names) {k : Nat}
    (hk : k < t.functionCount image.buffer settings) :
    t.Named image settings k (t.pairedName image names k) := by
  unfold pairedName
  rcases hname : names[k]? with _ | _ | name
  · have hsize : names.size ≤ k := Array.getElem?_eq_none_iff.mp hname
    rw [h.size_eq] at hsize
    omega
  · exact .inr ⟨h.named k none hname, rfl⟩
  · exact .inl (h.named k (some name) hname)

end ExportLayout

namespace Walk

open ExportLayout

variable {t : ExportLayout} {image : Image} {settings : SymbolSettings} {p : Progress}

/-- One step: another name is paired with its function. -/
theorem pairName_meets (habort : settings.unresolved = .abort) {n : Nat}
    {names : Array (Option String)} (h : t.Paired image settings n names) :
    (pairName image settings t.names t.ordinals n names).Meets p
      (fun names q => t.Paired image settings (n + 1) names ∧
        t.ordinals + n * 2 + 2 ≤ image.buffer.size ∧
        q.insertedIn .exports = p.insertedIn .exports)
      fun _ _ => True := by
  unfold pairName
  refine .recover_abort_bind habort (.liftM_defect (fun ordinal hread => ?_) fun _ _ => trivial)
  obtain ⟨hordinals, rfl⟩ := image.buffer.tableU16_eq_ok_iff.mp hread
  have hnat : (UInt16.ofNat (image.buffer.number (t.ordinals + n * 2) 2)).toNat =
      t.ordinal image.buffer n := image.buffer.toNat_number_two _
  dsimp only
  rw [hnat]
  rcases hslot : names[t.ordinal image.buffer n]? with _ | _ | taken
  · -- no function has that number
    refine .note_bind (.pure ⟨h.succ (by simp [hslot]), hordinals, ?_⟩)
    exact p.insertedIn_note rfl .exports
  · refine .recover_abort_bind habort (.liftM_defect_bind (fun rva hrva => ?_) fun _ _ => trivial)
    obtain ⟨hnames, rfl⟩ := image.buffer.tableU32_eq_ok_iff.mp hrva
    refine .liftM (fun name hname => ?_) fun _ _ => trivial
    rw [readName, image.buffer.toNat_number_four] at hname
    obtain ⟨hlt, -⟩ := Array.getElem?_eq_some_iff.mp hslot
    dsimp only
    rw [Select.replace_of_lt hlt]
    exact .pure ⟨h.set hslot hnames hname hlt, hordinals, rfl⟩
  · exact .pure ⟨h.succ (by simp [hslot]), hordinals, rfl⟩

/-- The run: `count` names are paired with their functions. -/
theorem pairNames_meets (habort : settings.unresolved = .abort) (count : Nat) {n : Nat}
    {names : Array (Option String)} (h : t.Paired image settings n names) :
    (pairNames image settings t.names t.ordinals count n names).Meets p
      (fun names q => t.Paired image settings (n + count) names ∧
        (∀ i ∈ List.range' n count, t.ordinals + i * 2 + 2 ≤ image.buffer.size) ∧
        q.insertedIn .exports = p.insertedIn .exports)
      fun _ _ => True := by
  induction count generalizing n names p with
  | zero => exact .pure ⟨h, fun i hi => absurd hi List.not_mem_nil, rfl⟩
  | succ count ih =>
    unfold pairNames
    apply (pairName_meets habort h).bind
    rintro names q ⟨hpaired, hle, hinserted⟩
    apply (ih hpaired).imp
    rintro names r ⟨hdone, hrest, hsame⟩
    rw [Nat.add_assoc, Nat.add_comm 1] at hdone
    exact ⟨hdone, List.forall_mem_cons.mpr ⟨hle, hrest⟩, hsame.trans hinserted⟩

/-- The names of all functions, wherever the addresses of the functions stand. -/
theorem exportNames_meets (habort : settings.unresolved = .abort) (offset : Nat) :
    (exportNames image settings (.ofBuffer image.buffer offset)
      (min (image.buffer.number (offset + 20) 4) settings.maxExports.toNat)
      (min (image.buffer.number (offset + 24) 4) settings.maxExports.toNat)).Meets p
      (fun names q => q.insertedIn .exports = p.insertedIn .exports ∧
        ∀ functions, ∃ t : ExportLayout, t.directory = offset ∧ t.functions = functions ∧
          (t.nameCount image.buffer settings ≠ 0 →
            image.resolve (image.buffer.number (t.directory + 32) 4) = .ok t.names ∧
            image.resolve (image.buffer.number (t.directory + 36) 4) = .ok t.ordinals) ∧
          (∀ i < t.nameCount image.buffer settings,
            t.ordinals + i * 2 + 2 ≤ image.buffer.size) ∧
          t.Paired image settings (t.nameCount image.buffer settings) names)
      fun _ _ => True := by
  unfold exportNames
  by_cases hzero : min (image.buffer.number (offset + 24) 4) settings.maxExports.toNat = 0
  · rw [if_pos hzero]
    refine .pure ⟨rfl, fun functions => ⟨⟨offset, functions, 0, 0⟩, rfl, rfl, absurd hzero, ?_, ?_⟩⟩
    · intro i hi
      exact absurd (Nat.lt_of_lt_of_eq hi hzero) (Nat.not_lt_zero i)
    · unfold nameCount
      rw [hzero]
      exact .replicate
  · rw [if_neg hzero]
    refine .liftM_bind (fun names hnames => ?_) fun _ _ => trivial
    refine .liftM_bind (fun ordinals hordinals => ?_) fun _ _ => trivial
    rw [ExportDirectory.ofBuffer, image.buffer.toNat_number_four] at hnames hordinals
    have hpaired : Paired ⟨offset, 0, names, ordinals⟩ image settings 0 _ := .replicate
    apply (pairNames_meets habort _ hpaired).imp
    rintro all q ⟨hdone, hle, hsame⟩
    rw [Nat.zero_add] at hdone
    rw [← List.range_eq_range'] at hle
    refine ⟨hsame, fun functions => ⟨⟨offset, functions, names, ordinals⟩, rfl, rfl, ?_, ?_, ?_⟩⟩
    · exact fun _ => ⟨hnames, hordinals⟩
    · exact fun i hi => hle i (List.mem_range.mpr hi)
    · exact ⟨hdone.size_eq, hdone.named⟩

/-- The functions are inserted in the order of their addresses' table. -/
theorem insertExports_meets (habort : settings.unresolved = .abort) {directory : ExportDirectory}
    (hbase : directory.ordinalBase.toNat = t.ordinalBase image.buffer) (moduleName : String)
    (nameOf : Nat → String) (names : List (Option String)) {start : Nat} (inserted : Nat)
    (hnames : ∀ x ∈ names.zipIdx start, nameOf x.2 =
      x.1.getD (Symbol.ordinalName ((t.ordinalBase image.buffer + x.2) % 0x100000000))) :
    (insertExports image settings directory moduleName t.functions names start inserted).Meets p
      (fun _ q => (∀ k ∈ List.range' start names.length,
          t.functions + k * 4 + 4 ≤ image.buffer.size) ∧
        q.insertedIn .exports = p.insertedIn .exports ++
          t.functionSymbols image moduleName nameOf start names.length)
      fun _ _ => True := by
  induction names generalizing start inserted p with
  | nil => exact .pure ⟨fun k hk => absurd hk List.not_mem_nil, (List.append_nil _).symm⟩
  | cons name? names ih =>
    rw [List.zipIdx_cons, List.forall_mem_cons] at hnames
    obtain ⟨hname, hrest⟩ := hnames
    unfold insertExports
    refine .recover_abort_bind habort (.liftM_defect (fun rva hread => ?_) fun _ _ => trivial)
    obtain ⟨hle, rfl⟩ := image.buffer.tableU32_eq_ok_iff.mp hread
    have hzero : UInt32.ofNat (image.buffer.number (t.functions + start * 4) 4) = 0 ↔
        t.address image.buffer start = 0 := image.buffer.ofNat_number_four_eq_zero_iff _
    have hordinal : (directory.ordinalBase + UInt32.ofNat start).toNat =
        (t.ordinalBase image.buffer + start) % 0x100000000 := by
      rw [UInt32.toNat_add, hbase, UInt32.toNat_ofNat', Nat.add_mod_mod]
    dsimp only
    rw [List.length_cons, t.functionSymbols_succ]
    by_cases haddress : t.address image.buffer start = 0
    · rw [if_pos (hzero.mpr haddress), if_pos haddress]
      apply (ih inserted hrest).imp
      rintro _ q ⟨hbehind, hinserted⟩
      exact ⟨List.forall_mem_cons.mpr ⟨hle, hbehind⟩, hinserted⟩
    · rw [if_neg (mt hzero.mp haddress), if_neg haddress]
      refine .insert_bind (.ofExcept_bind (fun next _ => ?_) fun _ _ => trivial)
      apply (ih next hrest).imp
      rintro _ q ⟨hbehind, hinserted⟩
      refine ⟨List.forall_mem_cons.mpr ⟨hle, hbehind⟩, ?_⟩
      rw [hinserted, p.insertedIn_insert, List.append_assoc, hname, image.buffer.toUInt64_number_four,
        hordinal]
      rfl

/-- The number of functions is cut to the limit, and nothing is inserted. -/
theorem clampExports_meets (declared : UInt32) {bad : Defect → Progress → Prop} :
    (clampExports settings declared).Meets p
      (fun count q => count.toNat = min declared.toNat settings.maxExports.toNat ∧
        q.insertedIn .exports = p.insertedIn .exports) bad := by
  unfold clampExports
  by_cases h : settings.maxExports < declared
  · rw [if_pos h]
    have hle : settings.maxExports.toNat ≤ declared.toNat := Nat.le_of_lt (UInt32.lt_iff_toNat_lt.mp h)
    exact .note_bind (.pure ⟨(Nat.min_eq_right hle).symm, p.insertedIn_note rfl .exports⟩)
  · rw [if_neg h]
    have hle : declared.toNat ≤ settings.maxExports.toNat := Nat.le_of_not_lt h
    exact .pure ⟨(Nat.min_eq_left hle).symm, rfl⟩

/-- The functions of a directory that has some. -/
theorem functions_meets (habort : settings.unresolved = .abort) (offset : Nat)
    (moduleName : String) :
    Meets (do
        let names ← exportNames image settings (.ofBuffer image.buffer offset)
          (min (image.buffer.number (offset + 20) 4) settings.maxExports.toNat)
          (min (image.buffer.number (offset + 24) 4) settings.maxExports.toNat)
        let functionsOffset ←
          image.resolve (ExportDirectory.ofBuffer image.buffer offset).functionsRva.toNat
        let inserted ← insertExports image settings (.ofBuffer image.buffer offset) moduleName
          functionsOffset names.toList 0 0
        note (.exportsWalked moduleName inserted)) p
      (fun _ q => ∃ (t : ExportLayout) (nameOf : Nat → String), t.directory = offset ∧
        t.HasTables image settings nameOf ∧
        q.insertedIn .exports = p.insertedIn .exports ++
          t.functionSymbols image moduleName nameOf 0 (t.functionCount image.buffer settings))
      fun _ _ => True := by
  apply (exportNames_meets habort offset).bind
  rintro names q ⟨hsame, hlayout⟩
  refine .liftM_bind (fun functions hfunctions => ?_) fun _ _ => trivial
  rw [ExportDirectory.ofBuffer, image.buffer.toNat_number_four] at hfunctions
  obtain ⟨t, rfl, rfl, hresolve, hordinals, hpaired⟩ := hlayout functions
  have hbase : (ExportDirectory.ofBuffer image.buffer t.directory).ordinalBase.toNat =
      t.ordinalBase image.buffer := image.buffer.toNat_number_four _
  have hnames : ∀ x ∈ names.toList.zipIdx, t.pairedName image names x.2 =
      x.1.getD (Symbol.ordinalName ((t.ordinalBase image.buffer + x.2) % 0x100000000)) := by
    intro x hx
    have hslot : names[x.2]? = some x.1 := by simpa using List.mk_mem_zipIdx_iff_getElem?.mp hx
    simp [pairedName, hslot]
  apply (insertExports_meets habort hbase moduleName _ names.toList 0 hnames).bind
  rintro inserted r ⟨hle, hinserted⟩
  rw [Array.length_toList, hpaired.size_eq] at hle hinserted
  rw [← List.range_eq_range'] at hle
  refine .note ⟨t, t.pairedName image names, rfl, ?_, ?_⟩
  · exact ⟨hfunctions, fun k hk => hle k (List.mem_range.mpr hk), fun h => (hresolve h).1,
      fun h => (hresolve h).2, hordinals, fun k hk => hpaired.named_pairedName hk⟩
  · rw [r.insertedIn_note rfl, hinserted, hsame]

/-- The walk over the exports inserts the entry point, then the functions. -/
theorem walkExports_meets (habort : settings.unresolved = .abort) :
    (walkExports image settings (image.directory Image.exportSlot).virtualAddress).Meets p
      (fun _ q => ∃ (t : ExportLayout) (moduleName : String) (nameOf : Nat → String),
        t.Describes image settings moduleName nameOf ∧
        q.insertedIn .exports = p.insertedIn .exports ++
          (⟨image.entryPoint.toUInt64, moduleName, "EntryPoint"⟩ ::
            t.functionSymbols image moduleName nameOf 0 (t.functionCount image.buffer settings)))
      fun _ _ => True := by
  have hword := image.buffer.toNat_number_four
  unfold walkExports
  refine .liftM_bind (fun offset hoffset => ?_) fun _ _ => trivial
  refine .liftM_defect_bind (fun directory hdirectory => ?_) fun _ _ => trivial
  rw [ExportDirectory.read_eq] at hdirectory
  by_cases hle : offset + 40 ≤ image.buffer.size
  · rw [if_pos hle] at hdirectory
    cases hdirectory
    refine .liftM_bind (fun moduleName hmodule => ?_) fun _ _ => trivial
    rw [readModuleName_eq_ok_iff, ExportDirectory.ofBuffer, hword] at hmodule
    apply Meets.insert_bind
    apply (clampExports_meets _).bind
    rintro count q ⟨hcount, hsame⟩
    rw [p.insertedIn_insert] at hsame
    rw [ExportDirectory.ofBuffer, hword] at hcount
    by_cases hzero : count = 0
    · rw [if_pos hzero]
      rw [hzero] at hcount
      refine .note ⟨⟨offset, 0, 0, 0⟩, moduleName, fun _ => "",
        ⟨hoffset, hle, hmodule, absurd hcount.symm⟩, ?_⟩
      rw [q.insertedIn_note rfl, hsame, functionCount, ← hcount]
      rfl
    · have hnames : (ExportDirectory.ofBuffer image.buffer offset).nameCount.toNat =
        image.buffer.number (offset + 24) 4 := hword _
      rw [if_neg hzero, hcount, hnames]
      apply (functions_meets habort offset moduleName).imp
      rintro _ r ⟨t, nameOf, rfl, htables, hinserted⟩
      refine ⟨t, moduleName, nameOf, ⟨hoffset, hle, hmodule, fun _ => htables⟩, ?_⟩
      rw [hinserted, hsame, List.append_assoc]
      rfl
  · rw [if_neg hle] at hdirectory
    cases hdirectory

end Walk

/-- Where the names stand in the order of the functions, each function has the name in its place. -/
theorem ExportLayout.HasTables.nameAt_of_identity {t : ExportLayout} {image : Image}
    {settings : SymbolSettings} {nameOf : Nat → String} (h : t.HasTables image settings nameOf)
    (hcount : t.functionCount image.buffer settings ≤ t.nameCount image.buffer settings)
    (hidentity : ∀ i < t.functionCount image.buffer settings, t.ordinal image.buffer i = i) {k : Nat}
    (hk : k < t.functionCount image.buffer settings) :
    image.nameAt (t.namePointer image.buffer k) settings.maxNameLength.toNat = .ok (nameOf k) := by
  rcases h.named k hk with ⟨i, -, hordinal, hfirst, -, hname⟩ | ⟨hnone, -⟩
  · have hik : i = k := by
      rcases Nat.lt_or_ge k i with hlt | hle
      · exact absurd (hidentity k hk) (hfirst k hlt)
      · exact (hidentity i (Nat.lt_of_le_of_lt hle hk)).symm.trans hordinal
    rwa [hik] at hname
  · exact absurd (hidentity k hk) (hnone k (Nat.lt_of_lt_of_le hk hcount))

/-- An image with exports inserts the entry point, then the functions that its tables describe. -/
theorem Image.exists_describes {image : Image} {settings : SymbolSettings} {table : SymbolTable}
    (hpresent : (image.directory Image.exportSlot).virtualAddress ≠ 0)
    (h : (image.buildSymbols settings).outcome = .ok table)
    (habort : settings.unresolved = .abort) :
    ∃ (t : ExportLayout) (moduleName : String) (nameOf : Nat → String),
      t.Describes image settings moduleName nameOf ∧
      (image.buildSymbols settings).insertedIn .exports =
        ⟨image.entryPoint.toUInt64, moduleName, "EntryPoint"⟩ ::
          t.functionSymbols image moduleName nameOf 0 (t.functionCount image.buffer settings) := by
  obtain ⟨mid, last, hphases⟩ := exists_phases h
  have hphase : (Walk.exportPhase image settings).Meets .start (fun _ q =>
      ∃ (t : ExportLayout) (moduleName : String) (nameOf : Nat → String),
        t.Describes image settings moduleName nameOf ∧
        q.insertedIn .exports = ⟨image.entryPoint.toUInt64, moduleName, "EntryPoint"⟩ ::
          t.functionSymbols image moduleName nameOf 0 (t.functionCount image.buffer settings))
      fun _ _ => True := by
    unfold Walk.exportPhase Walk.walkDirectory
    rw [if_pos (DataDirectory.isPresent_iff.mpr hpresent)]
    exact .recover_abort_bind habort ((Walk.walkExports_meets habort).imp fun _ _ hq => .pure hq)
  rw [hphases.insertedIn_exports]
  exact hphase.of_ok hphases.exportPhase_after

/-- **Exports have their names.** Where an image has exports, every defect ends the walk and there is
a table, the exports inserted are the entry point and then, in the order of their table, the functions
whose address is not zero. Without functions it is the entry point alone. A function has the first
name that the tables give it, or its ordinal where there is none; in particular the name in its place,
if the names stand in the order of the functions. The table is the stable sort of what was inserted,
exports before imports. -/
theorem Image.exports_paired {image : Image} {settings : SymbolSettings} {table : SymbolTable}
    (hpresent : (image.directory Image.exportSlot).virtualAddress ≠ 0)
    (habort : settings.unresolved = .abort)
    (h : (image.buildSymbols settings).outcome = .ok table) :
    ∃ (t : ExportLayout) (moduleName : String) (nameOf : Nat → String),
      t.Describes image settings moduleName nameOf ∧
      (image.buildSymbols settings).insertedIn .exports =
        ⟨image.entryPoint.toUInt64, moduleName, "EntryPoint"⟩ ::
          ((List.range (t.functionCount image.buffer settings)).filter fun k =>
            t.address image.buffer k ≠ 0).map (fun k =>
              ⟨UInt64.ofNat (t.address image.buffer k), moduleName, nameOf k⟩) ∧
      table.toList = stableSort ((image.buildSymbols settings).insertedIn .exports ++
        (image.buildSymbols settings).insertedIn .imports) ∧
      (t.functionCount image.buffer settings ≤ t.nameCount image.buffer settings →
        (∀ i < t.functionCount image.buffer settings, t.ordinal image.buffer i = i) →
          ∀ k < t.functionCount image.buffer settings,
            image.nameAt (t.namePointer image.buffer k) settings.maxNameLength.toNat =
              .ok (nameOf k)) := by
  obtain ⟨t, moduleName, nameOf, hdescribes, hsymbols⟩ := exists_describes hpresent h habort
  obtain ⟨mid, last, hphases⟩ := exists_phases h
  refine ⟨t, moduleName, nameOf, hdescribes, ?_, hphases.toList_eq, ?_⟩
  · rw [hsymbols, ExportLayout.functionSymbols, List.range_eq_range']
  intro hcount hidentity k hk
  exact (hdescribes.tables (Nat.ne_zero_of_lt hk)).nameAt_of_identity hcount hidentity hk

/-- In the file with both directories the first function is unused and the second goes by its ordinal,
which wraps around. Of its two names the third function has the first. -/
theorem Image.exports_paired_sample :
    ∃ image table, Image.read Sample.linkedBuffer = .ok image ∧
      (image.buildSymbols {}).outcome = .ok table ∧
      (image.buildSymbols {}).insertedIn .exports =
        [⟨0x1070, "k", "EntryPoint"⟩, ⟨0x1010, "k", "#0"⟩, ⟨0x1020, "k", "b"⟩] ∧
      table.toList = [⟨0x1010, "k", "#0"⟩, ⟨0x1020, "k", "b"⟩, ⟨0x1070, "k", "EntryPoint"⟩,
        ⟨0x2000, "k", "#7"⟩, ⟨0x2004, "k", "c"⟩] ∧
      ∃ (t : ExportLayout) (moduleName : String) (nameOf : Nat → String),
        t.Describes image {} moduleName nameOf ∧
        (image.buildSymbols {}).insertedIn .exports =
          ⟨image.entryPoint.toUInt64, moduleName, "EntryPoint"⟩ ::
            ((List.range (t.functionCount image.buffer {})).filter fun k =>
              t.address image.buffer k ≠ 0).map (fun k =>
                ⟨UInt64.ofNat (t.address image.buffer k), moduleName, nameOf k⟩) := by
  obtain ⟨image, table, hread, houtcome, hpresent, -, hexports, himports⟩ := Sample.exists_linked
  obtain ⟨t, moduleName, nameOf, hdescribes, hinserted, htable, -⟩ :=
    exports_paired hpresent rfl houtcome
  refine ⟨image, table, hread, houtcome, hexports, ?_, t, moduleName, nameOf, hdescribes, hinserted⟩
  rw [htable, hexports, himports]
  simp [stableSort, List.mergeSort, addressLe]

end PeListing
