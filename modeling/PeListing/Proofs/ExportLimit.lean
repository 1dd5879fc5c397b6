import PeListing.Proofs.ExportPairing

/-!
# A lower limit of exports

One limit bounds two tables: the functions that are walked and the names that are walked. With a
lower limit the walk over the exports ends earlier, and what it inserts before is the same but for
names. A function whose first name stands behind the limit is called by its ordinal instead, and
every other function keeps its name (`ExportLayout.CutName`, `Image.exports_cut_short`). So a lower
limit can rename a function that it keeps (`Image.exports_renamed`).

Two walks over one image read the same record and the same tables. That holds for the tables of
names only if both walks look at names; where there are none, all functions go by their ordinals.
Either way the tables that the higher limit finds describe both walks
(`ExportLayout.Describes.of_le`).
-/

namespace PeListing

namespace ExportLayout

variable {t : ExportLayout} {image : Image} {settings : SymbolSettings} {few many : UInt32}

/-- The first name that belongs to the `k`-th function is the `i`-th one. -/
def FirstNameOf (t : ExportLayout) (b : Buffer) (i k : Nat) : Prop :=
  t.ordinal b i = k ∧ ∀ j < i, t.ordinal b j ≠ k

/-- A function has one first name at most. -/
theorem FirstNameOf.unique {b : Buffer} {i j k : Nat} (hi : t.FirstNameOf b i k)
    (hj : t.FirstNameOf b j k) : i = j := by
  rcases Nat.lt_trichotomy i j with hlt | heq | hlt
  · exact absurd hi.1 (hj.2 i hlt)
  · exact heq
  · exact absurd hj.1 (hi.2 j hlt)

/-- How a function is called that has no name. -/
def placeholder (t : ExportLayout) (b : Buffer) (k : Nat) : String :=
  "#" ++ toString ((t.ordinalBase b + k) % 0x100000000)

/-- A function whose first name is walked has that name. -/
theorem Named.nameAt_eq {i k : Nat} {name : String} (h : t.Named image settings k name)
    (hfirst : t.FirstNameOf image.buffer i k) (hi : i < t.nameCount image.buffer settings) :
    image.nameAt (t.namePointer image.buffer i) settings.maxNameLength.toNat = .ok name := by
  rcases h with ⟨j, -, hordinal, hbefore, -, hname⟩ | ⟨hnone, -⟩
  · rwa [FirstNameOf.unique hfirst ⟨hordinal, hbefore⟩]
  · exact absurd hfirst.1 (hnone i hi)

/-- A function whose first name is not walked, or that has none, goes by its ordinal. -/
theorem Named.eq_placeholder {k : Nat} {name : String} (h : t.Named image settings k name)
    (hbehind : ∀ i, t.FirstNameOf image.buffer i k → t.nameCount image.buffer settings ≤ i) :
    name = t.placeholder image.buffer k := by
  rcases h with ⟨i, hi, hordinal, hbefore, -⟩ | ⟨-, rfl⟩
  · exact absurd hi (Nat.not_lt_of_le (hbehind i ⟨hordinal, hbefore⟩))
  · rfl

variable (t image settings) in
/-- What a limit makes of the name that the `k`-th function has under the settings. If the first name
that belongs to the function stands behind the limit, and the settings let it be walked, then the
function has that name under the settings and goes by its ordinal under the limit. Otherwise it has
one name under both. -/
structure CutName (limit k : Nat) (name name' : String) : Prop where
  /-- The limit costs the function its name. -/
  lost {i : Nat} (hfirst : t.FirstNameOf image.buffer i k) (hbehind : limit ≤ i)
    (hi : i < t.nameCount image.buffer settings) :
    name = t.placeholder image.buffer k ∧
      image.nameAt (t.namePointer image.buffer i) settings.maxNameLength.toNat = .ok name'
  /-- The limit leaves the function its name. -/
  kept (hno : ∀ i, t.FirstNameOf image.buffer i k → limit ≤ i →
    t.nameCount image.buffer settings ≤ i) : name = name'

/-- The names of a function under two limits. -/
theorem Named.cutName {k : Nat} {name name' : String} (hle : few ≤ many)
    (h : t.Named image { settings with maxExports := few } k name)
    (h' : t.Named image { settings with maxExports := many } k name') :
    t.CutName image { settings with maxExports := many } few.toNat k name name' := by
  have hlimits : few.toNat ≤ many.toNat := UInt32.le_iff_toNat_le.mp hle
  refine ⟨fun {i} hfirst hbehind hi => ⟨h.eq_placeholder fun j hj => ?_, h'.nameAt_eq hfirst hi⟩,
    fun hno => ?_⟩
  · rw [hj.unique hfirst]
    exact Nat.le_trans (Nat.min_le_right _ _) hbehind
  by_cases hwalked : ∃ i, t.FirstNameOf image.buffer i k ∧
      i < t.nameCount image.buffer { settings with maxExports := few }
  · obtain ⟨i, hfirst, hi⟩ := hwalked
    have hi' : i < t.nameCount image.buffer { settings with maxExports := many } := by
      simp only [nameCount] at hi ⊢
      omega
    exact Except.ok.inj ((h.nameAt_eq hfirst hi).symm.trans (h'.nameAt_eq hfirst hi'))
  · -- Its first name is not walked for either limit.
    have hbehind : ∀ i, t.FirstNameOf image.buffer i k →
        t.nameCount image.buffer { settings with maxExports := few } ≤ i :=
      fun i hfirst => Nat.le_of_not_lt fun hi => hwalked ⟨i, hfirst, hi⟩
    have hbehind' : ∀ i, t.FirstNameOf image.buffer i k →
        t.nameCount image.buffer { settings with maxExports := many } ≤ i := by
      intro i hfirst
      have hfew := hbehind i hfirst
      have hmany := hno i hfirst
      simp only [nameCount] at hfew hmany ⊢
      omega
    exact (h.eq_placeholder hbehind).trans (h'.eq_placeholder hbehind').symm

/-- Where there are no more names than the limit, it costs no function its name. -/
theorem CutName.eq_of_le {limit k : Nat} {name name' : String}
    (h : t.CutName image settings limit k name name')
    (hnames : image.buffer.number (t.directory + 24) 4 ≤ limit) : name = name' :=
  h.kept fun _ _ hbehind =>
    Nat.le_trans (Nat.min_le_left _ _) (Nat.le_trans hnames hbehind)

/-- Functions in a row, and those behind them. -/
theorem functionSymbols_add (t : ExportLayout) (image : Image) (moduleName : String)
    (nameOf : Nat → String) (start count rest : Nat) :
    t.functionSymbols image moduleName nameOf start (count + rest) =
      t.functionSymbols image moduleName nameOf start count ++
        t.functionSymbols image moduleName nameOf (start + count) rest := by
  simp only [functionSymbols, ← List.range'_append_1, List.filter_append, List.map_append]

/-- Functions with the same names have the same symbols. -/
theorem functionSymbols_congr {moduleName : String} {nameOf nameOf' : Nat → String} {count : Nat}
    (h : ∀ k < count, nameOf k = nameOf' k) :
    t.functionSymbols image moduleName nameOf 0 count =
      t.functionSymbols image moduleName nameOf' 0 count := by
  refine List.map_congr_left fun k hk => ?_
  have hlt : k < count := by simpa using (List.mem_filter.mp hk).1
  rw [h k hlt]

/-! ### Two walks over one image -/

section TwoLimits

variable {u : ExportLayout} {moduleName moduleName' : String} {nameOf nameOf' : Nat → String}

/-- Two walks over one image find one record. -/
theorem Describes.directory_eq
    (h : t.Describes image { settings with maxExports := few } moduleName nameOf)
    (h' : u.Describes image { settings with maxExports := many } moduleName' nameOf') :
    t.directory = u.directory :=
  Except.ok.inj (h.resolve_directory.symm.trans h'.resolve_directory)

/-- Two walks over one image find one module. -/
theorem Describes.moduleName_eq
    (h : t.Describes image { settings with maxExports := few } moduleName nameOf)
    (h' : u.Describes image { settings with maxExports := many } moduleName' nameOf') :
    moduleName = moduleName' := by
  obtain ⟨fileName, hname, hstem⟩ := h.stem
  obtain ⟨fileName', hname', hstem'⟩ := h'.stem
  rw [nameRva, h.directory_eq h'] at hname
  cases hname.symm.trans hname'
  exact hstem.unique hstem'

/-- The higher limit allows for as many functions as the lower one. -/
theorem functionCount_le (t : ExportLayout) (b : Buffer) (settings : SymbolSettings)
    (hle : few ≤ many) : t.functionCount b { settings with maxExports := few } ≤
      t.functionCount b { settings with maxExports := many } := by
  have hlimits : few.toNat ≤ many.toNat := UInt32.le_iff_toNat_le.mp hle
  simp only [functionCount]
  omega

/-- Where the lower limit allows for functions, both walks find their tables, and the functions in
one place. -/
theorem Describes.hasTables (hle : few ≤ many)
    (h : t.Describes image { settings with maxExports := few } moduleName nameOf)
    (h' : u.Describes image { settings with maxExports := many } moduleName' nameOf')
    (hcount : u.functionCount image.buffer { settings with maxExports := few } ≠ 0) :
    t.HasTables image { settings with maxExports := few } nameOf ∧
      u.HasTables image { settings with maxExports := many } nameOf' ∧
      t.functions = u.functions := by
  have hdirectory := h.directory_eq h'
  have hmore := u.functionCount_le image.buffer settings hle
  have hcount' : t.functionCount image.buffer { settings with maxExports := few } ≠ 0 := by
    rwa [functionCount, hdirectory]
  have htables := h.tables hcount'
  have htables' := h'.tables (by omega)
  have hresolve := htables.resolve_functions
  rw [hdirectory] at hresolve
  exact ⟨htables, htables', Except.ok.inj (hresolve.symm.trans htables'.resolve_functions)⟩

/-- The tables that the higher limit finds give a function the name that it has under the lower
one. -/
theorem Describes.named_of_le (hle : few ≤ many)
    (h : t.Describes image { settings with maxExports := few } moduleName nameOf)
    (h' : u.Describes image { settings with maxExports := many } moduleName' nameOf') {k : Nat}
    (hk : k < u.functionCount image.buffer { settings with maxExports := few }) :
    u.Named image { settings with maxExports := few } k (nameOf k) := by
  have hlimits : few.toNat ≤ many.toNat := UInt32.le_iff_toNat_le.mp hle
  have hdirectory := h.directory_eq h'
  obtain ⟨htables, htables', hfunctions⟩ := h.hasTables hle h' (Nat.ne_zero_of_lt hk)
  have hnamed : t.Named image { settings with maxExports := few } k (nameOf k) := by
    refine htables.named k ?_
    rwa [functionCount, hdirectory]
  have hnames : t.nameCount image.buffer { settings with maxExports := few } =
      u.nameCount image.buffer { settings with maxExports := few } := by
    rw [nameCount, hdirectory, nameCount]
  by_cases hzero : u.nameCount image.buffer { settings with maxExports := few } = 0
  · -- No names are walked, so the walks need not agree on where they stand.
    refine .inr ⟨fun i hi => absurd hi (by omega), ?_⟩
    have hplaceholder := hnamed.eq_placeholder fun i _ => by omega
    rwa [placeholder, ordinalBase, hdirectory] at hplaceholder
  · have hsome : u.nameCount image.buffer { settings with maxExports := many } ≠ 0 := by
      simp only [nameCount] at hzero ⊢
      omega
    have hresolve := htables.resolve_names (by omega)
    have hresolve' := htables.resolve_ordinals (by omega)
    rw [hdirectory] at hresolve hresolve'
    have hsame : t = u := by
      cases t
      cases u
      cases hdirectory
      cases hfunctions
      cases hresolve.symm.trans (htables'.resolve_names hsome)
      cases hresolve'.symm.trans (htables'.resolve_ordinals hsome)
      rfl
    rwa [hsame] at hnamed

/-- The tables that the higher limit finds describe the walk for the lower one as well. -/
theorem Describes.of_le (hle : few ≤ many)
    (h : t.Describes image { settings with maxExports := few } moduleName nameOf)
    (h' : u.Describes image { settings with maxExports := many } moduleName' nameOf') :
    u.Describes image { settings with maxExports := few } moduleName nameOf := by
  have hlimits : few.toNat ≤ many.toNat := UInt32.le_iff_toNat_le.mp hle
  have hmore := u.functionCount_le image.buffer settings hle
  have hnames : u.nameCount image.buffer { settings with maxExports := few } ≤
      u.nameCount image.buffer { settings with maxExports := many } := by
    simp only [nameCount]
    omega
  have hstem := h.stem
  rw [nameRva, h.directory_eq h'] at hstem
  refine ⟨h'.resolve_directory, h'.directory_le, hstem, fun hcount => ?_⟩
  obtain ⟨-, htables', -⟩ := h.hasTables hle h' hcount
  exact {
    resolve_functions := htables'.resolve_functions
    functions_le := fun k hk => htables'.functions_le k (Nat.lt_of_lt_of_le hk hmore)
    resolve_names := fun hsome => htables'.resolve_names (by omega)
    resolve_ordinals := fun hsome => htables'.resolve_ordinals (by omega)
    ordinals_le := fun i hi => htables'.ordinals_le i (Nat.lt_of_lt_of_le hi hnames)
    named := fun k hk => h.named_of_le hle h' hk }

/-- The tables that the higher limit finds give the functions that the lower one inserts. -/
theorem Describes.functionSymbols_eq (hle : few ≤ many)
    (h : t.Describes image { settings with maxExports := few } moduleName nameOf)
    (h' : u.Describes image { settings with maxExports := many } moduleName' nameOf') :
    t.functionSymbols image moduleName nameOf 0
        (t.functionCount image.buffer { settings with maxExports := few }) =
      u.functionSymbols image moduleName nameOf 0
        (u.functionCount image.buffer { settings with maxExports := few }) := by
  have hcounts : t.functionCount image.buffer { settings with maxExports := few } =
      u.functionCount image.buffer { settings with maxExports := few } := by
    rw [functionCount, h.directory_eq h', functionCount]
  rw [hcounts]
  by_cases hcount : u.functionCount image.buffer { settings with maxExports := few } = 0
  · rw [hcount]
    rfl
  · have haddress : t.address image.buffer = u.address image.buffer := by
      funext k
      rw [address, (h.hasTables hle h' hcount).2.2, address]
    rw [functionSymbols, haddress, functionSymbols]

end TwoLimits

end ExportLayout

namespace Image

variable {image : Image} {settings : SymbolSettings} {few many : UInt32}

/-- An image without exports inserts none. -/
theorem insertedIn_exports_eq_nil {table : SymbolTable}
    (habsent : (image.directory exportSlot).virtualAddress = 0)
    (h : (image.buildSymbols settings).outcome = .ok table) :
    (image.buildSymbols settings).insertedIn .exports = [] := by
  obtain ⟨mid, last, hphases⟩ := exists_phases h
  have hphase : Walk.exportPhase image settings = Walk.note .noExportDirectory := by
    unfold Walk.exportPhase Walk.walkDirectory
    rw [if_neg (mt DataDirectory.isPresent_iff.mp (not_not_intro habsent))]
  have hafter := hphases.exportPhase_after
  rw [hphase] at hafter
  have hmid : Progress.start.note .noExportDirectory = mid := (Prod.mk.inj hafter).2
  rw [hphases.insertedIn_exports, ← hmid]
  rfl

/-- The walks for two limits insert what one layout describes, each with its own names. -/
theorem exists_describes_of_le {cut table : SymbolTable} (hle : few ≤ many)
    (hpresent : (image.directory exportSlot).virtualAddress ≠ 0)
    (habort : settings.unresolved = .abort)
    (hfew : (image.buildSymbols { settings with maxExports := few }).outcome = .ok cut)
    (hmany : (image.buildSymbols { settings with maxExports := many }).outcome = .ok table) :
    ∃ (t : ExportLayout) (moduleName : String) (nameOf nameOf' : Nat → String),
      t.Describes image { settings with maxExports := few } moduleName nameOf ∧
      t.Describes image { settings with maxExports := many } moduleName nameOf' ∧
      (image.buildSymbols { settings with maxExports := few }).insertedIn .exports =
        ⟨image.entryPoint.toUInt64, moduleName, "EntryPoint"⟩ ::
          t.functionSymbols image moduleName nameOf 0
            (t.functionCount image.buffer { settings with maxExports := few }) ∧
      (image.buildSymbols { settings with maxExports := many }).insertedIn .exports =
        ⟨image.entryPoint.toUInt64, moduleName, "EntryPoint"⟩ ::
          t.functionSymbols image moduleName nameOf' 0
            (t.functionCount image.buffer { settings with maxExports := many }) := by
  obtain ⟨t, moduleName, nameOf, h, hexports⟩ := exists_describes hpresent hfew habort
  obtain ⟨u, moduleName', nameOf', h', hexports'⟩ := exists_describes hpresent hmany habort
  obtain rfl := h.moduleName_eq h'
  rw [h.functionSymbols_eq hle h'] at hexports
  exact ⟨u, moduleName, nameOf, nameOf', h.of_le hle h', h', hexports, hexports'⟩

/-- **A lower limit of exports cuts the walk short.** Where every defect ends the walk and there are
tables for two limits of exports, the exports inserted for the lower one are the first of those for
the higher one, at the same addresses and with the same module. Where the image has exports, they are
the entry point and the functions of one layout, and what becomes of each function's name is said by
its first name: if that stands behind the lower limit and is walked for the higher one, the function
goes by its ordinal for the lower limit and has that name for the higher one; otherwise it has one
name for both. If the image declares no more names than the lower limit, all names are the same. -/
theorem exports_cut_short {cut table : SymbolTable} (hle : few ≤ many)
    (habort : settings.unresolved = .abort)
    (hfew : (image.buildSymbols { settings with maxExports := few }).outcome = .ok cut)
    (hmany : (image.buildSymbols { settings with maxExports := many }).outcome = .ok table) :
    ∃ kept rest,
      (image.buildSymbols { settings with maxExports := many }).insertedIn .exports = kept ++ rest ∧
      ((image.buildSymbols { settings with maxExports := few }).insertedIn .exports).map
          (fun s => (s.address, s.moduleName)) = kept.map (fun s => (s.address, s.moduleName)) ∧
      ((image.directory exportSlot).virtualAddress ≠ 0 →
        ∃ (t : ExportLayout) (moduleName : String) (nameOf nameOf' : Nat → String),
          t.Describes image { settings with maxExports := few } moduleName nameOf ∧
          t.Describes image { settings with maxExports := many } moduleName nameOf' ∧
          (image.buildSymbols { settings with maxExports := few }).insertedIn .exports =
            ⟨image.entryPoint.toUInt64, moduleName, "EntryPoint"⟩ ::
              t.functionSymbols image moduleName nameOf 0
                (t.functionCount image.buffer { settings with maxExports := few }) ∧
          kept = ⟨image.entryPoint.toUInt64, moduleName, "EntryPoint"⟩ ::
            t.functionSymbols image moduleName nameOf' 0
              (t.functionCount image.buffer { settings with maxExports := few }) ∧
          ∀ k < t.functionCount image.buffer { settings with maxExports := few },
            t.CutName image { settings with maxExports := many } few.toNat k
              (nameOf k) (nameOf' k)) ∧
      ((∀ offset, image.resolve (image.directory exportSlot).virtualAddress.toNat = .ok offset →
          image.buffer.number (offset + 24) 4 ≤ few.toNat) →
        (image.buildSymbols { settings with maxExports := few }).insertedIn .exports = kept) := by
  by_cases habsent : (image.directory exportSlot).virtualAddress = 0
  · rw [insertedIn_exports_eq_nil habsent hfew, insertedIn_exports_eq_nil habsent hmany]
    exact ⟨[], [], rfl, rfl, absurd habsent, fun _ => rfl⟩
  obtain ⟨t, moduleName, nameOf, nameOf', h, h', hexports, hexports'⟩ :=
    exists_describes_of_le hle habsent habort hfew hmany
  have hcut : ∀ k < t.functionCount image.buffer { settings with maxExports := few },
      t.CutName image { settings with maxExports := many } few.toNat k (nameOf k) (nameOf' k) := by
    intro k hk
    have hk' := Nat.lt_of_lt_of_le hk (t.functionCount_le image.buffer settings hle)
    exact ((h.tables (Nat.ne_zero_of_lt hk)).named k hk).cutName hle
      ((h'.tables (Nat.ne_zero_of_lt hk')).named k hk')
  obtain ⟨others, hothers⟩ :=
    Nat.exists_eq_add_of_le (t.functionCount_le image.buffer settings hle)
  rw [hothers, t.functionSymbols_add, ← List.cons_append] at hexports'
  refine ⟨_, _, hexports', ?_, fun _ => ⟨t, moduleName, nameOf, nameOf', h, h', hexports, rfl, hcut⟩,
    fun hnames => ?_⟩
  · rw [hexports]
    simp only [List.map_cons, ExportLayout.functionSymbols, List.map_map, Function.comp_def]
  · rw [hexports, ExportLayout.functionSymbols_congr fun k hk =>
      (hcut k hk).eq_of_le (hnames _ h'.resolve_directory)]

end Image

namespace Sample

/-- Two functions with names, of which the first stands behind that of the second. -/
def swappedContent : List UInt8 :=
  -- the head of the exports and the name of the module
  gap 12 ++ word 4 0x1028 ++ word 4 1 ++ word 4 2 ++ word 4 2 ++ word 4 0x1040 ++ word 4 0x1048 ++
  word 4 0x1050 ++ [0x6B, 0, 0, 0] ++
  -- the end of the import descriptors
  gap 20 ++
  -- the addresses of the functions, the addresses of the names and the functions of the names
  word 4 0x1010 ++ word 4 0x1020 ++ word 4 0x1054 ++ word 4 0x1056 ++ word 2 1 ++ word 2 0 ++
  [0x61, 0, 0x62, 0] ++ gap 11

/-- A file whose names are not in the order of its functions. -/
def swappedBuffer : Buffer := ⟨⟨(headers ++ swappedContent).toArray⟩, by decide +kernel⟩

/-- With a limit of one the first function is called by its ordinal, with a limit of two by its
name. -/
theorem exists_swapped :
    ∃ image cut table, Image.read swappedBuffer = .ok image ∧
      (image.buildSymbols { maxExports := 1 }).outcome = .ok cut ∧
      (image.buildSymbols { maxExports := 2 }).outcome = .ok table ∧
      (image.directory Image.exportSlot).virtualAddress ≠ 0 ∧
      (image.buildSymbols { maxExports := 1 }).insertedIn .exports =
        [⟨0x1070, "k", "EntryPoint"⟩, ⟨0x1010, "k", "#1"⟩] ∧
      (image.buildSymbols { maxExports := 2 }).insertedIn .exports =
        [⟨0x1070, "k", "EntryPoint"⟩, ⟨0x1010, "k", "b"⟩, ⟨0x1020, "k", "a"⟩] := by
  have hfacts : (Image.read swappedBuffer).toOption.map (fun image =>
      ((image.buildSymbols { maxExports := 1 }).outcome.isOk,
        (image.buildSymbols { maxExports := 2 }).outcome.isOk,
        decide ((image.directory Image.exportSlot).virtualAddress ≠ 0),
        (image.buildSymbols { maxExports := 1 }).insertedIn .exports,
        (image.buildSymbols { maxExports := 2 }).insertedIn .exports)) =
      some (true, true, true, [⟨0x1070, "k", "EntryPoint"⟩, ⟨0x1010, "k", "#1"⟩],
        [⟨0x1070, "k", "EntryPoint"⟩, ⟨0x1010, "k", "b"⟩, ⟨0x1020, "k", "a"⟩]) := by
    decide +kernel
  obtain ⟨image, hread, himage⟩ := exists_read_of_map hfacts
  simp only [Prod.mk.injEq, decide_eq_true_eq] at himage
  obtain ⟨hcut, htable, hpresent, hfew, hmany⟩ := himage
  cases hone : (image.buildSymbols { maxExports := 1 }).outcome with
  | error fault =>
    rw [hone] at hcut
    cases hcut
  | ok cut =>
    cases htwo : (image.buildSymbols { maxExports := 2 }).outcome with
    | error fault =>
      rw [htwo] at htable
      cases htable
    | ok table => exact ⟨image, cut, table, hread, hone, htwo, hpresent, hfew, hmany⟩

end Sample

/-- A lower limit of exports can rename a function: what it inserts is not the first part of what a
higher limit inserts. -/
theorem Image.exports_renamed :
    ∃ image cut table, Image.read Sample.swappedBuffer = .ok image ∧
      (image.buildSymbols { maxExports := 1, unresolved := .abort }).outcome = .ok cut ∧
      (image.buildSymbols { maxExports := 2, unresolved := .abort }).outcome = .ok table ∧
      ¬ (image.buildSymbols { maxExports := 1, unresolved := .abort }).insertedIn .exports <+:
        (image.buildSymbols { maxExports := 2, unresolved := .abort }).insertedIn .exports := by
  obtain ⟨image, cut, table, hread, hcut, htable, -, hfew, hmany⟩ := Sample.exists_swapped
  refine ⟨image, cut, table, hread, hcut, htable, ?_⟩
  rw [hfew, hmany]
  decide

/-- The first function keeps its place and its address. Its first name is walked only for the higher
limit. -/
theorem Image.exports_cut_short_swapped :
    ∃ (image : Image) (cut table : SymbolTable) (t : ExportLayout),
      Image.read Sample.swappedBuffer = .ok image ∧
      (image.buildSymbols { maxExports := 1 }).outcome = .ok cut ∧
      (image.buildSymbols { maxExports := 2 }).outcome = .ok table ∧
      (image.buildSymbols { maxExports := 1 }).insertedIn .exports =
        [⟨0x1070, "k", "EntryPoint"⟩, ⟨0x1010, "k", "#1"⟩] ∧
      (image.buildSymbols { maxExports := 2 }).insertedIn .exports =
        [⟨0x1070, "k", "EntryPoint"⟩, ⟨0x1010, "k", "b"⟩, ⟨0x1020, "k", "a"⟩] ∧
      t.CutName image { maxExports := 2 } 1 0 "#1" "b" ∧
      ∃ i, t.FirstNameOf image.buffer i 0 ∧ 1 ≤ i ∧
        i < t.nameCount image.buffer { maxExports := 2 } := by
  obtain ⟨image, cut, table, hread, hcut, htable, hpresent, hfew, hmany⟩ := Sample.exists_swapped
  have hle : (1 : UInt32) ≤ 2 := by decide
  obtain ⟨kept, rest, hsplit, -, hlayout, -⟩ :=
    @exports_cut_short image {} 1 2 cut table hle rfl hcut htable
  obtain ⟨t, moduleName, nameOf, nameOf', -, -, hexports, hkept, hnames⟩ := hlayout hpresent
  rw [hfew] at hexports
  have hfunctions : [⟨0x1010, "k", "#1"⟩] = t.functionSymbols image moduleName nameOf 0
      (t.functionCount image.buffer { maxExports := 1 }) := (List.cons.inj hexports).2
  have hcount : t.functionCount image.buffer { maxExports := 1 } = 1 := by
    have hone : t.functionCount image.buffer { maxExports := 1 } ≤ 1 := Nat.min_le_right _ _
    have hne : t.functionCount image.buffer { maxExports := 1 } ≠ 0 := by
      intro hzero
      rw [hzero] at hfunctions
      cases hfunctions
    omega
  have haddress : t.address image.buffer 0 ≠ 0 := by
    intro hzero
    rw [hcount, t.functionSymbols_succ, if_pos hzero] at hfunctions
    cases hfunctions
  rw [hcount, t.functionSymbols_succ, if_neg haddress] at hfunctions
  rw [hcount, t.functionSymbols_succ, if_neg haddress] at hkept
  rw [hmany, hkept] at hsplit
  have hname : "#1" = nameOf 0 := congrArg Symbol.name (List.cons.inj hfunctions).1
  have hname' : "b" = nameOf' 0 :=
    congrArg Symbol.name (List.cons.inj (List.cons.inj hsplit).2).1
  have hcutName : t.CutName image { maxExports := 2 } 1 0 "#1" "b" := by
    rw [hname, hname']
    exact hnames 0 (Nat.lt_of_lt_of_eq Nat.zero_lt_one hcount.symm)
  refine ⟨image, cut, table, t, hread, hcut, htable, hfew, hmany, hcutName, ?_⟩
  by_contra hno
  refine absurd (hcutName.kept fun i hfirst hbehind => ?_) (by decide)
  exact Nat.le_of_not_lt fun hi => hno ⟨i, hfirst, hbehind, hi⟩

end PeListing
