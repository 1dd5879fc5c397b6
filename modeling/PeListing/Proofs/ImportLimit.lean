import PeListing.Proofs.DeclaredImports

/-!
# A lower limit of imports cuts the walk short

How many imported functions may be walked is part of the settings. A lower limit only takes symbols
away from the end of what the imports insert (`Image.imports_cut_short`).

The exports are walked without a look at that limit, so both walks come to the imports with one
progress. From there on each deals with what the imports declare up to its limit, and the lower
limit sees the first part of what the higher one sees (`Image.Offers.append_of_le`). So it inserts
the first part of what the higher one inserts, and taking the others away from a sorted table leaves
the sorted table of that part (`stableSort_eq_filter`).
-/

namespace PeListing

/-! ### Exports do not depend on the limit -/

namespace Walk

variable (image : Image) (settings : SymbolSettings) (limit : UInt32)

/-- The limit of imports has no say in how names are paired. -/
theorem pairNames_maxImports (namesOffset ordinalsOffset count index : Nat)
    (names : Array (Option String)) :
    pairNames image { settings with maxImports := limit } namesOffset ordinalsOffset count index
      names = pairNames image settings namesOffset ordinalsOffset count index names := by
  induction count generalizing index names with
  | zero => rfl
  | succ count ih =>
    rw [pairNames, pairNames]
    exact bind_congr fun names => ih (index + 1) names

/-- The limit of imports has no say in which functions are inserted. -/
theorem insertExports_maxImports (directory : ExportDirectory) (moduleName : String)
    (functionsOffset : Nat) (names : List (Option String)) (index inserted : Nat) :
    insertExports image { settings with maxImports := limit } directory moduleName functionsOffset
      names index inserted =
    insertExports image settings directory moduleName functionsOffset names index inserted := by
  induction names generalizing index inserted with
  | nil => rfl
  | cons name? names ih =>
    simp only [insertExports, ih]

/-- The limit of imports has no say in the exports. -/
theorem exportPhase_maxImports :
    exportPhase image { settings with maxImports := limit } = exportPhase image settings := by
  have hwalk : walkExports image { settings with maxImports := limit } =
      walkExports image settings := by
    funext rva
    unfold walkExports exportNames
    simp only [pairNames_maxImports, insertExports_maxImports]
    rfl
  rw [exportPhase, hwalk, exportPhase]

end Walk

/-! ### What the imports offer -/

namespace Image

variable {image : Image} {settings : SymbolSettings}

/-- What a reader meets depends on the settings only by the length of names. -/
theorem Declares.of_maxNameLength_eq {other : SymbolSettings} {c : ImportCursor} {n : Nat}
    {items : List (Option Symbol)} (h : image.Declares settings c n items)
    (hlength : other.maxNameLength = settings.maxNameLength) : image.Declares other c n items := by
  have henters : ∀ offset moduleName lookup, image.EntersModule other offset moduleName lookup ↔
      image.EntersModule settings offset moduleName lookup := by
    intro offset moduleName lookup
    rw [EntersModule, EntersModule, hlength]
  have hsymbol : image.importSymbol? other = image.importSymbol? settings := by
    funext descriptor moduleName index value
    rw [importSymbol?, importSymbol?, importName?, importName?, hlength]
  induction h with
  | resolved hresolve _ ih => exact .resolved hresolve ih
  | unresolved hnone => exact .unresolved hnone
  | outside hout => exact .outside hout
  | terminator hin hzero => exact .terminator hin hzero
  | entered hin hne hmodule _ ih => exact .entered hin hne ((henters _ _ _).mpr hmodule) ih
  | passed hin hne hnone _ ih =>
    exact .passed hin hne (fun _ _ hmodule => hnone _ _ ((henters _ _ _).mp hmodule)) ih
  | limit _ ih => exact .limit ih
  | last hin hzero _ ih => exact .last hin hzero ih
  | cut hout _ ih => exact .cut hout ih
  | thunk hin hvalue hne _ ih =>
    rw [← hsymbol]
    exact .thunk hin hvalue hne ih
  | stop => exact .stop
  | more _ ih => exact .more ih

variable (image settings) in
/-- What the imports of an image declare, if it has any. -/
def Offers (n : Nat) (items : List (Option Symbol)) : Prop :=
  if (image.directory importSlot).virtualAddress = 0 then items = []
  else image.Declares settings image.importCursor n items

/-- Of the settings, only the limit of names has a say in what a file offers. -/
theorem Offers.of_maxNameLength_eq {other : SymbolSettings} {n : Nat}
    {items : List (Option Symbol)} (h : image.Offers settings n items)
    (hlength : other.maxNameLength = settings.maxNameLength) : image.Offers other n items := by
  unfold Offers at h ⊢
  split at h
  · next habsent => rwa [if_pos habsent]
  · next hpresent =>
    rw [if_neg hpresent]
    exact h.of_maxNameLength_eq hlength

/-- A reader with a higher limit meets what one with a lower limit meets, and then the rest. -/
theorem Offers.append_of_le {n m : Nat} {items items' : List (Option Symbol)}
    (h : image.Offers settings n items) (h' : image.Offers settings m items') (hle : n ≤ m) :
    ∃ rest, items' = items ++ rest ∧ (rest = [] ∨ n ≤ items.length) := by
  unfold Offers at h h'
  split at h
  · next habsent =>
    rw [if_pos habsent] at h'
    exact ⟨[], by rw [h', h]; rfl, .inl rfl⟩
  · next hpresent =>
    rw [if_neg hpresent] at h'
    exact h.append_of_le h' hle

/-- A file offers no more symbols than a reader may take thunks. -/
theorem Offers.countP_le {n : Nat} {items : List (Option Symbol)}
    (h : image.Offers settings n items) : items.countP Option.isSome ≤ n := by
  unfold Offers at h
  split at h
  · rw [h]
    exact Nat.zero_le n
  · exact h.countP_le

/-- Where the imports are walked to an end, the walk has dealt with all that they offer. -/
theorem exists_absorbs_offers {mid last : Progress} (hmoves : Moves .exports .start mid)
    (h : (Walk.importPhase image settings).after mid = (.ok (), last)) :
    ∃ items, mid.Absorbs items last ∧ image.Offers settings settings.maxImports.toNat items := by
  by_cases habsent : (image.directory importSlot).virtualAddress = 0
  · have hphase : Walk.importPhase image settings = Walk.note .noImportDirectory := by
      unfold Walk.importPhase Walk.walkDirectory
      rw [if_neg (mt DataDirectory.isPresent_iff.mp (not_not_intro habsent))]
    rw [hphase] at h
    cases h
    have hmid : mid.Recorded := Moves.recorded hmoves Progress.recorded_start
    exact ⟨[], (Progress.Absorbs.refl hmid).note rfl, by rw [Offers, if_pos habsent]⟩
  · obtain ⟨items, habsorbs, hdeclares⟩ := exists_absorbs habsent hmoves h
    exact ⟨items, habsorbs, by rwa [Offers, if_neg habsent]⟩

end Image

/-! ### Symbols behind others -/

/-- A symbol goes in only at an address that is free. -/
theorem address_not_mem_of_mem_admitted {taken : List UInt64} {items : List (Option Symbol)}
    {s : Symbol} (h : s ∈ admitted taken items) : s.address ∉ taken := by
  induction items generalizing taken with
  | nil => exact absurd h List.not_mem_nil
  | cons item items ih =>
    cases item with
    | none => exact ih h
    | some t =>
      by_cases ht : t.address ∈ taken
      · rw [admitted, if_pos ht] at h
        exact ih h
      · rw [admitted, if_neg ht] at h
        rcases List.mem_cons.mp h with rfl | h
        · exact ht
        · exact fun hs => ih h (List.mem_append_left _ hs)

/-- The stable sort of symbols is that of more symbols without the others. -/
theorem stableSort_eq_filter {symbols rest : List Symbol} (h : ∀ s ∈ symbols, s ∉ rest) :
    stableSort symbols = (stableSort (symbols ++ rest)).filter (· ∉ rest) := by
  refine eq_of_atAddress_eq (stableSort_ordered _) ((stableSort_ordered _).filter _) ?_
  intro address
  have hkept : symbols.filter (· ∉ rest) = symbols :=
    List.filter_eq_self.mpr fun s hs => decide_eq_true (h s hs)
  have hgone : rest.filter (· ∉ rest) = [] :=
    List.filter_eq_nil_iff.mpr fun s hs => by simpa using hs
  have hcomm : ∀ l : List Symbol, atAddress (l.filter (· ∉ rest)) address =
      (atAddress l address).filter (· ∉ rest) := List.filter_comm _ _
  rw [atAddress_stableSort, hcomm, atAddress_stableSort, ← hcomm, List.filter_append, hkept, hgone,
    List.append_nil]

namespace Image

variable {image : Image} {settings : SymbolSettings} {table : SymbolTable}

/-- A table is the stable sort of the exports and then the imports, and the imports are what the
file offers at free addresses. -/
theorem exists_offers (h : (image.buildSymbols settings).outcome = .ok table) :
    ∃ mid items, (Walk.exportPhase image settings).after .start = (.ok (), mid) ∧
      image.Offers settings settings.maxImports.toNat items ∧
      (image.buildSymbols settings).insertedIn .exports = mid.insertedIn .exports ∧
      (image.buildSymbols settings).insertedIn .imports =
        admitted ((mid.insertedIn .exports).map Symbol.address) items ∧
      table.skipped + ((image.buildSymbols settings).insertedIn .imports).length =
        mid.table.skipped + items.length ∧
      table.toList = stableSort ((image.buildSymbols settings).insertedIn .exports ++
        (image.buildSymbols settings).insertedIn .imports) := by
  obtain ⟨mid, last, hphases⟩ := exists_phases h
  obtain ⟨items, habsorbs, hoffers⟩ :=
    exists_absorbs_offers hphases.exports_moves hphases.importPhase_after
  have hinserted := hphases.insertedIn_imports_eq habsorbs
  have hskipped := habsorbs.skipped
  rw [Moves.addresses_eq hphases.exports_moves, ← hphases.insertedIn_exports, ← hinserted,
    hphases.table_eq] at hskipped
  rw [hphases.insertedIn_exports] at hinserted
  exact ⟨mid, items, hphases.exportPhase_after, hoffers, hphases.insertedIn_exports, hinserted,
    hskipped, hphases.toList_eq⟩

/-- The lower of two limits inserts the first part of what the higher one inserts, and leaves the
rest out of the table. Where it passes over nothing, the first part ends at the limit. -/
theorem exists_cut_of_le {few many : UInt32} {cut : SymbolTable} (hle : few ≤ many)
    (hfew : (image.buildSymbols { settings with maxImports := few }).outcome = .ok cut)
    (hmany : (image.buildSymbols { settings with maxImports := many }).outcome = .ok table) :
    (image.buildSymbols { settings with maxImports := few }).insertedIn .exports =
      (image.buildSymbols { settings with maxImports := many }).insertedIn .exports ∧
    ∃ kept rest,
      (image.buildSymbols { settings with maxImports := few }).insertedIn .imports = kept ∧
      (image.buildSymbols { settings with maxImports := many }).insertedIn .imports = kept ++ rest ∧
      cut.toList = table.toList.filter (· ∉ rest) ∧ cut.skipped ≤ table.skipped ∧
      (cut.skipped = 0 → kept.length ≤ few.toNat ∧ (rest = [] ∨ kept.length = few.toNat)) := by
  obtain ⟨mid, items, hphase, hoffers, hexports, himports, hskipped, hsorted⟩ := exists_offers hfew
  obtain ⟨mid', items', hphase', hoffers', hexports', himports', hskipped', hsorted'⟩ :=
    exists_offers hmany
  -- Both walks come to the imports with one progress.
  rw [Walk.exportPhase_maxImports] at hphase hphase'
  cases hphase.symm.trans hphase'
  have hfirst : image.Offers settings few.toNat items := hoffers.of_maxNameLength_eq rfl
  have hsecond : image.Offers settings many.toNat items' := hoffers'.of_maxNameLength_eq rfl
  obtain ⟨behind, rfl, hend⟩ := hfirst.append_of_le hsecond (UInt32.le_iff_toNat_le.mp hle)
  rw [admitted_append] at himports'
  rw [himports] at hskipped hsorted
  rw [himports'] at hskipped' hsorted'
  rw [hexports] at hsorted
  rw [hexports'] at hsorted'
  generalize hkept : admitted ((mid.insertedIn .exports).map Symbol.address) items = kept at *
  generalize hrest : admitted ((mid.insertedIn .exports).map Symbol.address ++
    kept.map Symbol.address) behind = rest at *
  have hlength : kept.length ≤ items.length := hkept ▸ length_admitted_le _ _
  have hlength' : rest.length ≤ behind.length := hrest ▸ length_admitted_le _ _
  rw [List.length_append, List.length_append] at hskipped'
  refine ⟨hexports.trans hexports'.symm, kept, rest, himports, himports', ?_, by omega, ?_⟩
  · rw [hsorted, hsorted', ← List.append_assoc]
    refine stableSort_eq_filter fun s hs hmem => ?_
    have hfree := address_not_mem_of_mem_admitted (hrest ▸ hmem)
    rw [← List.map_append] at hfree
    exact hfree (List.mem_map_of_mem hs)
  · intro hzero
    -- Nothing is passed over, so every item is a symbol and counts towards the limit.
    have hall : items = kept.map some := by
      rw [← hkept]
      exact eq_map_some_of_length_le (by rw [hkept]; omega)
    have hsame : items.length = kept.length := by rw [hall, List.length_map]
    have hcount : items.countP Option.isSome = items.length :=
      List.countP_eq_length.mpr fun item hitem => by
        rw [hall] at hitem
        obtain ⟨s, -, rfl⟩ := List.mem_map.mp hitem
        rfl
    have hlimit : items.countP Option.isSome ≤ few.toNat := hfirst.countP_le
    refine ⟨by omega, hend.imp (fun hnil => ?_) fun hreached => by omega⟩
    rw [hnil] at hrest
    exact hrest.symm

/-- Where defects are passed over, the table for the lower limit is a part of the other. -/
theorem exists_sublist_of_skip {few many : UInt32} (hle : few ≤ many)
    (hpolicy : settings.unresolved = .skip) : ∃ cut table,
      (image.buildSymbols { settings with maxImports := few }).outcome = .ok cut ∧
      (image.buildSymbols { settings with maxImports := many }).outcome = .ok table ∧
      cut.toList.Sublist table.toList ∧ cut.skipped ≤ table.skipped := by
  obtain ⟨cut, hcut⟩ := image.exists_outcome_of_skip { settings with maxImports := few } hpolicy
  obtain ⟨table, htable⟩ :=
    image.exists_outcome_of_skip { settings with maxImports := many } hpolicy
  obtain ⟨-, kept, rest, -, -, hfilter, hskipped, -⟩ := exists_cut_of_le hle hcut htable
  refine ⟨cut, table, hcut, htable, ?_, hskipped⟩
  rw [hfilter]
  exact List.filter_sublist

/-- Where every defect ends the walk, a table for the higher limit comes with one for the lower. -/
theorem exists_cut_of_abort {few many : UInt32} (hle : few ≤ many)
    (htable : (image.buildSymbols { settings with maxImports := many }).outcome = .ok table)
    (hpolicy : settings.unresolved = .abort) :
    ∃ cut, (image.buildSymbols { settings with maxImports := few }).outcome = .ok cut ∧
      cut.skipped = 0 ∧ table.skipped = 0 := by
  have hstrict : ∀ limit : UInt32, { settings with maxImports := limit } =
      { settings with maxImports := limit, unresolved := .abort } := by
    intro limit
    rw [← hpolicy]
  -- The lenient walk under the higher limit passes over nothing, so the one under the lower does
  -- not either, and a strict walk agrees with it.
  obtain ⟨cut, other, hcut, hother, -, hless⟩ :=
    @exists_sublist_of_skip image { settings with unresolved := .skip } few many hle rfl
  have hlenient : (image.buildSymbols
      { settings with maxImports := many, unresolved := .skip }).outcome = .ok table ∧
        table.skipped = 0 := by
    rw [hstrict] at htable
    exact @outcome_skip_of_abort image { settings with maxImports := many } table htable
  cases hother.symm.trans hlenient.1
  have hzero : cut.skipped = 0 := by omega
  refine ⟨cut, ?_, hzero, hlenient.2⟩
  rw [hstrict]
  exact @outcome_abort_of_skip image { settings with maxImports := few } cut hcut hzero

/-- **A lower limit of imports cuts the walk short.** Of two limits of imports, let every defect end
the walk and let there be a table for the higher one. Then there is one for the lower, with the same
exports and with the first imports up to the limit: all that it lacks of the other table are the
imports behind these. Where defects are passed over, there are both tables, the one for the lower
limit has some of the symbols of the other, in the same order, and no more entries were passed
over. -/
theorem imports_cut_short (image : Image) (settings : SymbolSettings) {few many : UInt32}
    (hle : few ≤ many) :
    (settings.unresolved = .abort → ∀ table,
      (image.buildSymbols { settings with maxImports := many }).outcome = .ok table →
      ∃ cut, (image.buildSymbols { settings with maxImports := few }).outcome = .ok cut ∧
        (image.buildSymbols { settings with maxImports := few }).insertedIn .exports =
          (image.buildSymbols { settings with maxImports := many }).insertedIn .exports ∧
        (image.buildSymbols { settings with maxImports := few }).insertedIn .imports =
          ((image.buildSymbols { settings with maxImports := many }).insertedIn .imports).take
            few.toNat ∧
        cut.toList = table.toList.filter (· ∉
          ((image.buildSymbols { settings with maxImports := many }).insertedIn .imports).drop
            few.toNat) ∧
        cut.skipped = table.skipped) ∧
    (settings.unresolved = .skip → ∃ cut table,
      (image.buildSymbols { settings with maxImports := few }).outcome = .ok cut ∧
      (image.buildSymbols { settings with maxImports := many }).outcome = .ok table ∧
      cut.toList.Sublist table.toList ∧ cut.skipped ≤ table.skipped) := by
  refine ⟨fun hpolicy table htable => ?_, exists_sublist_of_skip hle⟩
  obtain ⟨cut, hfew, hzero, hnone⟩ := exists_cut_of_abort hle htable hpolicy
  obtain ⟨hexports, kept, rest, hkept, hrest, hfilter, -, hlimit⟩ :=
    exists_cut_of_le hle hfew htable
  obtain ⟨hlength, hend⟩ := hlimit hzero
  have hparts : kept = (kept ++ rest).take few.toNat ∧ rest = (kept ++ rest).drop few.toNat := by
    rcases hend with rfl | hreached
    · rw [List.append_nil, List.take_of_length_le hlength, List.drop_of_length_le hlength]
      exact ⟨rfl, rfl⟩
    · rw [← hreached, List.take_left, List.drop_left]
      exact ⟨rfl, rfl⟩
  refine ⟨cut, hfew, hexports, ?_, ?_, hzero.trans hnone.symm⟩
  · rw [hkept, hrest]
    exact hparts.1
  · rw [hrest, ← hparts.2]
    exact hfilter

/-- With a limit of one import, the second of the file with both directories is left out. -/
theorem imports_cut_short_linked :
    ∃ image table cut, Image.read Sample.linkedBuffer = .ok image ∧
      (image.buildSymbols {}).outcome = .ok table ∧
      (image.buildSymbols { maxImports := 1 }).outcome = .ok cut ∧
      (image.buildSymbols { maxImports := 1 }).insertedIn .imports = [⟨0x2000, "k", "#7"⟩] ∧
      cut.toList = table.toList.filter (· ∉ [⟨0x2004, "k", "c"⟩]) := by
  obtain ⟨image, table, hread, houtcome, -, -, -, himports⟩ := Sample.exists_linked
  have hle : (1 : UInt32) ≤ ({} : SymbolSettings).maxImports := by decide
  obtain ⟨cut, hcut, -, hkept, hfilter, -⟩ := (imports_cut_short image {} hle).1 rfl table houtcome
  refine ⟨image, table, cut, hread, houtcome, hcut, ?_, ?_⟩
  · refine hkept.trans ?_
    change ((image.buildSymbols {}).insertedIn .imports).take 1 = _
    rw [himports]
    rfl
  · refine hfilter.trans ?_
    change table.toList.filter (· ∉ ((image.buildSymbols {}).insertedIn .imports).drop 1) = _
    rw [himports]
    rfl

end Image

end PeListing
