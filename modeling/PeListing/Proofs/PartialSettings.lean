import PeListing.Proofs.SettingsText

/-!
# Partial settings

A document of settings may mention any of them. What it mentions is set as it says, everything else
keeps its default, names that are no settings do nothing, and a setting that is mentioned twice makes
the document wrong (`Settings.parse?_partial`).

The names of all settings, of the groups and of what is in them, are different. So a choice of settings
is a property of names. `Json.Given full chosen j` says that `j` is an object with the chosen ones of
some members, in any order and among members of other names. Such an object has a value for
every chosen name and for no other known one (`Json.Given.exists_record?`); this is all that the groups
of settings need to know of their documents.
-/

namespace PeListing

namespace Json

/-- A document is an object with the chosen ones of some members. They stand in any order, and with
them members of any value whose names are those of no member. -/
def Given (full : List (String × Json)) (chosen : String → Bool) (j : Json) : Prop :=
  ∃ members others : List (String × Json), j = .ofMembers members ∧
    members.Perm (full.filter (fun m => chosen m.1) ++ others) ∧
    ∀ m ∈ others, m.1 ∉ full.map Prod.fst

/-- A document is an object in which one of some names stands twice. -/
def Repeats (names : List String) (j : Json) : Prop :=
  ∃ members : List (Literal × Json), j = .object members ∧
    ∃ name ∈ names, 2 ≤ members.countP (fun m => m.1 == some name)

/-- A name that stands once has the value that stands with it. -/
theorem lookup_of_mem {α β : Type} [BEq α] [LawfulBEq α] {members : List (α × β)} {name : α} {v : β}
    (hmem : (name, v) ∈ members) (hcount : members.countP (fun m => m.1 == name) ≤ 1) :
    members.lookup name = some v := by
  induction members with
  | nil => cases hmem
  | cons m members ih =>
    obtain ⟨n, w⟩ := m
    rw [List.countP_cons] at hcount
    rw [List.lookup_cons]
    rcases List.mem_cons.mp hmem with heq | hmem
    · obtain ⟨rfl, rfl⟩ := Prod.mk.inj heq
      simp
    · have hpos : 0 < members.countP (fun m => m.1 == name) :=
        List.countP_pos_iff.mpr ⟨(name, v), hmem, by simp⟩
      have hne : (name == n) = false := by
        rw [beq_eq_false_iff_ne]
        rintro rfl
        rw [if_pos (by simp)] at hcount
        omega
      rw [hne]
      exact ih hmem (by omega)

variable {full : List (String × Json)} {chosen : String → Bool} {j : Json}

/-- No known name stands twice. -/
theorem countP_le_one_of_perm {members others : List (String × Json)}
    (hperm : members.Perm (full.filter (fun m => chosen m.1) ++ others))
    (hothers : ∀ m ∈ others, m.1 ∉ full.map Prod.fst) (hfull : (full.map Prod.fst).Nodup)
    {name : String} (hname : name ∈ full.map Prod.fst) :
    members.countP (fun m => m.1 == name) ≤ 1 := by
  have hnone : others.countP (fun m => m.1 == name) = 0 := by
    rw [List.countP_eq_zero]
    rintro m hm heq
    exact hothers m hm (eq_of_beq heq ▸ hname)
  have hone : full.countP (fun m => m.1 == name) ≤ 1 := by
    have hcount := List.nodup_iff_count_le_one.mp hfull name
    rwa [List.count, List.countP_map] at hcount
  have hfilter : (full.filter fun m => chosen m.1).countP (fun m => m.1 == name) ≤
      full.countP (fun m => m.1 == name) := List.filter_sublist.countP_le
  rw [hperm.countP_eq, List.countP_append, hnone]
  omega

/-- An object with the chosen ones of some members has the values of these, and of no others. -/
theorem Given.exists_record? (h : Given full chosen j) (hfull : (full.map Prod.fst).Nodup) :
    ∃ lookup, record? (full.map Prod.fst) j = some lookup ∧
      ∀ m ∈ full, lookup m.1 = if chosen m.1 then some m.2 else none := by
  obtain ⟨members, others, rfl, hperm, hothers⟩ := h
  have hcount : ∀ name ∈ full.map Prod.fst, members.countP (fun m => m.1 == name) ≤ 1 :=
    fun name hname => countP_le_one_of_perm hperm hothers hfull hname
  refine ⟨_, record?_ofMembers_of_countP hcount, fun m hm => ?_⟩
  have hname : m.1 ∈ full.map Prod.fst := List.mem_map_of_mem hm
  split
  -- A name that stands once is found wherever it stands, so the order does not matter.
  · next hchosen =>
    have hmem : m ∈ members :=
      hperm.mem_iff.mpr (List.mem_append_left _ (List.mem_filter.mpr ⟨hm, hchosen⟩))
    exact lookup_of_mem hmem (hcount m.1 hname)
  · next hchosen =>
    rw [List.lookup_eq_none_iff]
    intro p hp
    rcases List.mem_append.mp (hperm.mem_iff.mp hp) with hp | hp
    · rw [bne_iff_ne]
      rintro heq
      exact hchosen (heq ▸ (List.mem_filter.mp hp).2)
    · rw [bne_iff_ne]
      rintro heq
      exact hothers p hp (heq ▸ hname)

/-- A field is set if its name is chosen. -/
theorem field?_of_choice {α : Type} {lookup : String → Option Json} {name : String} {v : Json}
    {default a : α} {read? : Json → Option α}
    (h : lookup name = if chosen name then some v else none) (hread : read? v = some a) :
    field? lookup name default read? = some (if chosen name then a else default) := by
  cases hchosen : chosen name <;> simp [field?, h, hchosen, hread]

/-- An object that has fields has each of its known names once. -/
theorem lookup_of_record? {names : List String} {members : List (Literal × Json)}
    {lookup : String → Option Json} (h : record? names (.object members) = some lookup)
    {name : String} (hname : name ∈ names) :
    members.countP (fun m => m.1 == some name) ≤ 1 ∧ lookup name = members.lookup (some name) := by
  rw [record?] at h
  split at h
  · next hall =>
    cases h
    have hcounts := List.all_eq_true.mp (Bool.and_eq_true_iff.mp hall).2
    exact ⟨of_decide_eq_true (hcounts name hname), rfl⟩
  · cases h

/-- A document in which a known name stands twice has no fields. -/
theorem record?_of_repeats {names : List String} (h : Repeats names j) : record? names j = none := by
  obtain ⟨members, rfl, name, hname, htwice⟩ := h
  rw [Option.eq_none_iff_forall_ne_some]
  intro lookup hrecord
  have honce := (lookup_of_record? hrecord hname).1
  omega

end Json

/-! ### The groups -/

namespace LoadSettings

/-- The defaults with the chosen settings in their place. -/
def keep (chosen : String → Bool) (s : LoadSettings) : LoadSettings where
  maxFileSize := if chosen "max_file_size" then s.maxFileSize else ({} : LoadSettings).maxFileSize

/-- The chosen members of the settings for loading are read, and the others are the defaults. -/
theorem ofJson?_of_given {s : LoadSettings} {chosen : String → Bool} {j : Json}
    (h : Json.Given s.members chosen j) : ofJson? j = some (s.keep chosen) := by
  obtain ⟨lookup, hrecord, hlookup⟩ := h.exists_record? (by simp [members])
  simp only [members, List.forall_mem_cons] at hlookup
  obtain ⟨hsize, -⟩ := hlookup
  have hrecord' : j.record? names = some lookup := hrecord
  unfold ofJson?
  rw [hrecord']
  simp only [Option.bind_eq_bind, Option.bind_some]
  rw [Json.field?_of_choice hsize (Json.u64?_toNat s.maxFileSize)]
  rfl

end LoadSettings

namespace SymbolSettings

/-- The defaults with the chosen settings in their place. -/
def keep (chosen : String → Bool) (s : SymbolSettings) : SymbolSettings where
  maxExports := if chosen "max_exports" then s.maxExports else ({} : SymbolSettings).maxExports
  maxImports := if chosen "max_imports" then s.maxImports else ({} : SymbolSettings).maxImports
  maxNameLength :=
    if chosen "max_name_length" then s.maxNameLength else ({} : SymbolSettings).maxNameLength
  unresolved := if chosen "unresolved" then s.unresolved else ({} : SymbolSettings).unresolved

/-- The chosen members of the settings for symbols are read, and the others are the defaults. -/
theorem ofJson?_of_given {s : SymbolSettings} {chosen : String → Bool} {j : Json}
    (h : Json.Given s.members chosen j) : ofJson? j = some (s.keep chosen) := by
  obtain ⟨lookup, hrecord, hlookup⟩ := h.exists_record? (by simp [members])
  simp only [members, List.forall_mem_cons] at hlookup
  obtain ⟨hexports, himports, hlength, hunresolved, -⟩ := hlookup
  have hrecord' : j.record? names = some lookup := hrecord
  unfold ofJson?
  rw [hrecord']
  simp only [Option.bind_eq_bind, Option.bind_some]
  rw [Json.field?_of_choice hexports (Json.u32?_toNat s.maxExports),
    Json.field?_of_choice himports (Json.u32?_toNat s.maxImports),
    Json.field?_of_choice hlength (Json.u64?_toNat s.maxNameLength),
    Json.field?_of_choice hunresolved (UnresolvedPolicy.ofJson?_text s.unresolved)]
  rfl

end SymbolSettings

namespace ListingSettings

/-- The defaults with the chosen settings in their place. -/
def keep (chosen : String → Bool) (s : ListingSettings) : ListingSettings where
  showLabels := if chosen "show_labels" then s.showLabels else ({} : ListingSettings).showLabels
  annotateAddresses :=
    if chosen "annotate_addresses" then s.annotateAddresses
    else ({} : ListingSettings).annotateAddresses
  uppercaseMnemonics :=
    if chosen "uppercase_mnemonics" then s.uppercaseMnemonics
    else ({} : ListingSettings).uppercaseMnemonics
  hexMark := if chosen "hex_prefix" then s.hexMark else ({} : ListingSettings).hexMark

/-- The chosen members of the settings for listings are read, and the others are the defaults. -/
theorem ofJson?_of_given {s : ListingSettings} {chosen : String → Bool} {j : Json}
    (h : Json.Given s.members chosen j) : ofJson? j = some (s.keep chosen) := by
  obtain ⟨lookup, hrecord, hlookup⟩ := h.exists_record? (by simp [members])
  simp only [members, List.forall_mem_cons] at hlookup
  obtain ⟨hlabels, haddresses, hmnemonics, hmark, -⟩ := hlookup
  have hrecord' : j.record? names = some lookup := hrecord
  unfold ofJson?
  rw [hrecord']
  simp only [Option.bind_eq_bind, Option.bind_some]
  rw [Json.field?_of_choice hlabels (Json.bool?_bool s.showLabels),
    Json.field?_of_choice haddresses (Json.bool?_bool s.annotateAddresses),
    Json.field?_of_choice hmnemonics (Json.bool?_bool s.uppercaseMnemonics),
    Json.field?_of_choice hmark (Json.text?_ofText s.hexMark)]
  rfl

end ListingSettings

/-! ### All settings -/

namespace Settings

/-- The defaults with the chosen settings in their place. A group that is not chosen is the default
one. -/
def keep (chosen : String → Bool) (s : Settings) : Settings where
  load := if chosen "io" then s.load.keep chosen else {}
  symbols := if chosen "symbols" then s.symbols.keep chosen else {}
  listing := if chosen "listing" then s.listing.keep chosen else {}

/-- A document gives the chosen ones of some settings: an object with the chosen groups, and each
group an object with the chosen settings of the group. -/
def GivenBy (s : Settings) (chosen : String → Bool) (j : Json) : Prop :=
  ∃ load symbols listing : Json, Json.Given s.load.members chosen load ∧
    Json.Given s.symbols.members chosen symbols ∧ Json.Given s.listing.members chosen listing ∧
    Json.Given (members load symbols listing) chosen j

/-- The chosen groups and members are read, and the others are the defaults. -/
theorem ofJson?_of_givenBy {s : Settings} {chosen : String → Bool} {j : Json}
    (h : s.GivenBy chosen j) : ofJson? j = some (s.keep chosen) := by
  obtain ⟨load, symbols, listing, hload, hsymbols, hlisting, hgroups⟩ := h
  obtain ⟨lookup, hrecord, hlookup⟩ := hgroups.exists_record? (by simp [members])
  simp only [members, List.forall_mem_cons] at hlookup
  obtain ⟨hio, hsym, hlist, -⟩ := hlookup
  have hrecord' : j.record? (groups.map Prod.fst) = some lookup := hrecord
  unfold ofJson?
  rw [hrecord']
  simp only [Option.bind_eq_bind, Option.bind_some]
  rw [Json.field?_of_choice hio (LoadSettings.ofJson?_of_given hload),
    Json.field?_of_choice hsym (SymbolSettings.ofJson?_of_given hsymbols),
    Json.field?_of_choice hlist (ListingSettings.ofJson?_of_given hlisting)]
  rfl

/-- A document is an object in which a group stands twice, or in which a setting stands twice in the
object of its group. -/
def RepeatedBy (j : Json) : Prop :=
  j.Repeats (groups.map Prod.fst) ∨
    ∃ members : List (Json.Literal × Json), j = .object members ∧
      ∃ group ∈ groups, ∃ v, (some group.1, v) ∈ members ∧ v.Repeats group.2

/-- The value of a group is read with the fields of the group. -/
theorem exists_read_of_ofJson? {j : Json} {s : Settings} (h : ofJson? j = some s) :
    ∃ lookup, j.record? (groups.map Prod.fst) = some lookup ∧
      ∀ group ∈ groups, ∀ v, lookup group.1 = some v → v.record? group.2 ≠ none := by
  simp only [ofJson?, Option.bind_eq_bind, Option.bind_eq_some_iff] at h
  obtain ⟨lookup, hrecord, load, hload, symbols, hsymbols, listing, hlisting, -⟩ := h
  refine ⟨lookup, hrecord, ?_⟩
  simp only [groups, List.forall_mem_cons]
  refine ⟨fun v hv hnone => ?_, fun v hv hnone => ?_, fun v hv hnone => ?_, nofun⟩
  · simp [Json.field?, hv, LoadSettings.ofJson?, hnone] at hload
  · simp [Json.field?, hv, SymbolSettings.ofJson?, hnone] at hsymbols
  · simp [Json.field?, hv, ListingSettings.ofJson?, hnone] at hlisting

/-- A name that is repeated is refused. -/
theorem ofJson?_of_repeatedBy {j : Json} (h : RepeatedBy j) : ofJson? j = none := by
  rw [Option.eq_none_iff_forall_ne_some]
  intro s hs
  obtain ⟨lookup, hrecord, hgroups⟩ := exists_read_of_ofJson? hs
  rcases h with hrepeats | ⟨members, rfl, group, hgroup, v, hmem, hrepeats⟩
  · rw [Json.record?_of_repeats hrepeats] at hrecord
    cases hrecord
  -- The group stands once, or there would be no fields at all, so it is this value that is read.
  · obtain ⟨honce, hlookup⟩ := Json.lookup_of_record? hrecord (List.mem_map_of_mem hgroup)
    rw [Json.lookup_of_mem hmem honce] at hlookup
    exact hgroups group hgroup v hlookup (Json.record?_of_repeats hrepeats)

/-- **Partial settings.** A text that spells a document, in any way that JSON has for it, sets what the
document mentions. If the document gives some of the settings `s`, in any order and among any other
names, these have the values of `s` and all others are the default ones. If a group or a setting stands
twice in one object, the text describes no settings. -/
theorem parse?_partial {j : Json} {text : String} (h : j.Spelled text) :
    (∀ (s : Settings) (chosen : String → Bool), s.GivenBy chosen j →
      parse? text = some (s.keep chosen)) ∧
    (RepeatedBy j → parse? text = none) := by
  have hdocument := Json.parse?_of_spelled h
  unfold parse?
  rw [hdocument]
  exact ⟨fun _ _ hgiven => ofJson?_of_givenBy hgiven, ofJson?_of_repeatedBy⟩

/-- A document with one setting among names that are none, and one with a group that stands twice. -/
theorem parse?_partial_sample :
    parse? (Json.ofMembers [("note", .array [.null]), ("listing", .ofMembers
      [("io", .bool true), ("hex_prefix", .ofText "$")])]).pretty =
        some { listing := { hexMark := "$" } } ∧
    parse? (Json.ofMembers [("io", .ofMembers []), ("io", .ofMembers [])]).pretty = none := by
  have hnothing : (Json.ofMembers []).Plain := .ofMembers (by simp)
  constructor
  · have hlisting : (Json.ofMembers [("io", .bool true), ("hex_prefix", .ofText "$")]).Plain := by
      apply Json.Plain.ofMembers
      simp [Json.Plain.bool, Json.ofText, Json.Plain.string]
    have hplain : (Json.ofMembers [("note", .array [.null]), ("listing", .ofMembers
        [("io", .bool true), ("hex_prefix", .ofText "$")])]).Plain := by
      apply Json.Plain.ofMembers
      simp [hlisting, Json.Plain.array, Json.Plain.null]
    exact (parse?_partial (Json.spelled_pretty hplain)).1 { listing := { hexMark := "$" } }
      (fun name => name = "listing" || name = "hex_prefix") ⟨.ofMembers [], .ofMembers [], _,
        ⟨[], [], rfl, .refl _, by simp⟩, ⟨[], [], rfl, .refl _, by simp⟩,
        ⟨_, [("io", .bool true)], rfl, .swap _ _ _, by simp [ListingSettings.members]⟩,
        ⟨_, [("note", .array [.null])], rfl, .swap _ _ _, by simp [members]⟩⟩
  · have hplain : (Json.ofMembers [("io", .ofMembers []), ("io", .ofMembers [])]).Plain := by
      apply Json.Plain.ofMembers
      simp [hnothing]
    exact (parse?_partial (Json.spelled_pretty hplain)).2
      (.inl ⟨_, rfl, "io", by decide, by decide⟩)

end Settings

end PeListing
