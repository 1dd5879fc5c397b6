import PeListing.Proofs.ExactReads
import PeListing.Symbol.Build

/-!
# The stream of imports

What the imports of an image declare, said without a walk. A reader goes through the file with a
cursor: from the directory to the first descriptor, through the thunks of a descriptor up to the zero
one, and on to the next descriptor until there is one without a lookup table. Every thunk stands for
a symbol. The reader may take only so many thunks and looks at nothing behind the last of them.

`image.Declares settings c n items` says that from the cursor `c` on the reader meets `items` when it
may take `n` more thunks. An item is a symbol, or nothing where a part of the file cannot be read. A
reader has no choices (`Image.Declares.unique`).

Of the symbols only those at a free address can go into a table (`admitted`).
-/

namespace PeListing

/-- A place in the imports of an image. -/
inductive ImportCursor where
  /-- At the directory, which has an address. -/
  | directory (rva : Nat)
  /-- Before the descriptor at an offset. -/
  | descriptor (offset : Nat)
  /-- Before the `index`-th thunk of the descriptor at an offset, whose module has a name and whose
  lookup table stands at the offset `lookup`. -/
  | thunk (descriptor : Nat) (moduleName : String) (lookup index : Nat)
  /-- Behind a descriptor, where the next one would be. -/
  | next (offset : Nat)

namespace Image

variable (image : Image) (settings : SymbolSettings)

/-- Where the imports start. -/
def importCursor : ImportCursor :=
  .directory (image.directory importSlot).virtualAddress.toNat

/-- The name of an import that its thunk gives by number, if the highest bit is set, or by the address
of a name behind a hint of two bytes. -/
def importName? (value : Nat) : Option String :=
  if image.kind.ordinalFlag.toNat ≤ value then some ("#" ++ toString (value % 0x10000))
  else (image.nameAt (value % 0x80000000 + 2) settings.maxNameLength.toNat).toOption

/-- The symbol in the `index`-th slot that a descriptor has the loader fill in. -/
def importSymbol? (descriptor : Nat) (moduleName : String) (index value : Nat) : Option Symbol :=
  (image.importName? settings value).map fun name =>
    ⟨UInt64.ofNat (image.buffer.number (descriptor + 16) 4 + index * image.kind.thunkSize),
      moduleName, name⟩

/-- The module of the descriptor at an offset has a name, and its lookup table has an offset. -/
def EntersModule (offset : Nat) (moduleName : String) (lookup : Nat) : Prop :=
  (∃ fileName, image.nameAt (image.buffer.number (offset + 12) 4)
      settings.maxNameLength.toNat = .ok fileName ∧ IsStemOf moduleName fileName) ∧
    image.resolve (image.buffer.number offset 4) = .ok lookup

/-- What a reader meets that may take so many thunks. -/
inductive Declares : ImportCursor → Nat → List (Option Symbol) → Prop
  /-- The descriptors stand where the address of the directory resolves to. -/
  | resolved {rva offset n : Nat} {items : List (Option Symbol)} :
      image.resolve rva = .ok offset → Declares (.descriptor offset) n items →
        Declares (.directory rva) n items
  | unresolved {rva n : Nat} :
      (∀ offset, image.resolve rva ≠ .ok offset) → Declares (.directory rva) n [none]
  /-- The file ends before the descriptors do. -/
  | outside {offset n : Nat} :
      image.buffer.size < offset + 20 → Declares (.descriptor offset) n [none]
  /-- A descriptor without a lookup table ends the descriptors. -/
  | terminator {offset n : Nat} :
      offset + 20 ≤ image.buffer.size → image.buffer.number offset 4 = 0 →
        Declares (.descriptor offset) n []
  | entered {offset lookup n : Nat} {moduleName : String} {items : List (Option Symbol)} :
      offset + 20 ≤ image.buffer.size → image.buffer.number offset 4 ≠ 0 →
        image.EntersModule settings offset moduleName lookup →
        Declares (.thunk offset moduleName lookup 0) n items → Declares (.descriptor offset) n items
  /-- A descriptor whose module has no name or whose lookup table has no place. -/
  | passed {offset n : Nat} {items : List (Option Symbol)} :
      offset + 20 ≤ image.buffer.size → image.buffer.number offset 4 ≠ 0 →
        (∀ moduleName lookup, ¬ image.EntersModule settings offset moduleName lookup) →
        Declares (.next (offset + 20)) n items → Declares (.descriptor offset) n (none :: items)
  /-- No more thunks may be taken, and none is looked at. -/
  | limit {descriptor lookup index : Nat} {moduleName : String} {items : List (Option Symbol)} :
      Declares (.next (descriptor + 20)) 0 items →
        Declares (.thunk descriptor moduleName lookup index) 0 items
  /-- A zero thunk ends the lookup table. -/
  | last {descriptor lookup index n : Nat} {moduleName : String} {items : List (Option Symbol)} :
      lookup + index * image.kind.thunkSize + image.kind.thunkSize ≤ image.buffer.size →
        image.buffer.number (lookup + index * image.kind.thunkSize) image.kind.thunkSize = 0 →
        Declares (.next (descriptor + 20)) (n + 1) items →
        Declares (.thunk descriptor moduleName lookup index) (n + 1) items
  /-- The file ends before the lookup table does. -/
  | cut {descriptor lookup index n : Nat} {moduleName : String} {items : List (Option Symbol)} :
      image.buffer.size < lookup + index * image.kind.thunkSize + image.kind.thunkSize →
        Declares (.next (descriptor + 20)) (n + 1) items →
        Declares (.thunk descriptor moduleName lookup index) (n + 1) (none :: items)
  | thunk {descriptor lookup index n value : Nat} {moduleName : String}
      {items : List (Option Symbol)} :
      lookup + index * image.kind.thunkSize + image.kind.thunkSize ≤ image.buffer.size →
        image.buffer.number (lookup + index * image.kind.thunkSize) image.kind.thunkSize = value →
        value ≠ 0 → Declares (.thunk descriptor moduleName lookup (index + 1)) n items →
        Declares (.thunk descriptor moduleName lookup index) (n + 1)
          (image.importSymbol? settings descriptor moduleName index value :: items)
  /-- No more thunks may be taken, and no other descriptor is looked at. -/
  | stop {offset : Nat} : Declares (.next offset) 0 []
  | more {offset n : Nat} {items : List (Option Symbol)} :
      Declares (.descriptor offset) (n + 1) items → Declares (.next offset) (n + 1) items

variable {image settings}

/-- A descriptor has one module and one table of thunks. -/
theorem EntersModule.unique {offset lookup lookup' : Nat} {moduleName moduleName' : String}
    (h : image.EntersModule settings offset moduleName lookup)
    (h' : image.EntersModule settings offset moduleName' lookup') :
    moduleName = moduleName' ∧ lookup = lookup' := by
  obtain ⟨⟨fileName, hname, hstem⟩, hlookup⟩ := h
  obtain ⟨⟨fileName', hname', hstem'⟩, hlookup'⟩ := h'
  cases hname.symm.trans hname'
  exact ⟨hstem.unique hstem', Except.ok.inj (hlookup.symm.trans hlookup')⟩

/-- A reader that may take more thunks meets the same items first, and others only if the limit was
met. -/
theorem Declares.append_of_le {c : ImportCursor} {n m : Nat} {items items' : List (Option Symbol)}
    (h : image.Declares settings c n items) (h' : image.Declares settings c m items')
    (hle : n ≤ m) : ∃ rest, items' = items ++ rest ∧ (rest = [] ∨ n ≤ items.length) := by
  induction h generalizing m items' with
  | resolved hresolve _ ih =>
    cases h' with
    | resolved hresolve' hrest =>
      cases hresolve.symm.trans hresolve'
      exact ih hrest hle
    | unresolved hnone => exact absurd hresolve (hnone _)
  | unresolved hnone =>
    cases h' with
    | resolved hresolve _ => exact absurd hresolve (hnone _)
    | unresolved _ => exact ⟨[], rfl, .inl rfl⟩
  | outside hout =>
    cases h' with
    | outside _ => exact ⟨[], rfl, .inl rfl⟩
    | terminator hin | entered hin | passed hin => omega
  | terminator hin hzero =>
    cases h' with
    | outside hout => omega
    | terminator _ _ => exact ⟨[], rfl, .inl rfl⟩
    | entered _ hne | passed _ hne => exact absurd hzero hne
  | entered hin hne henters _ ih =>
    cases h' with
    | outside hout => omega
    | terminator _ hzero => exact absurd hzero hne
    | entered _ _ henters' hrest =>
      obtain ⟨rfl, rfl⟩ := henters.unique henters'
      exact ih hrest hle
    | passed _ _ hnone _ => exact absurd henters (hnone _ _)
  | passed hin hne hnone _ ih =>
    cases h' with
    | outside hout => omega
    | terminator _ hzero => exact absurd hzero hne
    | entered _ _ henters _ => exact absurd henters (hnone _ _)
    | passed _ _ _ hrest =>
      obtain ⟨rest, rfl, hlimit⟩ := ih hrest hle
      exact ⟨rest, rfl, hlimit.imp id Nat.le_succ_of_le⟩
  | limit hstop _ =>
    cases hstop
    exact ⟨items', rfl, .inr (Nat.zero_le _)⟩
  | last hin hzero _ ih =>
    cases h' with
    | limit _ => omega
    | last _ _ hrest => exact ih hrest hle
    | cut hout _ => omega
    | thunk _ hvalue hne _ => exact absurd (hvalue.symm.trans hzero) hne
  | cut hout _ ih =>
    cases h' with
    | limit _ => omega
    | last hin _ _ => omega
    | cut _ hrest =>
      obtain ⟨rest, rfl, hlimit⟩ := ih hrest hle
      exact ⟨rest, rfl, hlimit.imp id Nat.le_succ_of_le⟩
    | thunk hin _ _ _ => omega
  | thunk hin hvalue hne _ ih =>
    cases h' with
    | limit _ => omega
    | last _ hzero _ => exact absurd (hvalue.symm.trans hzero) hne
    | cut hout _ => omega
    | thunk _ hvalue' _ hrest =>
      cases hvalue.symm.trans hvalue'
      obtain ⟨rest, rfl, hlimit⟩ := ih hrest (Nat.le_of_succ_le_succ hle)
      exact ⟨rest, rfl, hlimit.imp id Nat.succ_le_succ⟩
  | stop => exact ⟨items', rfl, .inr (Nat.zero_le _)⟩
  | more _ ih =>
    cases h' with
    | stop => omega
    | more hrest => exact ih hrest hle

/-- A reader has no choices. -/
theorem Declares.unique {c : ImportCursor} {n : Nat} {items items' : List (Option Symbol)}
    (h : image.Declares settings c n items) (h' : image.Declares settings c n items') :
    items = items' := by
  obtain ⟨rest, rfl, -⟩ := h.append_of_le h' (Nat.le_refl n)
  obtain ⟨rest', hsame, -⟩ := h'.append_of_le h (Nat.le_refl n)
  have hlength := congrArg List.length hsame
  simp only [List.length_append] at hlength
  rw [List.eq_nil_of_length_eq_zero (show rest.length = 0 by omega), List.append_nil]

/-- No more symbols are met than thunks may be taken. -/
theorem Declares.countP_le {c : ImportCursor} {n : Nat} {items : List (Option Symbol)}
    (h : image.Declares settings c n items) : items.countP Option.isSome ≤ n := by
  induction h with
  | resolved _ _ ih | entered _ _ _ _ ih | limit _ ih | last _ _ _ ih | more _ ih => exact ih
  | unresolved _ | outside _ | terminator _ _ | stop => exact Nat.zero_le _
  | passed _ _ _ _ ih | cut _ _ ih => simpa using ih
  | thunk _ _ _ _ ih =>
    rw [List.countP_cons]
    split <;> omega

/-- Where every item is a symbol, they are the first ones of what a reader meets that may take more
thunks. -/
theorem Declares.eq_take {c : ImportCursor} {n m : Nat} {items items' : List (Option Symbol)}
    (h : image.Declares settings c n items) (hall : ∀ item ∈ items, item.isSome = true)
    (h' : image.Declares settings c m items') (hle : n ≤ m) : items = items'.take n := by
  have hlength : items.length ≤ n := by
    rw [← List.countP_eq_length.mpr hall]
    exact h.countP_le
  obtain ⟨rest, rfl, rfl | hlimit⟩ := h.append_of_le h' hle
  · rw [List.append_nil, List.take_of_length_le hlength]
  · rw [Nat.le_antisymm hlimit hlength, List.take_left]

/-- A reader comes to an end, since every descriptor takes room in the file. -/
theorem exists_declares_thunk {descriptor : Nat}
    (hnext : ∀ n, ∃ items, image.Declares settings (.next (descriptor + 20)) n items)
    (moduleName : String) (lookup n index : Nat) :
    ∃ items, image.Declares settings (.thunk descriptor moduleName lookup index) n items := by
  induction n generalizing index with
  | zero =>
    obtain ⟨items, hitems⟩ := hnext 0
    exact ⟨items, .limit hitems⟩
  | succ n ih =>
    obtain ⟨items, hitems⟩ := hnext (n + 1)
    rcases Nat.lt_or_ge image.buffer.size
      (lookup + index * image.kind.thunkSize + image.kind.thunkSize) with hout | hin
    · exact ⟨none :: items, .cut hout hitems⟩
    · by_cases hzero :
        image.buffer.number (lookup + index * image.kind.thunkSize) image.kind.thunkSize = 0
      · exact ⟨items, .last hin hzero hitems⟩
      · obtain ⟨rest, hrest⟩ := ih (index + 1)
        exact ⟨_ :: rest, .thunk hin rfl hzero hrest⟩

/-- Behind every descriptor there is an end, at the latest where the buffer ends. -/
theorem exists_declares_descriptor (room : Nat) {offset : Nat}
    (hroom : image.buffer.size < offset + room) (n : Nat) :
    ∃ items, image.Declares settings (.descriptor offset) n items := by
  induction room generalizing offset n with
  | zero => exact ⟨[none], .outside (by omega)⟩
  | succ room ih =>
    have hnext : ∀ n, ∃ items, image.Declares settings (.next (offset + 20)) n items := by
      intro n
      cases n with
      | zero => exact ⟨[], .stop⟩
      | succ n =>
        obtain ⟨items, hitems⟩ := ih (show image.buffer.size < offset + 20 + room by omega) (n + 1)
        exact ⟨items, .more hitems⟩
    rcases Nat.lt_or_ge image.buffer.size (offset + 20) with hout | hin
    · exact ⟨[none], .outside hout⟩
    by_cases hzero : image.buffer.number offset 4 = 0
    · exact ⟨[], .terminator hin hzero⟩
    by_cases henters : ∃ moduleName lookup, image.EntersModule settings offset moduleName lookup
    · obtain ⟨moduleName, lookup, henters⟩ := henters
      obtain ⟨items, hitems⟩ := exists_declares_thunk hnext moduleName lookup n 0
      exact ⟨items, .entered hin hzero henters hitems⟩
    · obtain ⟨items, hitems⟩ := hnext n
      refine ⟨none :: items, .passed hin hzero (fun moduleName lookup h => ?_) hitems⟩
      exact henters ⟨moduleName, lookup, h⟩

variable (image settings) in
/-- What an image declares is some list of items, for any number of thunks that may be taken. -/
theorem exists_declares (n : Nat) : ∃ items, image.Declares settings image.importCursor n items := by
  unfold importCursor
  by_cases hresolve : ∃ offset,
    image.resolve (image.directory importSlot).virtualAddress.toNat = .ok offset
  · obtain ⟨offset, hoffset⟩ := hresolve
    obtain ⟨items, hitems⟩ := exists_declares_descriptor (image.buffer.size + 1)
      (show image.buffer.size < offset + (image.buffer.size + 1) by omega) n
    exact ⟨items, .resolved hoffset hitems⟩
  · exact ⟨[none], .unresolved fun offset hoffset => hresolve ⟨offset, hoffset⟩⟩

end Image

/-! ### Symbols at free addresses -/

/-- The symbols that go into a table in which some addresses are taken. -/
def admitted : List UInt64 → List (Option Symbol) → List Symbol
  | _, [] => []
  | taken, none :: items => admitted taken items
  | taken, some s :: items =>
    if s.address ∈ taken then admitted taken items
    else s :: admitted (taken ++ [s.address]) items

/-- What is admitted first takes its addresses from what comes behind. -/
theorem admitted_append (taken : List UInt64) (items rest : List (Option Symbol)) :
    admitted taken (items ++ rest) = admitted taken items ++
      admitted (taken ++ (admitted taken items).map Symbol.address) rest := by
  induction items generalizing taken with
  | nil => simp [admitted]
  | cons item items ih =>
    cases item with
    | none => exact ih taken
    | some s =>
      by_cases h : s.address ∈ taken
      · simp only [List.cons_append, admitted, if_pos h]
        exact ih taken
      · simp only [List.cons_append, admitted, if_neg h, ih, List.map_cons, List.append_assoc,
          List.nil_append]

/-- No more symbols are admitted than there are items. -/
theorem length_admitted_le (taken : List UInt64) (items : List (Option Symbol)) :
    (admitted taken items).length ≤ items.length := by
  induction items generalizing taken with
  | nil => exact Nat.le_refl 0
  | cons item items ih =>
    cases item with
    | none => exact Nat.le_succ_of_le (ih taken)
    | some s =>
      by_cases h : s.address ∈ taken
      · rw [admitted, if_pos h]
        exact Nat.le_succ_of_le (ih taken)
      · rw [admitted, if_neg h]
        exact Nat.succ_le_succ (ih _)

/-- If as many symbols go in as there are items, every item is a symbol and goes in. -/
theorem eq_map_some_of_length_le {taken : List UInt64} {items : List (Option Symbol)}
    (h : items.length ≤ (admitted taken items).length) :
    items = (admitted taken items).map some := by
  induction items generalizing taken with
  | nil => rfl
  | cons item items ih =>
    have hle := length_admitted_le taken items
    cases item with
    | none =>
      rw [admitted, List.length_cons] at h
      omega
    | some s =>
      by_cases hs : s.address ∈ taken
      · rw [admitted, if_pos hs, List.length_cons] at h
        omega
      · rw [admitted, if_neg hs] at h ⊢
        rw [List.map_cons, ← ih (Nat.le_of_succ_le_succ h)]

end PeListing
