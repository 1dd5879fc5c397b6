import PeListing.Proofs.Utf8Text
import PeListing.Proofs.WalkResults

/-!
# Names are exact and bounded

A name in a file is a run of bytes that ends at a zero byte, at a limit or with the file
(`Buffer.runAt`). Such a run always gives a text, which holds no NUL and at most as many characters as
the run has bytes, and which is the encoded text where the run is UTF-8. The limit of the settings
therefore bounds every name that comes from the file into a table (`names_bounded`).

For the table, `w.Keeps fits good` says that a walk puts symbols that fit into it and no others,
wherever it ends. There is one rule for each of the steps that walks are made of.
-/

namespace PeListing

/-! ### Single names -/

/-- The bytes from an offset up to the first zero byte, `limit` bytes or the end. -/
def Buffer.runAt (b : Buffer) (offset limit : Nat) : List UInt8 :=
  ((b.toList.drop offset).take limit).takeWhile (· != 0)

/-- A text without NUL of `limit` characters at most. -/
structure BoundedName (limit : Nat) (text : String) : Prop where
  nul_not_mem : '\x00' ∉ text.toList
  length_le : text.length ≤ limit

namespace Buffer

variable (b : Buffer) (offset limit : Nat)

/-- The bytes of a name end before the first zero. -/
theorem zero_not_mem_runAt : 0 ∉ b.runAt offset limit := by
  intro h
  simpa using List.all_eq_true.mp List.all_takeWhile 0 h

/-- The bytes of a name are no more than the limit. -/
theorem length_runAt_le : (b.runAt offset limit).length ≤ limit :=
  Nat.le_trans (List.takeWhile_sublist _).length_le (List.length_take_le _ _)

/-- A name has no NUL and is no longer than the limit allows. -/
theorem boundedName_runAt : BoundedName limit (Utf8.lossy (b.runAt offset limit)) :=
  ⟨Utf8.nul_not_mem_lossy (b.zero_not_mem_runAt offset limit),
    Nat.le_trans (Utf8.length_lossy_le _) (b.length_runAt_le offset limit)⟩

variable {b offset}

/-- The sum of an offset and a limit stops at the last word, which is behind every buffer. -/
theorem nameBytes_eq {ε : Type} (h : offset < b.size) :
    (b.nameBytes offset limit : Except (Fault ε) (List UInt8)) = .ok (b.runAt offset limit) := by
  have hsize : b.size < 0x8000000000000000 := b.size_lt
  have hlimit : Word.limit = 0x10000000000000000 := rfl
  have hlength : (b.toList.drop offset).length = b.size - offset := by simp
  have hstart : offset ≤ min (Word.satAdd offset limit) b.size := by
    unfold Word.satAdd
    omega
  have hwindow : (b.toList.drop offset).take (min (Word.satAdd offset limit) b.size - offset) =
      (b.toList.drop offset).take limit := by
    rw [List.take_eq_take_iff, hlength]
    unfold Word.satAdd
    omega
  have hidx : ((b.toList.drop offset).take limit).findIdx (· == 0) ≤
    ((b.toList.drop offset).take limit).length := List.findIdx_le_length
  have hzero : (fun a : UInt8 => !(a != 0)) = (· == 0) := by
    funext a
    rw [bne, Bool.not_not]
  unfold nameBytes
  rw [range_of_le hstart (Nat.min_le_right _ _), hwindow]
  change Select.range _ 0 _ = _
  rw [Select.range_of_le (Nat.zero_le _) hidx, runAt, List.drop_zero, Nat.sub_zero,
    List.takeWhile_eq_take_findIdx_not, hzero]

/-- A name inside the buffer is the text of its bytes. -/
theorem name_eq (h : offset < b.size) :
    b.name offset limit = .ok (Utf8.lossy (b.runAt offset limit)) := by
  rw [name, if_pos h, nameBytes_eq limit h]
  rfl

end Buffer

/-- The stem of a bounded name is bounded. -/
theorem BoundedName.stem {limit : Nat} {stem fileName : String} (h : BoundedName limit fileName)
    (hstem : IsStemOf stem fileName) : BoundedName limit stem := by
  rcases hstem with ⟨extension, rfl, -⟩ | ⟨-, rfl⟩
  · obtain ⟨hnul, hlength⟩ := h
    simp only [String.toList_append, List.mem_append, not_or] at hnul
    simp only [String.length_append] at hlength
    exact ⟨hnul.1.1, by omega⟩
  · exact h

/-- A symbol whose module has a bounded name, and which has one itself unless it stands for the entry
point or is known by a number only. -/
def Symbol.Bounded (limit : Nat) (s : Symbol) : Prop :=
  BoundedName limit s.moduleName ∧
    (s.name = Symbol.entryPointName ∨ (∃ n : UInt32, s.name = Symbol.ordinalName n.toNat) ∨
      BoundedName limit s.name)

/-! ### Tables -/

/-- All symbols of the table have a property. -/
def Progress.Holds (fits : Symbol → Prop) (p : Progress) : Prop := ∀ s ∈ p.table.toList, fits s

/-- A table that takes a fitting symbol holds fitting symbols. -/
theorem Progress.Holds.insert {fits : Symbol → Prop} {p : Progress} (h : p.Holds fits)
    {s : Symbol} (hs : fits s) (phase : Phase) : (p.insert phase s).Holds fits := by
  intro x hx
  change x ∈ (p.table.insert s).toList at hx
  rw [SymbolTable.toList_insert_eq_append, List.mem_append, List.mem_cons] at hx
  rcases hx with hx | rfl | hx
  · exact h x (List.mem_of_mem_take hx)
  · exact hs
  · exact h x (List.mem_of_mem_drop hx)

namespace Walk

variable {α β : Type}

/-- Wherever a walk ends, the symbols of the table have a property, and so has its value. -/
def Keeps (w : Walk α) (fits : Symbol → Prop) (good : α → Prop) : Prop :=
  ∀ p : Progress, p.Holds fits →
    w.Meets p (fun a q => good a ∧ q.Holds fits) fun _ q => q.Holds fits

namespace Keeps

variable {fits : Symbol → Prop} {good : α → Prop} {good' : β → Prop} {w : Walk α}

/-- A value leaves the table as it is. -/
theorem pure {a : α} (h : good a) : (Pure.pure a : Walk α).Keeps fits good :=
  fun _ hp => .pure ⟨h, hp⟩

/-- Of a walk that ends in a defect nothing is asked. -/
theorem throw (cause : Defect) : (throw (.defect cause) : Walk α).Keeps fits good :=
  fun _ hp => .throw hp

/-- A sequence keeps the symbols fitting if each of its steps does. -/
theorem bind {f : α → Walk β} (hw : w.Keeps fits good)
    (hf : ∀ a, good a → (f a).Keeps fits good') : (w >>= f).Keeps fits good' :=
  fun p hp => (hw p hp).bind fun a q hq => hf a hq.1 q hq.2

/-- Looking at the progress changes nothing. -/
theorem get_bind {f : Progress → Walk β} (hf : ∀ p, (f p).Keeps fits good') :
    (get >>= f).Keeps fits good' := fun p hp => .get_bind (hf p p hp)

/-- An event leaves the table as it is. -/
theorem note (e : Event) : (Walk.note e).Keeps fits fun _ => True :=
  fun _ hp => .note ⟨trivial, hp⟩

/-- A fitting symbol may be inserted. -/
theorem insert {s : Symbol} (hs : fits s) (phase : Phase) :
    (Walk.insert phase s).Keeps fits fun _ => True := fun _ hp => ⟨trivial, hp.insert hs phase⟩

/-- Meeting an imported function leaves the table as it is. -/
theorem countImport : Walk.countImport.Keeps fits fun _ => True := by
  intro p hp
  have hcount : (Walk.countImport >>= Pure.pure).Meets p (fun _ q => True ∧ q.Holds fits)
      fun _ q => q.Holds fits := .countImport_bind (.pure ⟨trivial, hp⟩)
  rwa [bind_pure] at hcount

/-- A computation beside the walk leaves the table as it is. -/
theorem liftM {x : Except (Fault Defect) α} (h : ∀ a, x = .ok a → good a) :
    (MonadLiftT.monadLift x : Walk α).Keeps fits good :=
  fun _ hp => .liftM (fun a ha => ⟨h a ha, hp⟩) fun _ _ => hp

/-- A computation of whose value nothing is asked. -/
theorem read (x : Except (Fault Defect) α) :
    (MonadLiftT.monadLift x : Walk α).Keeps fits fun _ => True := liftM fun _ _ => trivial

/-- A computation of whose value nothing is asked, and that cannot leave the range of a number. -/
theorem read_defect (x : Except Defect α) :
    (MonadLiftT.monadLift x : Walk α).Keeps fits fun _ => True :=
  fun _ hp => .liftM_defect (fun _ _ => ⟨trivial, hp⟩) fun _ _ => hp

/-- A step that may be passed over. -/
theorem recover {policy : UnresolvedPolicy} {entry : Entry} (hw : w.Keeps fits good) :
    (Walk.recover policy entry w).Keeps fits fun a? => ∀ a ∈ a?, good a := by
  refine fun p hp => .recover ((hw p hp).mono ?_ ?_)
  · rintro a q ⟨ha, hq⟩
    exact ⟨fun a' ha' => Option.some.inj ha' ▸ ha, hq⟩
  · intro cause q hq
    split
    · exact ⟨nofun, hq⟩
    · exact hq

end Keeps

variable (image : Image) (settings : SymbolSettings)

/-- A name that was read is bounded. -/
theorem boundedName_of_readName {rva : Nat} {name : String}
    (h : readName image settings rva = .ok name) :
    BoundedName settings.maxNameLength.toNat name := by
  obtain ⟨offset, hoffset, hname⟩ := exists_ok_of_bind h
  have hlt := (image.resolve_yields rva).of_ok hoffset
  rw [Buffer.name_eq _ hlt] at hname
  cases hname
  exact image.buffer.boundedName_runAt offset _

/-- The name of a module is bounded. -/
theorem boundedName_of_readModuleName {rva : UInt32} {moduleName : String}
    (h : readModuleName image settings rva = .ok moduleName) :
    BoundedName settings.maxNameLength.toNat moduleName := by
  obtain ⟨fileName, hname, hstem⟩ := readModuleName_eq_ok_iff.mp h
  exact (boundedName_of_readName image settings hname).stem hstem

/-- The names that functions have so far are bounded. -/
def BoundedNames (names : Array (Option String)) : Prop :=
  ∀ name, some name ∈ names.toList → BoundedName settings.maxNameLength.toNat name

/-! ### Exports -/

/-- One step: a name that is paired is bounded. -/
theorem pairName_keeps {fits : Symbol → Prop} (namesOffset ordinalsOffset index : Nat)
    {names : Array (Option String)} (hnames : BoundedNames settings names) :
    (pairName image settings namesOffset ordinalsOffset index names).Keeps fits
      (BoundedNames settings) := by
  have hname : (do
      let rva ← image.buffer.tableU32 namesOffset index
      readName image settings rva.toNat : Walk String).Keeps fits
        (BoundedName settings.maxNameLength.toNat) :=
    Keeps.bind (.read_defect _) fun rva _ =>
      .liftM fun _ hok => boundedName_of_readName image settings hok
  unfold pairName
  refine Keeps.bind (.recover (.read_defect _)) ?_
  intro ordinal? _
  split
  · exact .pure hnames
  · split
    · exact .bind (.note _) fun _ _ => .pure hnames
    · exact .pure hnames
    · refine .bind (.recover hname) fun name? hname? => ?_
      split
      · exact .pure hnames
      · next name =>
        refine .liftM fun names' hok other hother => ?_
        unfold Select.replace at hok
        split at hok
        · cases hok
          rw [Array.toList_set] at hother
          rcases List.mem_or_eq_of_mem_set hother with hother | heq
          · exact hnames other hother
          · exact Option.some.inj heq ▸ hname? name rfl
        · cases hok

/-- The run: all names that are paired are bounded. -/
theorem pairNames_keeps {fits : Symbol → Prop} (namesOffset ordinalsOffset count index : Nat)
    {names : Array (Option String)} (hnames : BoundedNames settings names) :
    (pairNames image settings namesOffset ordinalsOffset count index names).Keeps fits
      (BoundedNames settings) := by
  induction count generalizing index names with
  | zero => exact .pure hnames
  | succ count ih =>
    unfold pairNames
    refine (pairName_keeps image settings namesOffset ordinalsOffset index hnames).bind ?_
    intro names hnames
    exact ih (index + 1) hnames

/-- The names of the exports are bounded. -/
theorem exportNames_keeps {fits : Symbol → Prop} (directory : ExportDirectory)
    (functionCount nameCount : Nat) :
    (exportNames image settings directory functionCount nameCount).Keeps fits
      (BoundedNames settings) := by
  have hunnamed : BoundedNames settings (Array.replicate functionCount none) := by
    intro name hname
    simp at hname
  unfold exportNames
  dsimp only
  split
  · exact .pure hunnamed
  · refine .bind (.read _) fun namesOffset _ => ?_
    refine .bind (.read _) fun ordinalsOffset _ => ?_
    exact pairNames_keeps image settings namesOffset ordinalsOffset nameCount 0 hunnamed

/-- The exports are inserted with bounded names. -/
theorem insertExports_keeps (directory : ExportDirectory) {moduleName : String}
    (hmodule : BoundedName settings.maxNameLength.toNat moduleName) (functionsOffset : Nat)
    {names : List (Option String)}
    (hnames : ∀ name, some name ∈ names → BoundedName settings.maxNameLength.toNat name)
    (index inserted : Nat) :
    (insertExports image settings directory moduleName functionsOffset names index
      inserted).Keeps (Symbol.Bounded settings.maxNameLength.toNat) fun _ => True := by
  induction names generalizing index inserted with
  | nil => exact .pure trivial
  | cons name? names ih =>
    have hrest := ih fun name hname => hnames name (List.mem_cons_of_mem _ hname)
    unfold insertExports
    refine Keeps.bind (.recover (.read_defect _)) ?_
    intro slot? _
    split
    · exact hrest _ _
    · split
      · exact hrest _ _
      · refine .bind (.insert ⟨hmodule, .inr ?_⟩ .exports) fun _ _ =>
          .bind (.read _) fun _ _ => hrest _ _
        cases name? with
        | none => exact .inl ⟨_, rfl⟩
        | some name => exact .inr (hnames name List.mem_cons_self)

/-- Cutting the number of functions leaves the table as it is. -/
theorem clampExports_keeps {fits : Symbol → Prop} (declared : UInt32) :
    (clampExports settings declared).Keeps fits fun _ => True := by
  unfold clampExports
  split
  · exact .bind (.note _) fun _ _ => .pure trivial
  · exact .pure trivial

/-- The exports of a directory have bounded names. -/
theorem walkExports_keeps (rva : UInt32) : (walkExports image settings rva).Keeps
    (Symbol.Bounded settings.maxNameLength.toNat) fun _ => True := by
  unfold walkExports
  refine .bind (.read _) fun offset _ => ?_
  refine .bind (.read_defect _) fun directory _ => ?_
  refine .bind (.liftM fun _ hok => boundedName_of_readModuleName image settings hok) ?_
  intro moduleName hmodule
  refine .bind (.insert ⟨hmodule, .inl rfl⟩ .exports) fun _ _ => ?_
  refine (clampExports_keeps settings _).bind fun functionCount _ => ?_
  split
  · exact .note _
  · refine (exportNames_keeps image settings directory _ _).bind fun names hnames => ?_
    refine .bind (.read _) fun functionsOffset _ => ?_
    refine (insertExports_keeps image settings directory hmodule functionsOffset hnames 0 0).bind
      fun inserted _ => ?_
    exact .note _

/-! ### Imports -/

/-- A thunk gives a number or a bounded name. -/
theorem thunkName_bounded {thunk : Thunk} {name : Except (Fault Defect) String}
    (h : thunkName image settings thunk = some name) {text : String} (htext : name = .ok text) :
    (∃ n : UInt32, text = Symbol.ordinalName n.toNat) ∨
      BoundedName settings.maxNameLength.toNat text := by
  subst htext
  cases thunk with
  | stop => cases h
  | ordinal number =>
    cases h
    exact .inl ⟨number.toUInt32, rfl⟩
  | byName rva =>
    obtain ⟨start, -, hname⟩ := exists_ok_of_bind (Option.some.inj h)
    exact .inr (boundedName_of_readName image settings hname)

/-- The run: the thunks of one descriptor. -/
theorem walkThunks_keeps (descriptor : ImportDescriptor) {moduleName : String}
    (hmodule : BoundedName settings.maxNameLength.toNat moduleName)
    (lookupOffset budget index : Nat) :
    (walkThunks image settings descriptor moduleName lookupOffset budget index).Keeps
      (Symbol.Bounded settings.maxNameLength.toNat) fun _ => True := by
  induction budget generalizing index with
  | zero => exact .pure trivial
  | succ budget ih =>
    unfold walkThunks
    refine .bind (.read_defect _) fun offset _ => ?_
    refine .bind (.read_defect _) fun thunk _ => ?_
    split
    · exact .pure trivial
    · next name hname =>
      have hsymbol : ∀ address, (importSymbol moduleName address name).Keeps
          (Symbol.Bounded settings.maxNameLength.toNat)
          (Symbol.Bounded settings.maxNameLength.toNat) := by
        intro address
        unfold importSymbol
        refine .get_bind fun p => ?_
        split
        · exact .bind (.throw _) fun _ => id
        · refine .bind (.liftM fun text hok => thunkName_bounded image settings hname hok) ?_
          intro text htext
          exact .pure ⟨hmodule, .inr htext⟩
      refine .bind .countImport fun _ _ => ?_
      refine .bind (.read _) fun address _ => ?_
      refine .bind (.read _) fun next _ => ?_
      refine .bind (.recover (hsymbol address)) fun symbol? hsymbol? => ?_
      split
      · exact ih next
      · next symbol => exact .bind (.insert (hsymbol? symbol rfl) .imports) fun _ _ => ih next

/-- The imports from one module have bounded names. -/
theorem walkDescriptor_keeps (descriptor : ImportDescriptor) :
    (walkDescriptor image settings descriptor).Keeps
      (Symbol.Bounded settings.maxNameLength.toNat) fun _ => True := by
  unfold walkDescriptor
  refine .bind (.liftM fun _ hok => boundedName_of_readModuleName image settings hok) ?_
  intro moduleName hmodule
  refine .bind (.read _) fun lookupOffset _ => ?_
  refine .get_bind fun p => ?_
  refine (walkThunks_keeps image settings descriptor hmodule lookupOffset _ 0).bind fun _ _ => ?_
  exact .note _

/-- The run: all descriptors. -/
theorem walkDescriptors_keeps (room offset modules : Nat) :
    (walkDescriptors image settings room offset modules).Keeps
      (Symbol.Bounded settings.maxNameLength.toNat) fun _ => True := by
  induction room generalizing offset modules with
  | zero => exact .throw _
  | succ room ih =>
    unfold walkDescriptors
    refine .bind (.read_defect _) fun descriptor _ => ?_
    split
    · exact .pure trivial
    · refine Keeps.bind (.recover (walkDescriptor_keeps image settings descriptor)) fun _ _ => ?_
      refine .bind (.read _) fun modules _ => ?_
      refine .get_bind fun p => ?_
      split
      · exact .bind (.note _) fun _ _ => .pure trivial
      · split
        · exact ih _ _
        · exact .throw _

/-- The imports of a directory have bounded names. -/
theorem walkImports_keeps (rva : UInt32) : (walkImports image settings rva).Keeps
    (Symbol.Bounded settings.maxNameLength.toNat) fun _ => True := by
  unfold walkImports
  refine .bind (.read _) fun offset _ => ?_
  refine (walkDescriptors_keeps image settings _ offset 0).bind fun modules _ => ?_
  exact .get_bind fun p => .note _

/-! ### The table of an image -/

/-- A directory that is absent leaves the table as it is, and one that is present is walked. -/
theorem walkDirectory_keeps {fits : Symbol → Prop} {policy : UnresolvedPolicy} {entry : Entry}
    {absent : Event} {walk : UInt32 → Walk Unit} (directory : DataDirectory)
    (hwalk : ∀ rva, (walk rva).Keeps fits fun _ => True) :
    (walkDirectory policy directory entry absent walk).Keeps fits fun _ => True := by
  unfold walkDirectory
  split
  · exact (Keeps.recover (hwalk _)).bind fun _ _ => .pure trivial
  · exact .note _

/-- The symbols of an image have bounded names. -/
theorem walkImage_keeps : (walkImage image settings).Keeps
    (Symbol.Bounded settings.maxNameLength.toNat) fun _ => True := by
  unfold walkImage
  refine (walkDirectory_keeps _ fun rva => walkExports_keeps image settings rva).bind fun _ _ => ?_
  refine (walkDirectory_keeps _ fun rva => walkImports_keeps image settings rva).bind fun _ _ => ?_
  exact .get_bind fun p => .note _

end Walk

/-- Every symbol of a table has bounded names. -/
theorem Image.bounded_of_mem {image : Image} {settings : SymbolSettings} {table : SymbolTable}
    (h : (image.buildSymbols settings).outcome = .ok table) {s : Symbol} (hs : s ∈ table.toList) :
    s.Bounded settings.maxNameLength.toNat := by
  have hstart : Progress.start.Holds (Symbol.Bounded settings.maxNameLength.toNat) :=
    fun _ hnone => absurd hnone List.not_mem_nil
  have hwalk := Walk.walkImage_keeps image settings .start hstart
  rw [Image.outcome_eq] at h
  cases hafter : (Walk.walkImage image settings).after .start with
  | mk result last =>
    rw [hafter] at h
    cases result with
    | error fault => cases h
    | ok _ =>
      cases h
      exact (hwalk.of_ok hafter).2 s hs

/-- **Names are exact and bounded.** Inside a buffer a name is read always. Its text is that of the
bytes up to the first zero byte, the limit or the end and depends on nothing else; it has no NUL and at
most as many characters as the limit says, and where those bytes are the encoding of some text it is
that text. In the table of an image, every name of a module is without NUL and within the limit of the
settings, and so is every name of a symbol but for that of the entry point and those made from a
number. -/
theorem names_bounded :
    (∀ (b : Buffer) (offset limit : Nat), offset < b.size →
      ∃ text, b.name offset limit = .ok text ∧
        text = Utf8.lossy (((b.toList.drop offset).take limit).takeWhile (· != 0)) ∧
        BoundedName limit text ∧
        ∀ s : String,
          s.toUTF8.data.toList = ((b.toList.drop offset).take limit).takeWhile (· != 0) →
            text = s) ∧
    ∀ (image : Image) (settings : SymbolSettings) (table : SymbolTable),
      (image.buildSymbols settings).outcome = .ok table → ∀ s ∈ table.toList,
        BoundedName settings.maxNameLength.toNat s.moduleName ∧
        (s.name = Symbol.entryPointName ∨ (∃ n : UInt32, s.name = Symbol.ordinalName n.toNat) ∨
          BoundedName settings.maxNameLength.toNat s.name) := by
  refine ⟨fun b offset limit h => ?_, fun _ _ _ h _ hs => Image.bounded_of_mem h hs⟩
  refine ⟨_, Buffer.name_eq limit h, rfl, b.boundedName_runAt offset limit, fun s hs => ?_⟩
  rw [Buffer.runAt, ← hs, Utf8.lossy_toUTF8]

/-- A name of one character in two bytes, and a table whose names are cut to one byte. -/
theorem names_bounded_sample :
    (∃ b : Buffer, b.toList = [0xC3, 0xA9, 0, 0x41] ∧ b.name 0 9 = .ok "é") ∧
      ∃ image table, Image.read Sample.linkedBuffer = .ok image ∧
        (image.buildSymbols { maxNameLength := 1 }).outcome = .ok table ∧
        ∀ s ∈ table.toList, BoundedName 1 s.moduleName := by
  refine ⟨⟨⟨⟨#[0xC3, 0xA9, 0, 0x41]⟩, by decide⟩, rfl, ?_⟩, ?_⟩
  · obtain ⟨text, hname, -, -, hexact⟩ :=
      names_bounded.1 ⟨⟨#[0xC3, 0xA9, 0, 0x41]⟩, by decide⟩ 0 9 (by decide)
    rw [hname, hexact "é" (by decide +kernel)]
  · have hfacts : (Image.read Sample.linkedBuffer).toOption.map (fun image =>
        (image.buildSymbols { maxNameLength := 1 }).outcome.isOk) = some true := by decide +kernel
    obtain ⟨image, hread, hok⟩ := Sample.exists_read_of_map hfacts
    cases houtcome : (image.buildSymbols { maxNameLength := 1 }).outcome with
    | error fault =>
      rw [houtcome] at hok
      cases hok
    | ok table =>
      exact ⟨image, table, hread, houtcome, fun s hs => (names_bounded.2 _ _ _ houtcome s hs).1⟩

end PeListing
