import PeListing.Proofs.Printing
import PeListing.Proofs.WalkBounds

/-!
# The stages of a command

A command needs settings, a file, an image and its symbols before it prints anything. What it needs
can be said without running it: `Options.settings?`, `Options.buffer?`, `Options.image?` and
`Options.table?` are each made from the ones before, so the first that is missing is the stage at
which the command ends. `Course` lists the seven ways in which a command can end, and every command
ends in one of them (`Session.command_follows`).

Up to the symbols a command prints nothing, and afterwards only a listing can be refused. It is
refused before its first line, so a command that fails has printed nothing. This holds for every
disassembler that can be set to each position of the code.
-/

namespace PeListing

/-! ### What a command needs -/

/-- The text in a file. -/
def Files.text? (files : Files) (path : String) : Option String :=
  match files path with
  | .ok (.file b) => String.fromUTF8? b.bytes
  | _ => none

/-- The bytes of a file that is neither empty nor too large. -/
def Files.contents? (files : Files) (settings : LoadSettings) (path : String) : Option Buffer :=
  match files path with
  | .ok (.file b) => if 0 < b.size ∧ b.size ≤ settings.maxFileSize.toNat then some b else none
  | _ => none

namespace Options

variable (options : Options) (files : Files)

/-- The settings in the settings file, or the defaults if the options name no such file. -/
def ownSettings? : Option Settings :=
  match options.settingsFile with
  | none => some {}
  | some path => (files.text? path).bind Settings.parse?

/-- The settings with what the options change in them. -/
def settings? : Option Settings :=
  (options.ownSettings? files).map (Session.applyOptions options)

/-- The bytes of the file. -/
def buffer? : Option Buffer :=
  (options.settings? files).bind fun settings => files.contents? settings.load options.file

/-- The image in the file. -/
def image? : Option Image := (options.buffer? files).bind fun b => (Image.read b).toOption

/-- The symbols of the image. -/
def table? : Option SymbolTable :=
  (options.settings? files).bind fun settings => (options.image? files).bind fun image =>
    (image.buildSymbols settings.symbols).outcome.toOption

variable {options files}

/-- Without settings there are no bytes. -/
theorem buffer?_eq_none (h : options.settings? files = none) : options.buffer? files = none := by
  rw [buffer?, h, Option.bind_none]

/-- Without bytes there is no image. -/
theorem image?_eq_none (h : options.buffer? files = none) : options.image? files = none := by
  rw [image?, h, Option.bind_none]

/-- Bytes that are not accepted give no image. -/
theorem image?_eq_none_of_defect {b : Buffer} {fault : Fault Defect}
    (hbuffer : options.buffer? files = some b) (hread : Image.read b = .error fault) :
    options.image? files = none := by
  rw [image?, hbuffer, Option.bind_some, hread]
  rfl

/-- Without an image there are no symbols. -/
theorem table?_eq_none (h : options.image? files = none) : options.table? files = none := by
  simp [table?, h]

/-- The image is what the bytes are read as. -/
theorem read_of_image? {b : Buffer} {image : Image} (hbuffer : options.buffer? files = some b)
    (himage : options.image? files = some image) : Image.read b = .ok image := by
  cases hread : Image.read b with
  | error fault => simp [image?_eq_none_of_defect hbuffer hread] at himage
  | ok image' =>
    rw [image?, hbuffer, Option.bind_some, hread] at himage
    rw [Option.some.inj himage]

end Options

/-- What the user is told about the symbols. -/
def SymbolTable.warnings (table : SymbolTable) : List String :=
  if 0 < table.skipped then
    ["warning: " ++ Numeral.decimal table.skipped ++ " unresolved entries skipped"]
  else []

/-! ### The single stages -/

namespace Transcript

/-- At most log records have been added. -/
def Logged (t t' : Transcript) : Prop :=
  ∃ records : List Log.Record, t' = { t with notices := records.map .record ++ t.notices }

namespace Logged

variable {t t' t'' : Transcript}

theorem refl (t : Transcript) : t.Logged t := ⟨[], rfl⟩

/-- Log records may be added to log records. -/
theorem trans (h : t.Logged t') (h' : t'.Logged t'') : t.Logged t'' := by
  obtain ⟨records, rfl⟩ := h
  obtain ⟨records', rfl⟩ := h'
  exact ⟨records' ++ records, by simp⟩

/-- Log records are not printed. -/
theorem output_eq (h : t.Logged t') : t'.output = t.output := by
  obtain ⟨records, rfl⟩ := h
  rfl

/-- Log records are not said to the user. -/
theorem spoken_eq (h : t.Logged t') : t'.spoken = t.spoken := by
  obtain ⟨records, rfl⟩ := h
  exact spoken_records records t.notices t.printed

end Logged

end Transcript

namespace Session

/-- A stage gives what there is to give, and otherwise ends the command with a failure of its own.
In both cases it adds at most log records. -/
def Supplies {α : Type} (stage : Session α) (given? : Option α) (own : Failure → Prop) : Prop :=
  match given? with
  | some a => ∀ t, ∃ t', t.Logged t' ∧ stage.after t = (.ok a, t')
  | none => ∀ t, ∃ t', t.Logged t' ∧
      ∃ context failure, own failure ∧ stage.after t = (.error (.failed context failure), t')

/-- A log record gives nothing and cannot fail. -/
theorem log_supplies (r : Log.Record) (own : Failure → Prop) : Supplies (log r) (some ()) own :=
  fun _ => ⟨_, ⟨[r], rfl⟩, rfl⟩

/-- The settings are read from their file, or the command ends for their sake. -/
theorem readSettings_supplies (options : Options) (files : Files) :
    Supplies (readSettings files options.settingsFile) (options.ownSettings? files)
      fun failure => ∃ reason, failure = .settings reason := by
  unfold Options.ownSettings? Files.text? readSettings
  cases options.settingsFile with
  | none => exact fun t => ⟨t, .refl t, rfl⟩
  | some path =>
    dsimp only
    rcases files path with e | ⟨b⟩ | size
    · exact fun t => ⟨t, .refl t, none, _, ⟨_, rfl⟩, rfl⟩
    · dsimp only
      cases String.fromUTF8? b.bytes with
      | none => exact fun t => ⟨t, .refl t, none, _, ⟨_, rfl⟩, rfl⟩
      | some text =>
        dsimp only [Option.bind_some]
        cases Settings.parse? text with
        | none => exact fun _ => ⟨_, ⟨[_], rfl⟩, none, _, ⟨_, rfl⟩, rfl⟩
        | some settings => exact fun _ => ⟨_, ⟨[_], rfl⟩, rfl⟩
    · exact fun t => ⟨t, .refl t, none, _, ⟨_, rfl⟩, rfl⟩

/-- The bytes that loading gives are those of a file whose size is right. -/
theorem toOption_outcome_load (settings : LoadSettings) (files : Files) (path : String) :
    (load settings files path).outcome.toOption = files.contents? settings path := by
  unfold load Files.contents? checkSize
  rcases files path with e | ⟨b⟩ | size
  · rfl
  · dsimp only
    split_ifs <;> first | rfl | omega
  · dsimp only
    split_ifs <;> rfl

/-- The file is read, or the command ends for its sake. -/
theorem loadFile_supplies (settings : LoadSettings) (files : Files) (path : String) :
    Supplies (loadFile settings files path) (files.contents? settings path)
      fun failure => ∃ cause, failure = .file cause := by
  rw [← toOption_outcome_load]
  unfold loadFile
  dsimp only
  cases (load settings files path).outcome with
  | error cause => exact fun _ => ⟨_, ⟨_, rfl⟩, _, _, ⟨cause, rfl⟩, rfl⟩
  | ok b => exact fun _ => ⟨_, ⟨_, rfl⟩, rfl⟩

/-- Reading an image gives the image or a defect of the format. -/
theorem readImage_supplies (b : Buffer) :
    Supplies (readImage b) (Image.read b).toOption
      fun failure => ∃ cause, Image.read b = .error (.defect cause) ∧ cause.OfFormat ∧
        failure = .image cause := by
  have hread := Image.read_yields b
  unfold readImage
  match Image.read b, hread with
  | .ok image, _ => exact fun _ => ⟨_, ⟨[_], rfl⟩, rfl⟩
  | .error (.defect cause), hformat =>
    exact fun t => ⟨t, .refl t, none, _, ⟨cause, rfl, hformat, rfl⟩, rfl⟩

/-- Building the symbols gives a table or a defect of resolution, and a defect only if none may be
passed over. -/
theorem buildSymbols_supplies (settings : SymbolSettings) (image : Image) :
    Supplies (buildSymbols settings image) (image.buildSymbols settings).outcome.toOption
      fun failure => ∃ cause, settings.unresolved = .abort ∧ cause.OfResolution ∧
        failure = .image cause := by
  have hbuild := image.buildSymbols_yields settings
  unfold buildSymbols
  dsimp only
  match (image.buildSymbols settings).outcome, hbuild with
  | .ok table, _ => exact fun _ => ⟨_, ⟨_, rfl⟩, rfl⟩
  | .error (.defect cause), ⟨habort, hresolution⟩ =>
    exact fun _ => ⟨_, ⟨_, rfl⟩, none, _, ⟨cause, habort, hresolution, rfl⟩, rfl⟩

/-- The user is told of entries that were passed over. -/
theorem warn_after (table : SymbolTable) (t : Transcript) :
    ∃ t', (warn table).after t = (.ok (), t') ∧ t'.output = t.output ∧
      t'.spoken = t.spoken ++ table.warnings := by
  unfold warn SymbolTable.warnings
  split
  · exact ⟨_, rfl, rfl, by simp [Transcript.spoken, Notice.spoken?]⟩
  · exact ⟨t, rfl, rfl, (List.append_nil _).symm⟩

end Session

/-! ### Whole commands -/

/-- How a command ends, with what it has said to the user and what it has printed by then. -/
inductive Course (d : Disassembler) (options : Options) (files : Files) :
    Except Abandoned Unit → List String → String → Prop
  /-- There are no settings. -/
  | unset {context : Option String} {reason : String} (hsettings : options.settings? files = none) :
    Course d options files (.error (.failed context (.settings reason))) [] ""
  /-- The file cannot be loaded. -/
  | unloaded {context : Option String} {cause : FileError} {settings : Settings}
      (hsettings : options.settings? files = some settings)
      (hbuffer : options.buffer? files = none) :
    Course d options files (.error (.failed context (.file cause))) [] ""
  /-- There is no image in the file. -/
  | unreadable {context : Option String} {cause : Defect} {settings : Settings} {b : Buffer}
      (hsettings : options.settings? files = some settings)
      (hbuffer : options.buffer? files = some b)
      (hread : Image.read b = .error (.defect cause)) (hformat : cause.OfFormat) :
    Course d options files (.error (.failed context (.image cause))) [] ""
  /-- An entry of the image does not resolve. -/
  | unresolved {context : Option String} {cause : Defect} {settings : Settings} {b : Buffer}
      {image : Image} (hsettings : options.settings? files = some settings)
      (hbuffer : options.buffer? files = some b) (himage : options.image? files = some image)
      (htable : options.table? files = none) (habort : settings.symbols.unresolved = .abort)
      (hresolution : cause.OfResolution) :
    Course d options files (.error (.failed context (.image cause))) [] ""
  /-- The code is for a machine that cannot be decoded. -/
  | undecodable {settings : Settings} {b : Buffer} {image : Image} {table : SymbolTable}
      (hsettings : options.settings? files = some settings)
      (hbuffer : options.buffer? files = some b) (himage : options.image? files = some image)
      (htable : options.table? files = some table) (hsymbols : options.symbols = false)
      (hmachine : image.machine = .ia64) :
    Course d options files (.error (.failed none (.disassembly (.undecodableMachine .ia64))))
      table.warnings ""
  /-- The symbols are printed. -/
  | symbols {settings : Settings} {b : Buffer} {image : Image} {table : SymbolTable}
      (hsettings : options.settings? files = some settings)
      (hbuffer : options.buffer? files = some b) (himage : options.image? files = some image)
      (htable : options.table? files = some table) (hsymbols : options.symbols = true) :
    Course d options files (.ok ()) table.warnings (Session.writeSymbols options table)
  /-- The listing is printed. -/
  | listing {settings : Settings} {b : Buffer} {image : Image} {table : SymbolTable}
      {written : WrittenListing} (hsettings : options.settings? files = some settings)
      (hbuffer : options.buffer? files = some b) (himage : options.image? files = some image)
      (htable : options.table? files = some table) (hsymbols : options.symbols = false)
      (hmachine : image.machine ≠ .ia64)
      (hwritten : image.writeListing d table settings.listing = .ok written) :
    Course d options files (.ok ()) table.warnings written.text

/-- A run of a command follows one of its courses. -/
def Session.Follows (d : Disassembler) (options : Options) (files : Files) (t : Transcript)
    (run : Except Abandoned Unit × Transcript) : Prop :=
  ∃ said printed, Course d options files run.1 said printed ∧
    run.2.output = t.output ++ printed ∧ run.2.spoken = t.spoken ++ said

namespace Session

variable {d : Disassembler} {options : Options} {files : Files} {t t' : Transcript}

/-- A command that ends before anything is printed or said. -/
theorem Follows.of_logged {ending : Except Abandoned Unit} (hlogged : t.Logged t')
    (h : Course d options files ending [] "") : Follows d options files t (ending, t') := by
  refine ⟨[], "", h, ?_, ?_⟩
  · rw [hlogged.output_eq, String.append_empty]
  · rw [hlogged.spoken_eq, List.append_nil]

/-- A command goes through a stage: it ends there, or it goes on with what the stage gives. -/
theorem Supplies.follows {α : Type} {stage : Session α} {given? : Option α}
    {own : Failure → Prop} (h : Supplies stage given? own) {f : α → Session Unit}
    (hlogged : t.Logged t')
    (hnone : given? = none → ∀ context failure, own failure →
      Course d options files (.error (.failed context failure)) [] "")
    (hsome : ∀ a, given? = some a → ∀ t'', t.Logged t'' →
      Follows d options files t ((f a).after t'')) :
    Follows d options files t ((stage >>= f).after t') := by
  cases given? with
  | some a =>
    obtain ⟨t'', hmore, hafter⟩ := h t'
    rw [after_bind_of_ok hafter]
    exact hsome a rfl t'' (hlogged.trans hmore)
  | none =>
    obtain ⟨t'', hmore, context, failure, hown, hafter⟩ := h t'
    rw [after_bind_of_error hafter]
    exact .of_logged (hlogged.trans hmore) (hnone rfl context failure hown)

/-- With its symbols at hand, a command prints what it is asked for. -/
theorem print_follows {settings : Settings} {b : Buffer} {image : Image} {table : SymbolTable}
    (hsettings : options.settings? files = some settings)
    (hbuffer : options.buffer? files = some b) (himage : options.image? files = some image)
    (htable : options.table? files = some table) (hlogged : t.Logged t') :
    Follows d options files t ((do
      warn table
      if options.symbols then print (writeSymbols options table)
      else printListing d settings.listing image table : Session Unit).after t') := by
  obtain ⟨t₁, hwarn, houtput, hspoken⟩ := warn_after table t'
  rw [hlogged.output_eq] at houtput
  rw [hlogged.spoken_eq] at hspoken
  rw [after_bind_of_ok hwarn]
  cases hsymbols : options.symbols with
  | true =>
    refine ⟨_, _, .symbols hsettings hbuffer himage htable hsymbols, ?_, hspoken⟩
    rw [← houtput]
    simp [after_print, Transcript.output, String.join_append]
  | false =>
    change Follows d options files t ((printListing d settings.listing image table).after t₁)
    by_cases hmachine : image.machine = .ia64
    · rw [printListing_after_of_ia64 hmachine d]
      refine ⟨_, _, .undecodable hsettings hbuffer himage htable hsymbols hmachine, ?_, hspoken⟩
      rw [houtput, String.append_empty]
    · obtain ⟨-, hsections⟩ := (Image.read_yields b).of_ok (Options.read_of_image? hbuffer himage)
      obtain ⟨written, t₂, hwritten, hprinted, hlisted, -, hsaid⟩ :=
        printListing_after hsections hmachine d settings.listing table t₁
      rw [hprinted]
      refine ⟨_, _, .listing hsettings hbuffer himage htable hsymbols hmachine hwritten, ?_, ?_⟩
      · rw [hlisted, houtput]
      · rw [hsaid, hspoken]

/-- **Every command follows one of its courses.** -/
theorem command_follows (d : Disassembler) (options : Options) (files : Files) (t : Transcript) :
    Follows d options files t ((command d options files).after t) := by
  unfold command
  refine (log_supplies _ fun _ => False).follows (.refl t) (fun h => nomatch h) fun _ _ t₁ h₁ => ?_
  refine (readSettings_supplies options files).follows h₁ ?_ fun ownSettings hown t₂ h₂ => ?_
  · rintro hnone context _ ⟨reason, rfl⟩
    exact .unset (by rw [Options.settings?, hnone, Option.map_none])
  have hsettings : options.settings? files = some (applyOptions options ownSettings) := by
    rw [Options.settings?, hown, Option.map_some]
  -- from here on only the settings as a whole matter
  dsimp only
  generalize applyOptions options ownSettings = settings at hsettings ⊢
  have hbuffer : options.buffer? files = files.contents? settings.load options.file := by
    rw [Options.buffer?, hsettings, Option.bind_some]
  refine (loadFile_supplies settings.load files options.file).follows h₂ ?_ fun b hb t₃ h₃ => ?_
  · rintro hnone context _ ⟨cause, rfl⟩
    exact .unloaded hsettings (hbuffer.trans hnone)
  rw [hb] at hbuffer
  have himage : options.image? files = (Image.read b).toOption := by
    rw [Options.image?, hbuffer, Option.bind_some]
  refine (readImage_supplies b).follows h₃ ?_ fun image hread t₄ h₄ => ?_
  · rintro - context _ ⟨cause, hdefect, hformat, rfl⟩
    exact .unreadable hsettings hbuffer hdefect hformat
  rw [hread] at himage
  have htable : options.table? files =
      (image.buildSymbols settings.symbols).outcome.toOption := by
    rw [Options.table?, hsettings, Option.bind_some, himage, Option.bind_some]
  refine (buildSymbols_supplies settings.symbols image).follows h₄ ?_ fun table hbuilt t₅ h₅ => ?_
  · rintro hnone context _ ⟨cause, habort, hresolution, rfl⟩
    exact .unresolved hsettings hbuffer himage (htable.trans hnone) habort hresolution
  exact print_follows hsettings hbuffer himage (htable.trans hbuilt) h₅

end Session

end PeListing
