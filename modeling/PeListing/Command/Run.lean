import PeListing.Command.Options
import PeListing.Listing.Basic
import PeListing.Load
import PeListing.Log.Filter
import PeListing.Log.Line
import PeListing.Settings.Json
import PeListing.Symbol.Build
import PeListing.Symbol.Json

/-!
# Running a command

A command first settles which log records appear. Then it goes through stages: the settings, the
file, the image, the symbols, and then the listing or the symbol table. The first stage that fails
ends it. A listing is printed line by line while its code is decoded by a given disassembler, and
what has been printed stays printed when the command ends early.
-/

namespace PeListing

/-- What a command says besides its output. -/
inductive Notice where
  /-- A log record. -/
  | record (r : Log.Record)
  /-- A message to the user. -/
  | message (text : String)
  deriving DecidableEq, Repr

/-- What is printed for a notice. -/
def Notice.text (n : Notice) (logJson : Bool) : String :=
  match n with
  | .message text => text
  | .record r => if logJson then r.document else r.plain

/-- Why a command ends early. -/
inductive Abandoned where
  /-- A stage failed; the context says what was tried. -/
  | failed (context : Option String) (failure : Failure)
  /-- A number left the range of its word. -/
  | overflow
  /-- A position lies outside what it selects from. -/
  | outOfRange
  /-- A log directive cannot be cut into its parts. -/
  | uncut (text : String)
  deriving DecidableEq, Repr

namespace Abandoned

/-- The exit status of a command that ends early. -/
def exitStatus : Abandoned → Nat
  | .failed _ failure => failure.exitStatus
  | .overflow | .outOfRange | .uncut _ => 101

/-- The message to the user. -/
def message : Abandoned → String
  | .failed none failure => "error: " ++ failure.fullMessage
  | .failed (some context) failure => "error: " ++ context ++ ": " ++ failure.fullMessage
  | .overflow => "stopped: arithmetic overflow"
  | .outOfRange => "stopped: position out of range"
  | .uncut text => "stopped: " ++ (Log.Refusal.insideCharacter text).message

/-- A fault in a stage, whose defects are failures. -/
def ofFault {ε : Type} (failure : ε → Failure) : Fault ε → Abandoned
  | .defect cause => .failed none (failure cause)
  | .overflow => .overflow
  | .outOfRange => .outOfRange

end Abandoned

/-- What a command has done so far that its user sees. -/
structure Transcript where
  /-- What it has said, the latest first. -/
  notices : List Notice := []
  /-- What it has printed, the latest first. -/
  printed : List String := []

/-- Everything that has been printed. -/
def Transcript.output (t : Transcript) : String := String.join t.printed.reverse

/-- The log record of a listing that has been printed. -/
def ListingStats.record (stats : ListingStats) : Log.Record :=
  ⟨.info, "pedisasm", "listing written",
    [("instructions", .number stats.instructions), ("invalid_bytes", .number stats.invalidBytes),
      ("labels", .number stats.labels)]⟩

/-- A command in progress. What was said and printed stays so when the command ends early. -/
abbrev Session (α : Type) : Type := ExceptT Abandoned (StateM Transcript) α

namespace Session

/-- Says something. -/
def say (n : Notice) : Session Unit := modify fun t => { t with notices := n :: t.notices }

/-- Adds a log record. -/
def log (r : Log.Record) : Session Unit := say (.record r)

/-- Adds log records in order. -/
def logAll (records : List Log.Record) : Session Unit :=
  modify fun t => { t with notices := records.reverse.map .record ++ t.notices }

/-- Prints a text. -/
def print (text : String) : Session Unit := modify fun t => { t with printed := text :: t.printed }

/-- Ends the command early. -/
def fail {α : Type} (failure : Failure) (context : Option String := none) : Session α :=
  throw (.failed context failure)

/-- What a computation gives, whose defects are failures of the command. -/
def attempt {ε α : Type} (failure : ε → Failure) : Except (Fault ε) α → Session α
  | .ok a => return a
  | .error fault => throw (.ofFault failure fault)

/-- The filter of a list of log directives from which those that are refused are left out. The user
is told of each. -/
def lenientFilter (list : String) : Session Log.Filter := do
  let directives ← (Log.Filter.texts list).filterMapM fun text => do
    match Log.Directive.read text with
    | .ok d => return some d
    | .error (.insideCharacter text) => throw (.uncut text)
    | .error refusal =>
      say (.message ("ignoring `" ++ text ++ "`: " ++ refusal.message))
      return none
  return .ofDirectives directives

/-- The filter for the log. A list of directives in the environment, if it is right, takes the place
of the one among the options. -/
def chooseFilter (options : Options) (environment : Option String) : Session Log.Filter :=
  match environment.map Log.Filter.strict with
  | some (.ok filter) => return filter
  | some (.error (.insideCharacter text)) => throw (.uncut text)
  | _ => lenientFilter options.logLevel

/-- The settings in a file, or the defaults. The wording of what is wrong with a document is left
out of the message. -/
def readSettings (files : Files) : Option String → Session Settings
  | none => return {}
  | some path => do
    match files path with
    | .error e => fail (.settings (path ++ ": " ++ e.message))
    | .ok (.folder _) => fail (.settings (path ++ ": " ++ SystemError.isDirectory.message))
    | .ok (.file b) =>
      match String.fromUTF8? b.bytes with
      | none => fail (.settings (path ++ ": stream did not contain valid UTF-8"))
      | some text => do
        log ⟨.debug, "pedisasm::config", "loading configuration", [("path", .text path)]⟩
        match Settings.parse? text with
        | none => fail (.settings "<json>")
        | some settings => return settings

/-- The settings with what the options change in them. -/
def applyOptions (options : Options) (settings : Settings) : Settings where
  load := settings.load
  symbols := if options.skipUnresolved then { settings.symbols with unresolved := .skip }
    else settings.symbols
  listing := if options.noLabels then { settings.listing with showLabels := false }
    else settings.listing

/-- The file. -/
def loadFile (settings : LoadSettings) (files : Files) (path : String) : Session Buffer := do
  let attempt := load settings files path
  logAll attempt.records
  match attempt.outcome with
  | .ok b => return b
  | .error cause => fail (.file cause) (some ("cannot load " ++ path))

/-- The image in a file. -/
def readImage (b : Buffer) : Session Image := do
  let image ← attempt .image (Image.read b)
  log ⟨.debug, "pedisasm::formats::pe", "parsed PE headers",
    [("kind", .text image.kind.text), ("machine", .text image.machine.text),
      ("sections", .number image.sections.length)]⟩
  return image

/-- The symbols of an image. -/
def buildSymbols (settings : SymbolSettings) (image : Image) : Session SymbolTable := do
  let build := image.buildSymbols settings
  logAll (build.history.map Event.record)
  attempt .image build.outcome

/-- Tells the user how many entries were passed over, if any. -/
def warn (table : SymbolTable) : Session Unit :=
  if 0 < table.skipped then
    say (.message ("warning: " ++ Numeral.decimal table.skipped ++ " unresolved entries skipped"))
  else return ()

/-- A listing as part of a command. What it prints and logs, the command prints and logs, and a fault
in it ends the command. -/
def list {α : Type} (p : Printer α) : Session α := fun t =>
  let (result, out) := p.after {}
  (result.mapError (.ofFault .disassembly),
    ⟨out.records.map .record ++ t.notices, out.pieces ++ t.printed⟩)

/-- Prints the listing of an image. -/
def printListing (d : Disassembler.Core) (settings : ListingSettings) (image : Image)
    (table : SymbolTable) : Session Unit := do
  let stats ← list (image.printListing d table settings)
  log stats.record

/-- The text of a symbol table. -/
def writeSymbols (options : Options) (table : SymbolTable) : String :=
  if options.json then table.pretty ++ "\n" else table.render

/-- Does what the options ask for. -/
def command (d : Disassembler.Core) (options : Options) (files : Files) : Session Unit := do
  log ⟨.debug, "pedisasm::logging",
    if options.logJson then "tracing initialized (JSON mode)" else "tracing initialized", []⟩
  let settings := applyOptions options (← readSettings files options.settingsFile)
  let b ← loadFile settings.load files options.file
  let image ← readImage b
  let table ← buildSymbols settings.symbols image
  warn table
  if options.symbols then print (writeSymbols options table)
  else printListing d settings.listing image table

end Session

/-- What a command comes to. -/
structure Outcome where
  /-- The exit status. -/
  status : Nat
  /-- The output. -/
  output : String
  /-- What was said besides, in order, without the log records that are filtered out. -/
  notices : List Notice
  /-- Whether log records are printed as documents. -/
  logJson : Bool

namespace Outcome

/-- The lines of everything said besides the output. -/
def noticeLines (o : Outcome) : List String :=
  o.notices.flatMap fun n => Text.lines (n.text o.logJson)

/-- The lines that speak to the user. A line of a log record counts where it looks like one. -/
def messages (o : Outcome) : List String :=
  o.noticeLines.filter fun line => Text.startsWith "error: " line || Text.startsWith "warning: " line

/-- The log records. -/
def records (o : Outcome) : List Log.Record :=
  o.notices.filterMap fun
    | .message _ => none
    | .record r => some r

/-- The log records that are printed as documents. -/
def jsonRecords (o : Outcome) : List Log.Record := if o.logJson then o.records else []

end Outcome

/-- Whether a notice appears. -/
def Notice.passes (filter : Log.Filter) : Notice → Bool
  | .record r => filter.passes r
  | .message _ => true

/-- What has come of a command that has ended. -/
def Outcome.ofEnd (options : Options) (filter : Log.Filter) :
    Except Abandoned Unit × Transcript → Outcome
  | (.ok _, t) =>
    ⟨0, t.output, (t.notices.filter (Notice.passes filter)).reverse, options.logJson⟩
  | (.error reason, t) =>
    ⟨reason.exitStatus, t.output,
      ((.message reason.message :: t.notices).filter (Notice.passes filter)).reverse,
      options.logJson⟩

/-- Runs a command whose log is filtered, after something has been said already. -/
def Options.run (options : Options) (d : Disassembler.Core) (filter : Log.Filter) (files : Files)
    (said : List Notice := []) : Outcome :=
  .ofEnd options filter ((Session.command d options files).run.run ⟨said, []⟩)

/-- Runs a command with what the environment says about its log. -/
def Options.start (options : Options) (d : Disassembler.Core) (environment : Option String)
    (files : Files) : Outcome :=
  match (Session.chooseFilter options environment).run.run {} with
  | (.ok filter, t) => options.run d filter files t.notices
  | (.error reason, t) => .ofEnd options [] (.error reason, t)

/-- Does what a command line asks for. -/
def Request.start (d : Disassembler.Core) (environment : Option String) (files : Files) :
    Request → Outcome
  | .help => ⟨0, helpText, [], false⟩
  | .run options => options.start d environment files

end PeListing
