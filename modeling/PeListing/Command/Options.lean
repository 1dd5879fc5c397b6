/-!
# Command-line options

The command line names one file and may change how it is treated. `Request.ofArguments?` gives what
it asks for, or nothing where it is no proper one: an unknown option, one that is given twice, a value
that is missing or not wanted, or any number of files but one. Asking for help ends the reading, so
what stands behind it does not matter.
-/

namespace PeListing

/-- What the command line asks for. -/
structure Options where
  /-- The file to read. -/
  file : String
  /-- The file with the settings. -/
  settingsFile : Option String
  /-- Pass over entries that do not resolve. -/
  skipUnresolved : Bool
  /-- Print the symbol table in place of the listing. -/
  symbols : Bool
  /-- Print the symbol table as a document. -/
  json : Bool
  /-- Print no labels. -/
  noLabels : Bool
  /-- The list of log directives that says which log records appear. -/
  logLevel : String
  /-- Log as documents. -/
  logJson : Bool
  deriving DecidableEq, Repr

namespace Options

/-- The options that take no value. -/
inductive Switch where
  | skipUnresolved | symbols | json | noLabels | logJson
  deriving DecidableEq, Repr

/-- The options that take a value. -/
inductive Setting where
  | settingsFile | logLevel
  deriving DecidableEq, Repr

/-- The switch of a name. -/
def Switch.ofName? (name : String) : Option Switch :=
  match name with
  | "skip-unresolved" => some .skipUnresolved
  | "symbols" => some .symbols
  | "json" => some .json
  | "no-labels" => some .noLabels
  | "log-json" => some .logJson
  | _ => none

/-- The setting of a name. -/
def Setting.ofName? (name : String) : Option Setting :=
  match name with
  | "config" => some .settingsFile
  | "log-level" => some .logLevel
  | _ => none

/-- What has been read of the command line. -/
structure Draft where
  /-- The file. -/
  file : Option String := none
  /-- The switches that are on. -/
  switches : List Switch := []
  /-- The settings that are made. -/
  settings : List (Setting × String) := []

namespace Draft

/-- Names the file, of which there is one; its name is not empty. -/
def withFile? (d : Draft) (name : String) : Option Draft :=
  if name.isEmpty || d.file.isSome then none else some { d with file := some name }

/-- Turns a switch on, once. -/
def withSwitch? (d : Draft) (s : Switch) : Option Draft :=
  if s ∈ d.switches then none else some { d with switches := s :: d.switches }

/-- Makes a setting, once; the name of a file is not empty. -/
def withSetting? (d : Draft) (s : Setting) (value : String) : Option Draft :=
  if (d.settings.lookup s).isSome || (s = .settingsFile && value.isEmpty) then none
  else some { d with settings := (s, value) :: d.settings }

/-- The options, if a file is named and the form of a symbol table is asked for only with the
table. -/
def finish? (d : Draft) : Option Options := do
  let file ← d.file
  let on (s : Switch) : Bool := s ∈ d.switches
  if on .json && !on .symbols then none
  else return {
    file
    settingsFile := d.settings.lookup .settingsFile
    skipUnresolved := on .skipUnresolved
    symbols := on .symbols
    json := on .json
    noLabels := on .noLabels
    logLevel := (d.settings.lookup .logLevel).getD "warn"
    logJson := on .logJson }

end Draft

/-- Why the reading of a command line stops early. -/
inductive Stop where
  /-- Help is asked for. -/
  | help
  /-- The command line is no proper one. -/
  | usage
  deriving DecidableEq, Repr

/-- What one argument is. -/
inductive Argument where
  /-- The option that asks for help. -/
  | help
  /-- A file. -/
  | file (name : String)
  /-- The mark behind which every argument is a file. -/
  | endOfOptions
  /-- An option by its name, with the value attached to it. -/
  | option (name : String) (value : Option String)
  deriving DecidableEq, Repr

/-- The text before the first equals sign, and the text behind it if there is one. -/
def splitValue (cs : List Char) : String × Option String :=
  (String.ofList (cs.takeWhile (· != '=')),
    match cs.dropWhile (· != '=') with
    | [] => none
    | _ :: value => some (String.ofList value))

/-- The argument that a text is. The short option `-c` may have its value directly behind it, and
behind `-h` anything may stand. -/
def Argument.ofText (text : String) : Argument :=
  match text.toList with
  | ['-', '-'] => .endOfOptions
  | ['-', '-', 'h', 'e', 'l', 'p'] => .help
  | '-' :: 'h' :: _ => .help
  | '-' :: '-' :: cs => let (name, value) := splitValue cs; .option name value
  | ['-', 'c'] => .option "config" none
  | '-' :: 'c' :: '=' :: cs => .option "config" (some (String.ofList cs))
  | '-' :: 'c' :: cs => .option "config" (some (String.ofList cs))
  | '-' :: c :: cs => .option (String.ofList ('-' :: c :: cs)) none
  | _ => .file text

/-- Goes on with a draft, if there is one. -/
def orUsage : Option Draft → Except Stop Draft
  | some d => .ok d
  | none => .error .usage

/-- Reads the arguments in order. -/
def read (d : Draft) : List String → Except Stop Draft
  | [] => .ok d
  | text :: rest =>
    match Argument.ofText text with
    | .help => .error .help
    | .file name => do read (← orUsage (d.withFile? name)) rest
    | .endOfOptions => orUsage (rest.foldlM Draft.withFile? d)
    | .option name (some value) =>
      match Setting.ofName? name with
      | some s => do read (← orUsage (d.withSetting? s value)) rest
      | none => .error .usage
    | .option name none =>
      match Switch.ofName? name, Setting.ofName? name with
      | some s, _ => do read (← orUsage (d.withSwitch? s)) rest
      | none, none => .error .usage
      | none, some s =>
        match rest with
        | [] => .error .usage
        | value :: rest =>
          match Argument.ofText value with
          | .file value => do read (← orUsage (d.withSetting? s value)) rest
          | _ => .error .usage

end Options

/-- What a command line asks for. -/
inductive Request where
  /-- Help. -/
  | help
  /-- A file to be treated in some way. -/
  | run (options : Options)
  deriving DecidableEq, Repr

/-- What a command line asks for, if it is a proper one. -/
def Request.ofArguments? (arguments : List String) : Option Request :=
  match Options.read {} arguments with
  | .ok d => d.finish?.map .run
  | .error .help => some .help
  | .error .usage => none

/-- What is printed as help. -/
def helpText : String :=
  String.join (List.map (· ++ "\n") [
    "Disassemble the code sections of a PE image with export and import names",
    "",
    "Usage: pedisasm [OPTIONS] <FILE>",
    "",
    "Arguments:",
    "  <FILE>  PE file to disassemble",
    "",
    "Options:",
    "  -c, --config <CONFIG>        JSON configuration file",
    "      --skip-unresolved        Skip export/import entries whose RVA does not resolve instead of",
    "                               failing",
    "      --symbols                Print the symbol table instead of the listing",
    "      --json                   With --symbols, print JSON",
    "      --no-labels              Do not print symbol labels before instructions",
    "      --log-level <LOG_LEVEL>  Default log level when RUST_LOG is unset [default: warn]",
    "      --log-json               Log as JSON lines on stderr",
    "  -h, --help                   Print help"])

end PeListing
