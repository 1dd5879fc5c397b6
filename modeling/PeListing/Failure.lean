import PeListing.Image.Defect
import PeListing.Image.Kind

/-!
# Failures

Everything that can end the program early, with its message, its kind and the exit status that
tells a caller which stage failed.
-/

namespace PeListing

/-- What can go wrong with a file or an output. -/
inductive FileError where
  /-- The file has `found` bytes and `limit` are allowed. -/
  | tooLarge (limit found : Nat)
  /-- The file has no bytes. -/
  | empty
  /-- The operating system refuses. -/
  | system (reason : String)
  deriving DecidableEq, Repr

/-- The message for a file error. -/
def FileError.message : FileError → String
  | .tooLarge limit found =>
    "File size of " ++ Numeral.decimal found ++ " bytes exceeds the maximum allowed size of "
      ++ Numeral.decimal limit ++ " bytes."
  | .empty => "File is empty."
  | .system reason => "I/O error: " ++ reason

/-- What lies behind a file error, as far as that is an error of its own. -/
def FileError.source? : FileError → Option String
  | .system reason => some reason
  | _ => none

/-- What can go wrong with disassembly. -/
inductive DisassemblyError where
  /-- The code of a machine is not known. -/
  | undecodableMachine (machine : Machine)
  /-- The decoder cannot go on. -/
  | decoder (reason : String)
  /-- The text of an instruction cannot be written. -/
  | formatter (reason : String)
  deriving DecidableEq, Repr

/-- The message for a disassembly error. -/
def DisassemblyError.message : DisassemblyError → String
  | .undecodableMachine machine => "Machine " ++ machine.text ++ " cannot be decoded"
  | .decoder reason => "Decoder error: " ++ reason
  | .formatter reason => "Formatter error: " ++ reason

/-- Why the program ends early. -/
inductive Failure where
  /-- The image is defective. -/
  | image (cause : Defect)
  /-- The file cannot be read or the output not be written. -/
  | file (cause : FileError)
  /-- The settings cannot be read. -/
  | settings (reason : String)
  /-- The code cannot be disassembled. -/
  | disassembly (cause : DisassemblyError)
  deriving DecidableEq, Repr

/-- The kinds of failure. -/
inductive FailureKind where
  /-- The file is no image that this library reads. -/
  | format
  /-- Something in the image does not resolve. -/
  | resolution
  /-- A file or output fails. -/
  | io
  /-- The settings are at fault. -/
  | config
  /-- The code is at fault. -/
  | disassembly
  deriving DecidableEq, Repr

/-- How a kind is called. -/
def FailureKind.text : FailureKind → String
  | .format => "Format"
  | .resolution => "Resolution"
  | .io => "Io"
  | .config => "Config"
  | .disassembly => "Disassembly"

namespace Failure

/-- The message for a failure. -/
def message : Failure → String
  | .image cause => cause.message
  | .file cause => cause.message
  | .settings reason => "Configuration error: " ++ reason
  | .disassembly cause => cause.message

/-- The messages of a failure and of what lies behind it, joined by colons. -/
def fullMessage : Failure → String
  | .file cause => match cause.source? with
    | some reason => cause.message ++ ": " ++ reason
    | none => cause.message
  | failure => failure.message

/-- The kind of a failure. -/
def kind : Failure → FailureKind
  | .image cause => if cause.isResolution then .resolution else .format
  | .file _ => .io
  | .settings _ => .config
  | .disassembly _ => .disassembly

/-- The exit status of a failure. -/
def exitStatus : Failure → Nat
  | .image .invalidDosSignature => 10
  | .image .invalidNtSignature => 11
  | .image (.unsupportedArchitecture _ _) => 12
  | .image (.truncatedHeader _ _) => 13
  | .image _ => 14
  | .file _ => 3
  | .settings _ => 4
  | .disassembly _ => 5

end Failure

end PeListing
