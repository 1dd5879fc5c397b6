import PeListing.Command.Run

/-!
# The command line

Reads the files that the command line names, runs the command and prints what it comes to.
-/

namespace PeListing

/-- What is said about a command line that is no proper one. -/
def usage : String :=
  "Usage: pedisasm [OPTIONS] <FILE>\n\nFor more information, try '--help'."

/-- What the operating system says, by the number of the error, which may be negated. -/
def systemError (code : UInt32) (e : IO.Error) : SystemError :=
  match code.toInt32.toInt.natAbs with
  | 2 => .noEntry
  | 19 => .noDevice
  | 20 => .notDirectory
  | 21 => .isDirectory
  | 36 => .nameTooLong
  | _ => .other (toString e)

/-- What a path names. A folder can be opened, but not be read. -/
def openPath (path : String) : IO (Except SystemError Opened) := do
  try
    match Buffer.ofBytes? (← IO.FS.readBinFile path) with
    | some b => return .ok (.file b)
    | none => return .error (.other "File too large (os error 27)")
  catch e =>
    let error := match e with
      | .noFileOrDirectory _ code _ | .inappropriateType _ code _ | .invalidArgument _ code _
      | .noSuchThing _ code _ => systemError code e
      | .illegalOperation code _ | .otherError code _ => systemError code e
      | _ => .other (toString e)
    return if error = .isDirectory then .ok (.folder folderSize) else .error error

/-- The files that a command line names. -/
def openFiles : Request → IO Files
  | .help => return fun _ => .error .noEntry
  | .run options => do
    let settings ← match options.settingsFile with
      | some path => openPath path
      | none => pure (.error .noEntry)
    let input ← openPath options.file
    return fun name => if options.settingsFile = some name then settings else input

/-- Does what a command line asks for and gives its exit status. -/
def execute (request : Request) : IO UInt32 := do
  let outcome :=
    request.start X86.disassembler (← IO.getEnv "RUST_LOG") (← openFiles request)
  outcome.notices.forM fun n => IO.eprintln (n.text outcome.logJson)
  IO.print outcome.output
  return UInt32.ofNat outcome.status

end PeListing

/-- Runs the command line and gives its exit status. -/
def main (arguments : List String) : IO UInt32 :=
  match PeListing.Request.ofArguments? arguments with
  | some request => PeListing.execute request
  | none => do
    IO.eprintln PeListing.usage
    return 2
