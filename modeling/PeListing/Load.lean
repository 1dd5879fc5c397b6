import PeListing.Failure
import PeListing.Files
import PeListing.Log
import PeListing.Settings.Basic

/-!
# Loading and writing

A file is taken only if it is not empty and not larger than the settings allow. An output takes only
as many bytes as it has room for.
-/

namespace PeListing

/-- What an attempt to load a file comes to. -/
structure LoadAttempt where
  /-- The bytes of the file, or why there are none. -/
  outcome : Except FileError Buffer
  /-- The log records of the attempt. -/
  records : List Log.Record

/-- Checks the size of what has been opened: too large first, then empty. -/
def checkSize (settings : LoadSettings) (size : Nat) : Except FileError Unit :=
  if settings.maxFileSize.toNat < size then .error (.tooLarge settings.maxFileSize.toNat size)
  else if size = 0 then .error .empty
  else .ok ()

/-- The log records of an opening. -/
def openRecords (settings : LoadSettings) (path : String) (size : Nat) : List Log.Record :=
  let say (level : Log.Level) (message limit : String) : Log.Record :=
    ⟨level, "pedisasm::io", message, [("path", .text path), ("size", .number size),
      (limit, .number settings.maxFileSize.toNat)]⟩
  let opening := say .debug "Opening file" "max_file_size"
  if settings.maxFileSize.toNat < size then [opening, say .warn "File is too large" "limit"]
  else [opening]

/-- Loads a file. A folder can be opened and has a size, but holds no bytes to take. -/
def load (settings : LoadSettings) (files : Files) (path : String) : LoadAttempt :=
  match files path with
  | .error e => ⟨.error (.system e.message), []⟩
  | .ok (.file b) => ⟨(checkSize settings b.size).map fun _ => b, openRecords settings path b.size⟩
  | .ok (.folder size) =>
    ⟨do checkSize settings size; throw (.system SystemError.noDevice.message),
      openRecords settings path size⟩

/-- Writes a text to an output with room for so many bytes, or for any number. -/
def writeWithin (room : Option Nat) (text : String) : Except FileError Unit :=
  match room with
  | none => .ok ()
  | some room =>
    if text.utf8ByteSize ≤ room then .ok ()
    else .error (.system "failed to write whole buffer")

end PeListing
