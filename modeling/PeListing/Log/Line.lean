import PeListing.Json.Pretty
import PeListing.Log

/-!
# Printed log records

A log record is printed either for a reader, with terminal colours, or as a JSON document. The
document is always one line; for a reader, texts are printed as they are, so a line break in one of
them breaks the line.
-/

namespace PeListing.Log

/-- A text in one of the renditions of a terminal. -/
def painted (rendition : Nat) (s : String) : String :=
  "\x1b[" ++ Numeral.decimal rendition ++ "m" ++ s ++ "\x1b[0m"

/-- The rendition of faint text. -/
def faint : Nat := 2

/-- The rendition of slanted text. -/
def slanted : Nat := 3

/-- The rendition of a level: red, yellow, green, blue, purple. -/
def Level.rendition : Level → Nat
  | .error => 31
  | .warn => 33
  | .info => 32
  | .debug => 34
  | .trace => 35

/-- A value for a reader. -/
def Value.plain : Value → String
  | .number n => Numeral.decimal n
  | .text s => s

/-- A value in a document. -/
def Value.document : Value → String
  | .number n => Numeral.decimal n
  | .text s => String.ofList (Json.quote s.toList)

/-- A record for a reader: its level, its origin, its message and its fields. -/
def Record.plain (r : Record) : String :=
  painted r.level.rendition r.level.text ++ " " ++ painted faint (r.target ++ ":") ++ " " ++
    r.message ++ String.join (r.fields.map fun (name, value) =>
      " " ++ painted slanted name ++ painted faint "=" ++ value.plain)

/-- A record as a document on one line. -/
def Record.document (r : Record) : String :=
  let entry (name text : String) : String := String.ofList (Json.quote name.toList) ++ ":" ++ text
  let group (entries : List String) : String :=
    "\x7b" ++ String.intercalate "," entries ++ "\x7d"
  let fields := ("message", .text r.message) :: r.fields
  group [
    entry "level" (Value.text r.level.text).document,
    entry "fields" (group (fields.map fun (name, value) => entry name value.document)),
    entry "target" (Value.text r.target).document]

end PeListing.Log
