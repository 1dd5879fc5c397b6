/-!
# Log records

What the program says about its own work, apart from its answers. A record has a level, the part
of the program that it comes from, a message and named fields.
-/

namespace PeListing.Log

/-- How severe a record is. -/
inductive Level where
  /-- A failure. -/
  | error
  /-- Something passed over or cut short. -/
  | warn
  /-- A result. -/
  | info
  /-- A stage of the work. -/
  | debug
  /-- A single step of the work. -/
  | trace
  deriving DecidableEq, Repr

/-- The level's position, the most severe first. -/
def Level.rank : Level → Nat
  | .error => 0
  | .warn => 1
  | .info => 2
  | .debug => 3
  | .trace => 4

/-- The level as it is printed. -/
def Level.text : Level → String
  | .error => "ERROR"
  | .warn => "WARN"
  | .info => "INFO"
  | .debug => "DEBUG"
  | .trace => "TRACE"

/-- The value of a field. -/
inductive Value where
  /-- A number. -/
  | number (n : Nat)
  /-- A text. -/
  | text (s : String)
  deriving DecidableEq, Repr

/-- One record. -/
structure Record where
  /-- How severe it is. -/
  level : Level
  /-- The part of the program that it comes from. -/
  target : String
  /-- What it says. -/
  message : String
  /-- The named fields. -/
  fields : List (String × Value) := []
  deriving DecidableEq, Repr

end PeListing.Log
