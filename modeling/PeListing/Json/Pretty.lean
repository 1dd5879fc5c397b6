import PeListing.Json.Value
import PeListing.Text.Numeral

/-!
# Writing JSON

Values are written over several lines, two blanks deeper for each level. Lists and objects without
elements are written without a line break.
-/

namespace PeListing.Json

/-- A character inside a string. -/
def escape (c : Char) : List Char :=
  if c = '"' then ['\\', '"']
  else if c = '\\' then ['\\', '\\']
  else if c.toNat = 8 then ['\\', 'b']
  else if c.toNat = 12 then ['\\', 'f']
  else if c = '\n' then ['\\', 'n']
  else if c = '\r' then ['\\', 'r']
  else if c = '\t' then ['\\', 't']
  else if c.toNat < 0x20 then
    '\\' :: 'u' :: Numeral.zeroPad 4 (Numeral.hexDigits c.toNat)
  else [c]

/-- A text as a string. -/
def quote (s : List Char) : List Char := '"' :: s.flatMap escape ++ ['"']

/-- A string, empty where it stands for no text. -/
def writeLiteral (literal : Literal) : List Char := quote (literal.getD "").toList

/-- The start of a line at some depth. -/
def newline (depth : Nat) : List Char := '\n' :: List.replicate (2 * depth) ' '

mutual

/-- A value at some depth. -/
def write (depth : Nat) : Json → List Char
  | .null => "null".toList
  | .bool true => "true".toList
  | .bool false => "false".toList
  | .natural n => Nat.toDigits 10 n
  | .real text => text.toList
  | .string literal => writeLiteral literal
  | .array [] => ['[', ']']
  | .array (item :: items) =>
    '[' :: newline (depth + 1) ++ write (depth + 1) item ++ writeItems (depth + 1) items ++
      newline depth ++ [']']
  | .object [] => ['\x7b', '\x7d']
  | .object ((name, value) :: members) =>
    '\x7b' :: newline (depth + 1) ++ writeLiteral name ++ [':', ' '] ++ write (depth + 1) value ++
      writeMembers (depth + 1) members ++ newline depth ++ ['\x7d']

/-- The items behind the first one. -/
def writeItems (depth : Nat) : List Json → List Char
  | [] => []
  | item :: items => ',' :: newline depth ++ write depth item ++ writeItems depth items

/-- The members behind the first one. -/
def writeMembers (depth : Nat) : List (Literal × Json) → List Char
  | [] => []
  | (name, value) :: members =>
    ',' :: newline depth ++ writeLiteral name ++ [':', ' '] ++ write depth value ++
      writeMembers depth members

end

/-- The text of a value. -/
def pretty (j : Json) : String := String.ofList (write 0 j)

end PeListing.Json
