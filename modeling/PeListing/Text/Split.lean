/-!
# Splitting text

A text is cut at every occurrence of one character: a path at its slashes, a message at its line
breaks. There is always a first piece.
-/

namespace PeListing.Text

/-- The pieces between the occurrences of a character. -/
def split (separator : Char) : List Char → List (List Char)
  | [] => [[]]
  | c :: cs =>
    if c = separator then [] :: split separator cs
    else
      match split separator cs with
      | [] => [[c]]
      | piece :: pieces => (c :: piece) :: pieces

/-- A piece without the carriage return at its end. -/
def chomp (cs : List Char) : List Char := if cs.getLast? = some '\r' then cs.dropLast else cs

/-- The lines of a text, each ended by a line break or by a carriage return and a line break. -/
def lines (s : String) : List String :=
  (split '\n' s.toList).map fun cs => String.ofList (chomp cs)

/-- Whether a text starts with another. -/
def startsWith (start s : String) : Bool := start.toList.isPrefixOf s.toList

end PeListing.Text
