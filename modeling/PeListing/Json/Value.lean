/-!
# JSON values

A JSON document as a tree. Object members keep their order and their repetitions, since a reader of
settings has to see both. A number is kept as a natural number where it is written as one; of any
other number only the text is kept.
-/

namespace PeListing

/-- What a string in a document stands for: a text, or none where an escape names one half of a
surrogate pair without the other. -/
abbrev Json.Literal : Type := Option String

/-- A JSON document. -/
inductive Json where
  /-- The word `null`. -/
  | null
  /-- The word `true` or `false`. -/
  | bool (value : Bool)
  /-- A number written with digits only. -/
  | natural (value : Nat)
  /-- A number with a sign, a fraction or an exponent. -/
  | real (text : String)
  /-- A string. -/
  | string (literal : Json.Literal)
  /-- A list of values. -/
  | array (items : List Json)
  /-- Named values, in the order of the document. -/
  | object (members : List (Json.Literal × Json))

/-- The value of a text. -/
def Json.ofText (s : String) : Json := .string (some s)

/-- The object of named values. -/
def Json.ofMembers (members : List (String × Json)) : Json :=
  .object (members.map fun (name, value) => (some name, value))

end PeListing
