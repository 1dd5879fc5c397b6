import PeListing.Json.Token

/-!
# Reading JSON

A document is read token by token. Between two tokens the reader knows what may come next
(`Reader`): the values that are open stand on a stack, the innermost first, each with what has been
read of it in reverse. Nesting is as deep as the stack, which has no limit.
-/

namespace PeListing.Json

/-- A value that has been opened and not been closed. -/
inductive Frame where
  /-- A list, with its items so far, the latest first. -/
  | array (items : List Json)
  /-- An object, with its members so far, the latest first, and the name of the next one. -/
  | object (members : List (Literal × Json)) (name : Literal)

/-- What may come next. -/
inductive Reader where
  /-- A value. -/
  | value (stack : List Frame)
  /-- The first item of a list, or its end. -/
  | firstItem (stack : List Frame)
  /-- The first name of an object, or its end. -/
  | firstName (stack : List Frame)
  /-- A name of an object. -/
  | nextName (members : List (Literal × Json)) (stack : List Frame)
  /-- The colon behind a name. -/
  | colon (members : List (Literal × Json)) (name : Literal) (stack : List Frame)
  /-- Whatever the innermost open value allows behind a value. -/
  | after (value : Json) (stack : List Frame)

namespace Reader

/-- The reader behind the first token of a value. -/
def open? (stack : List Frame) : Token → Option Reader
  | .null => some (.after .null stack)
  | .bool b => some (.after (.bool b) stack)
  | .natural n => some (.after (.natural n) stack)
  | .real text => some (.after (.real text) stack)
  | .string literal => some (.after (.string literal) stack)
  | .openBracket => some (.firstItem stack)
  | .openBrace => some (.firstName stack)
  | _ => none

/-- The reader behind one more token. -/
def step? : Reader → Token → Option Reader
  | .value stack, t => open? stack t
  | .firstItem stack, .closeBracket => some (.after (.array []) stack)
  | .firstItem stack, t => open? (.array [] :: stack) t
  | .firstName stack, .closeBrace => some (.after (.object []) stack)
  | .firstName stack, .string key => some (.colon [] key stack)
  | .nextName members stack, .string key => some (.colon members key stack)
  | .colon members key stack, .colon => some (.value (.object members key :: stack))
  | .after v (.array items :: stack), .comma => some (.value (.array (v :: items) :: stack))
  | .after v (.array items :: stack), .closeBracket =>
    some (.after (.array (v :: items).reverse) stack)
  | .after v (.object members key :: stack), .comma =>
    some (.nextName ((key, v) :: members) stack)
  | .after v (.object members key :: stack), .closeBrace =>
    some (.after (.object ((key, v) :: members).reverse) stack)
  | _, _ => none

/-- The document, if it is complete. -/
def finish? : Reader → Option Json
  | .after v [] => some v
  | _ => none

end Reader

/-- The value that some tokens are. -/
def ofTokens? (tokens : List Token) : Option Json := do
  (← tokens.foldlM Reader.step? (.value [])).finish?

/-- The value that a text is. -/
def parse? (text : String) : Option Json := do
  ofTokens? (← Token.ofChars? text.toList)

end PeListing.Json
