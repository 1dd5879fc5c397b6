import PeListing.Log
import PeListing.Text.Pattern
import PeListing.Text.Slice
import PeListing.Text.Split

/-!
# Log directives

A directive says how severe a record has to be to appear. It may speak of all records, of those
whose origin starts with a text, or of those that have a certain field. In full it is written

    origin[span{field=value}]=level

and each of its parts may be left out, though not all of them; what is opened has to be closed. A
span is a stretch of work that records are made in; a directive that names one, or a value, speaks of
spans only.

The parts are found in the text without the blanks at its ends, but they are cut from the text as it
stands, at the same positions. So blanks in front of a directive shift what is cut from it, and a
position may then fall inside a character, which is no refusal but ends the reading
(`Refusal.insideCharacter`). Without such blanks each part is cut where it was found.
-/

namespace PeListing.Log

/-- What a directive asks of the fields. -/
structure FieldTest where
  /-- The name of the field. -/
  name : String
  /-- The value that it has to have, as a number or a pattern. -/
  value : Option String
  deriving DecidableEq, Repr

/-- A directive. What is left out of it does not matter, and without a level all records appear. -/
structure Directive where
  /-- How the origin starts. -/
  target : String := ""
  /-- The name of a span. -/
  span : Option String := none
  /-- The field that there has to be. -/
  field : Option FieldTest := none
  /-- The least severe level that appears, if any record does. -/
  threshold : Option Level := some .trace
  deriving DecidableEq, Repr

/-- Why a directive is refused. -/
inductive Refusal where
  /-- Its parts do not stand as they should. -/
  | form
  /-- There is no such level. -/
  | level
  /-- The value of its field is no pattern. -/
  | pattern
  /-- A part of `text` starts or ends inside a character. -/
  | insideCharacter (text : String)
  deriving DecidableEq, Repr

/-- What is said about a refusal. -/
def Refusal.message : Refusal → String
  | .form => "invalid filter directive"
  | .level => "error parsing level filter: expected one of \"off\", \"error\", \"warn\", \"info\", " ++
    "\"debug\", \"trace\", or a number 0-5"
  | .pattern => "invalid field filter: error building NFA"
  | .insideCharacter text => "a part starts or ends inside a character of `" ++ text ++ "`"

/-! ## Levels -/

/-- The threshold of a number: none is 0, and the levels follow from the most severe. -/
def thresholdOfNumber? : Nat → Option (Option Level)
  | 0 => some none
  | 1 => some (some .error)
  | 2 => some (some .warn)
  | 3 => some (some .info)
  | 4 => some (some .debug)
  | 5 => some (some .trace)
  | _ => none

/-- The value of decimal digits, in front of which a plus may stand. -/
def number? (cs : List Char) : Option Nat :=
  let digits := if cs.head? = some '+' then cs.drop 1 else cs
  if digits.isEmpty || !digits.all Char.isDigit then none
  else some (Nat.ofDigitChars 10 digits 0)

/-- The threshold of a word: a number, or the name of a level in either case. -/
def threshold? (word : String) : Option (Option Level) :=
  match (number? word.toList).bind thresholdOfNumber? with
  | some threshold => some threshold
  | none =>
    match String.ofList (word.toList.map Char.toLower) with
    | "off" => some none
    | "error" => some (some .error)
    | "warn" => some (some .warn)
    | "info" => some (some .info)
    | "debug" => some (some .debug)
    | "trace" => some (some .trace)
    | _ => none

/-! ## Reading -/

/-- The test that a text is: a name, and a value behind an equals sign. What follows another equals
sign does not matter. -/
def FieldTest.read (text : String) : Except Refusal FieldTest :=
  match Text.split '=' text.toList with
  | name :: value :: _ =>
    if Numeral.isReal value || Text.Pattern.wellFormed value then
      .ok ⟨String.ofList name, some (String.ofList value)⟩
    else .error .pattern
  | _ => .ok ⟨text, none⟩

namespace Directive

/-- The part of a text between two positions. -/
def part (text : String) (start stop : Nat) : Except Refusal String :=
  match Text.slice? text.toList start stop with
  | some cs => .ok (String.ofList cs)
  | none => .error (.insideCharacter text)

/-- The threshold that a text has from a position on. -/
def thresholdFrom (text : String) (start : Nat) : Except Refusal (Option Level) := do
  let word ← part text start text.utf8ByteSize
  if word.isEmpty then return some .trace
  match threshold? word with
  | some threshold => return threshold
  | none => throw .level

/-- The end of a directive from `start` on, where `cs` is found: a level, or nothing. -/
def readThreshold (text : String) (d : Directive) (start : Nat) :
    List Char → Except Refusal Directive
  | [] => .ok d
  | '=' :: _ => return { d with threshold := ← thresholdFrom text (start + 1) }
  | _ => .error .form

/-- The rest of a directive from behind an opening brace, where `cs` is found. -/
def readField (text : String) (d : Directive) (start : Nat) (cs : List Char) :
    Except Refusal Directive := do
  let inner := cs.takeWhile (· != '}')
  let stop := start + Text.byteLength inner
  match cs.drop inner.length with
  | [] => throw .form
  | _ :: rest =>
    let test ← part text start stop
    if test.isEmpty then throw .form
    let d := { d with field := some (← FieldTest.read test) }
    match rest with
    | ']' :: rest => readThreshold text d (stop + 2) rest
    | _ => throw .form

/-- The rest of a directive from behind an opening bracket, where `cs` is found. -/
def readSpan (text : String) (d : Directive) (start : Nat) (cs : List Char) :
    Except Refusal Directive := do
  let inner := cs.takeWhile fun c => c != ']' && c != '{'
  let stop := start + Text.byteLength inner
  match cs.drop inner.length with
  | [] => throw .form
  | ']' :: rest => readThreshold text { d with span := some (← part text start stop) } (stop + 1) rest
  | _ :: rest =>
    let span ← part text start stop
    readField text { d with span := if span.isEmpty then none else some span } (stop + 1) rest

/-- Whether an origin may start with a character. -/
def startsOrigin (c : Char) : Bool := c = '-' || c = ':' || c = '_' || Text.isAlphanumeric c

/-- The directive that a text is. A word by itself is a level, or else an origin. -/
def read (text : String) : Except Refusal Directive := do
  let found := Text.trim text.toList
  match found with
  | [] => throw .form
  | '[' :: cs => readSpan text {} 1 cs
  | c :: _ =>
    if !startsOrigin c then throw .form
    let origin := found.takeWhile fun c => c != '=' && c != '['
    let stop := Text.byteLength origin
    match found.drop origin.length with
    | [] =>
      match threshold? text with
      | some threshold => return { threshold }
      | none => return { target := text }
    | '=' :: _ =>
      let target ← part text 0 stop
      return { target, threshold := ← thresholdFrom text (stop + 1) }
    | _ :: cs => readSpan text { target := ← part text 0 stop } (stop + 1) cs

/-! ## Records -/

/-- Whether a directive speaks of a record. -/
def speaksOf (d : Directive) (r : Record) : Bool :=
  Text.startsWith d.target r.target && d.span.isNone &&
    match d.field with
    | none => true
    | some ⟨name, none⟩ => name = "message" || r.fields.any fun field => field.1 = name
    | some ⟨_, some _⟩ => false

/-- Whether a directive is less specific than another: its origin is shorter, or it alone asks for no
field; where both ask for one, the name that sorts first is the less specific. -/
def lessSpecific (d e : Directive) : Bool :=
  d.target.utf8ByteSize < e.target.utf8ByteSize ||
    (d.target.utf8ByteSize = e.target.utf8ByteSize &&
      match d.field, e.field with
      | none, some _ => true
      | some f, some g => f.name < g.name
      | _, none => false)

end Directive

end PeListing.Log
