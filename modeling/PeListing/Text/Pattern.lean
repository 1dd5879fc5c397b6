import PeListing.Text.Alphanumeric
import PeListing.Text.Numeral

/-!
# Search patterns

Whether a text is a search pattern: characters, groups in parentheses, classes in brackets, edges and
escapes in a row, alternatives between bars, and signs that repeat what stands before them.

A pattern speaks of characters, but no property of characters beyond ASCII is at hand. So what would
need one is refused as long as the flag `u` is on, as it is at first: the classes `\d`, `\s` and `\w`,
word boundaries, and the flag `i` before anything that has a case. With the flag off, a pattern speaks
of bytes, and what may stop within a character is refused. Properties by name (`\p`) and what is in
braces, such as a number of repetitions, are no part of a pattern here.
-/

namespace PeListing.Text.Pattern

/-! ## Flags -/

/-- The flags that decide what is refused. -/
structure Flags where
  /-- Whether case is ignored. -/
  ignoreCase : Bool := false
  /-- Whether the pattern speaks of characters rather than bytes. -/
  unicode : Bool := true
  deriving DecidableEq, Repr

namespace Flags

/-- Whether the letters of a flag group are right: known, none twice, and at least one behind the
sign that turns flags off. -/
def wellFormed (letters : List Char) : Bool :=
  letters.all (fun c => "imsUuRx-".toList.contains c) && letters.Nodup && letters.getLast? != some '-'

/-- The flags after a flag group. -/
def update (f : Flags) (letters : List Char) : Flags :=
  let on := letters.takeWhile (· != '-')
  let off := letters.dropWhile (· != '-')
  let choose (letter : Char) (before : Bool) : Bool :=
    on.contains letter || (before && !off.contains letter)
  ⟨choose 'i' f.ignoreCase, choose 'u' f.unicode⟩

/-- Whether case can be ignored where that is asked for. -/
def caseKnown (f : Flags) : Bool := !(f.ignoreCase && f.unicode)

/-- Whether a byte that is given by its number may stand in a pattern. -/
def admitsByte (f : Flags) (c : Char) : Bool := f.unicode || c.toNat < 0x80

end Flags

/-! ## Escapes -/

/-- What stands behind a backslash. -/
inductive Escape where
  /-- A character. -/
  | literal (c : Char)
  /-- A character, or a byte, by its number. -/
  | byte (c : Char)
  /-- The start or the end of the text. -/
  | edge
  /-- A place at or off the edge of a word. -/
  | wordEdge
  /-- A class of characters by one letter. -/
  | shorthand (negated : Bool)
  deriving DecidableEq, Repr

/-- The character of a number in hexadecimal digits, of which there are `width`. -/
def coded? (width : Nat) (cs : List Char) : Option Char := do
  let digits := cs.take width
  let n ← Numeral.ofHex? digits
  if digits.length = width ∧ n.isValidChar then some (Char.ofNat n) else none

/-- The control character that a letter stands for. -/
def control? : Char → Option Char
  | 'a' => some (Char.ofNat 0x7)
  | 't' => some (Char.ofNat 0x9)
  | 'n' => some (Char.ofNat 0xA)
  | 'v' => some (Char.ofNat 0xB)
  | 'f' => some (Char.ofNat 0xC)
  | 'r' => some (Char.ofNat 0xD)
  | _ => none

/-- The escape at the start of a text, and how many characters it takes. -/
def escape? : List Char → Option (Escape × Nat)
  | [] => none
  | 'x' :: cs => (coded? 2 cs).map (.byte ·, 3)
  | 'u' :: cs => (coded? 4 cs).map (.literal ·, 5)
  | 'U' :: cs => (coded? 8 cs).map (.literal ·, 9)
  | c :: _ =>
    if "dsw".toList.contains c then some (.shorthand false, 1)
    else if "DSW".toList.contains c then some (.shorthand true, 1)
    else if "Az".toList.contains c then some (.edge, 1)
    else if "bB<>".toList.contains c then some (.wordEdge, 1)
    else if c.isAlphanum || 0x80 ≤ c.toNat then (control? c).map (.literal ·, 1)
    else some (.literal c, 1)

/-! ## Classes -/

/-- The classes that have a name. -/
def classNames : List String :=
  ["alnum", "alpha", "ascii", "blank", "cntrl", "digit", "graph", "lower", "print", "punct", "space",
    "upper", "word", "xdigit"]

/-- Whether a named class, between colons and closed by a bracket, is negated, and how many
characters it takes. -/
def namedClass? : List Char → Option (Bool × Nat)
  | ':' :: cs =>
    let negated := cs.head? = some '^'
    let caret := if negated then 1 else 0
    let name := (cs.drop caret).takeWhile (· != ':')
    match cs.drop (caret + name.length) with
    | ':' :: ']' :: _ =>
      if classNames.contains (String.ofList name) then some (negated, caret + name.length + 3)
      else none
    | _ => none
  | _ => none

/-- How many characters behind the opening bracket of a class are no part of its items: a caret, and
dashes or a bracket that stand for themselves. A class of bytes is not negated. -/
def classOpening? (f : Flags) (cs : List Char) : Option Nat :=
  let caret := if cs.head? = some '^' then 1 else 0
  let dashes := ((cs.drop caret).takeWhile (· = '-')).length
  let bracket := if dashes = 0 ∧ (cs.drop caret).head? = some ']' then 1 else 0
  if caret = 1 && !f.unicode then none else some (caret + dashes + bracket)

/-- The character at the start of a text that is an item of a class, none where the item is a class
itself, and how many characters it takes. -/
def classItem? (f : Flags) : List Char → Option (Option Char × Nat)
  | [] => none
  | '\\' :: cs =>
    match escape? cs with
    | some (.literal c, n) | some (.byte c, n) =>
      if f.admitsByte c then some (some c, n + 1) else none
    | some (.shorthand negated, n) => if f.unicode || negated then none else some (none, n + 1)
    | _ => none
  | c :: _ => if f.admitsByte c then some (some c, 1) else none

/-- Whether a dash at the start of a text makes a range of the item before it. -/
def isRangeDash : List Char → Bool
  | '-' :: ']' :: _ | '-' :: '-' :: _ => false
  | '-' :: _ => true
  | _ => false

/-- What follows a class whose items a text starts with. Classes may hold others, of which `depth`
are open. -/
def afterClass? (f : Flags) (depth : Nat) : List Char → Option (List Char)
  | [] => none
  | ']' :: cs =>
    match depth with
    | 0 => some cs
    | depth + 1 => afterClass? f depth cs
  | '[' :: cs =>
    match namedClass? cs with
    | some (negated, n) => if negated && !f.unicode then none else afterClass? f depth (cs.drop n)
    | none =>
      match classOpening? f cs with
      | some n => afterClass? f (depth + 1) (cs.drop n)
      | none => none
  | '&' :: '&' :: cs | '-' :: '-' :: cs | '~' :: '~' :: cs => afterClass? f depth cs
  | c :: cs =>
    match classItem? f (c :: cs) with
    | none => none
    | some (low, n) =>
      if isRangeDash (cs.drop (n - 1)) then
        match low, classItem? f (cs.drop n) with
        | some low, some (some high, m) =>
          if low ≤ high then afterClass? f depth (cs.drop (n + m)) else none
        | _, _ => none
      else afterClass? f depth (cs.drop (n - 1))
termination_by cs => cs.length

/-- How many characters a class takes behind its opening bracket. -/
def classLength? (f : Flags) (cs : List Char) : Option Nat := do
  if !f.caseKnown then none
  let rest ← afterClass? f 0 (cs.drop (← classOpening? f cs))
  return cs.length - rest.length

/-! ## Groups -/

/-- How far a pattern has been read. -/
structure State where
  /-- The flags in force. -/
  flags : Flags := {}
  /-- The flags outside of each open group, the innermost first. -/
  outer : List Flags := []
  /-- Whether there is something to repeat. -/
  repeatable : Bool := false
  /-- The names of groups so far. -/
  names : List (List Char) := []

/-- Opens a group. -/
def State.enter (s : State) (f : Flags) : State :=
  { s with flags := f, outer := s.flags :: s.outer, repeatable := false }

/-- Goes past something that can be repeated. -/
def State.past (s : State) : State := { s with repeatable := true }

/-- Whether a text can be the name of a group. -/
def isGroupName : List Char → Bool
  | [] => false
  | c :: cs => (c = '_' || isAlphabetic c) &&
    cs.all fun c => c = '_' || c = '.' || c = '[' || c = ']' || isAlphanumeric c

/-- Opens a group whose name a text starts with; also how many characters that takes. -/
def namedGroup? (s : State) (cs : List Char) : Option (State × Nat) :=
  let name := cs.takeWhile (· != '>')
  if name.length < cs.length && isGroupName name && !s.names.contains name then
    some ({ s.enter s.flags with names := name :: s.names }, name.length + 1)
  else none

/-- Opens a group with flags, or changes the flags; also how many characters that takes. -/
def flagGroup? (s : State) (cs : List Char) : Option (State × Nat) :=
  let letters := cs.takeWhile fun c => c != ':' && c != ')'
  if !Flags.wellFormed letters then none
  else
    match cs.drop letters.length with
    | ':' :: _ => some (s.enter (s.flags.update letters), letters.length + 1)
    | ')' :: _ =>
      if letters.isEmpty then none
      else some ({ s with flags := s.flags.update letters, repeatable := false }, letters.length + 1)
    | _ => none

/-- What an opening parenthesis comes to, and how many characters that takes. -/
def group? (s : State) : List Char → Option (State × Nat)
  | '?' :: 'P' :: '<' :: cs => (namedGroup? s cs).map fun (s, n) => (s, n + 3)
  | '?' :: '<' :: cs => (namedGroup? s cs).map fun (s, n) => (s, n + 2)
  | '?' :: cs => (flagGroup? s cs).map fun (s, n) => (s, n + 1)
  | _ => some (s.enter s.flags, 0)

/-! ## Patterns -/

/-- Whether an escape may stand in a pattern. -/
def Flags.admits (f : Flags) : Escape → Bool
  | .literal _ => f.caseKnown
  | .byte c => f.caseKnown && f.admitsByte c
  | .edge => true
  | .wordEdge => !f.unicode
  | .shorthand negated => !f.unicode && !negated

/-- Whether a text completes a pattern. -/
def completes (s : State) : List Char → Bool
  | [] => s.outer.isEmpty
  | '(' :: cs =>
    match group? s cs with
    | some (s, n) => completes s (cs.drop n)
    | none => false
  | ')' :: cs =>
    match s.outer with
    | f :: outer => completes { s.past with flags := f, outer := outer } cs
    | [] => false
  | '|' :: cs => completes { s with repeatable := false } cs
  | '?' :: cs | '*' :: cs | '+' :: cs => s.repeatable && completes s cs
  | '{' :: _ => false
  | '[' :: cs =>
    match classLength? s.flags cs with
    | some n => completes s.past (cs.drop n)
    | none => false
  | '.' :: cs => s.flags.unicode && completes s.past cs
  | '^' :: cs | '$' :: cs => completes s.past cs
  | '\\' :: cs =>
    match escape? cs with
    | some (e, n) => s.flags.admits e && completes s.past (cs.drop n)
    | none => false
  | _ :: cs => s.flags.caseKnown && completes s.past cs
termination_by cs => cs.length

/-- Whether a text is a pattern. -/
def wellFormed (cs : List Char) : Bool := completes {} cs

end PeListing.Text.Pattern
