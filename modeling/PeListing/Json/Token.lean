import PeListing.Json.Value
import PeListing.Text.Numeral

/-!
# JSON tokens

A document is cut into tokens: brackets, separators, words, numbers and strings, with blanks
between them. Strings are cut strictly: no control character stands for itself, and every escape is
one of the known ones. `Token.ofChars?` is the whole cut; every step of it takes at least one
character (`Token.length_lt_of_next?`).
-/

namespace PeListing.Json

/-- The smallest pieces of a document. -/
inductive Token where
  /-- `[`. -/
  | openBracket
  /-- `]`. -/
  | closeBracket
  /-- An opening brace. -/
  | openBrace
  /-- A closing brace. -/
  | closeBrace
  /-- `:`. -/
  | colon
  /-- `,`. -/
  | comma
  /-- The word `null`. -/
  | null
  /-- The word `true` or `false`. -/
  | bool (value : Bool)
  /-- A number written with digits only. -/
  | natural (value : Nat)
  /-- Any other number. -/
  | real (text : String)
  /-- A string. -/
  | string (literal : Literal)
  deriving DecidableEq, Repr

/-- Whether a character may stand between tokens. -/
def isBlank (c : Char) : Bool := c = ' ' || c = '\t' || c = '\n' || c = '\r'

/-! ## Strings -/

/-- One element of a string: a character, or one half of a surrogate pair. -/
inductive Piece where
  /-- A character. -/
  | char (c : Char)
  /-- One half of a surrogate pair. -/
  | half (unit : Nat)
  deriving DecidableEq, Repr

/-- The element that an escape of four hexadecimal digits names. -/
def Piece.ofHex? (a b c d : Char) : Option Piece := do
  let unit ← Numeral.ofHex? [a, b, c, d]
  return if 0xD800 ≤ unit ∧ unit < 0xE000 then .half unit else .char (Char.ofNat unit)

/-- The character that an escape of one character names. -/
def escaped? : Char → Option Char
  | '"' => some '"'
  | '\\' => some '\\'
  | '/' => some '/'
  | 'b' => some (Char.ofNat 8)
  | 'f' => some (Char.ofNat 12)
  | 'n' => some '\n'
  | 'r' => some '\r'
  | 't' => some '\t'
  | _ => none

/-- The elements of a string up to its closing quote, and what follows. -/
def pieces? : List Char → Option (List Piece × List Char)
  | '"' :: rest => some ([], rest)
  | '\\' :: 'u' :: a :: b :: c :: d :: rest => do
    let piece ← Piece.ofHex? a b c d
    let (pieces, rest) ← pieces? rest
    return (piece :: pieces, rest)
  | '\\' :: e :: rest => do
    let c ← escaped? e
    let (pieces, rest) ← pieces? rest
    return (.char c :: pieces, rest)
  | c :: rest => do
    if c.toNat < 0x20 ∨ c = '\\' then none
    else
      let (pieces, rest) ← pieces? rest
      return (.char c :: pieces, rest)
  | [] => none

/-- The characters of a string, if its surrogates pair up: a high half, then a low one. -/
def assemble? : List Piece → Option (List Char)
  | [] => some []
  | .char c :: pieces => (assemble? pieces).map (c :: ·)
  | .half high :: .half low :: pieces =>
    if high < 0xDC00 ∧ 0xDC00 ≤ low then
      (assemble? pieces).map
        (Char.ofNat (0x10000 + (high - 0xD800) * 0x400 + (low - 0xDC00)) :: ·)
    else none
  | .half _ :: _ => none

/-! ## Numbers -/

/-- The digits at the front, and what follows. There must be some. -/
def digits? (cs : List Char) : Option (List Char × List Char) :=
  if (cs.takeWhile Char.isDigit).isEmpty then none
  else some (cs.takeWhile Char.isDigit, cs.dropWhile Char.isDigit)

/-- The digits before any fraction: zero stands alone, and nothing else starts with it. -/
def whole? (cs : List Char) : Option (List Char × List Char) :=
  match cs with
  | '0' :: rest => some (['0'], rest)
  | _ => digits? cs

/-- A fraction, if there is one. -/
def fraction? (cs : List Char) : Option (List Char × List Char) :=
  match cs with
  | '.' :: rest => (digits? rest).map fun (ds, rest) => ('.' :: ds, rest)
  | _ => some ([], cs)

/-- The sign of an exponent, if there is one. -/
def sign (cs : List Char) : List Char × List Char :=
  match cs with
  | '+' :: rest => (['+'], rest)
  | '-' :: rest => (['-'], rest)
  | _ => ([], cs)

/-- The mark, the sign and the digits of an exponent. -/
def exponentAfter? (mark : Char) (rest : List Char) : Option (List Char × List Char) :=
  (digits? (sign rest).2).map fun (ds, rest') => (mark :: (sign rest).1 ++ ds, rest')

/-- An exponent, if there is one. -/
def exponent? (cs : List Char) : Option (List Char × List Char) :=
  match cs with
  | 'e' :: rest => exponentAfter? 'e' rest
  | 'E' :: rest => exponentAfter? 'E' rest
  | _ => some ([], cs)

/-- The number at the front without its sign: its digits, its fraction and exponent, and what
follows. -/
def unsigned? (cs : List Char) : Option (List Char × List Char × List Char) := do
  let (whole, rest) ← whole? cs
  let (fraction, rest) ← fraction? rest
  let (exponent, rest) ← exponent? rest
  return (whole, fraction ++ exponent, rest)

/-- The number at the front, and what follows. -/
def number? (cs : List Char) : Option (Token × List Char) :=
  match cs with
  | '-' :: rest => do
    let (whole, tail, rest) ← unsigned? rest
    return (.real (String.ofList ('-' :: whole ++ tail)), rest)
  | _ => do
    let (whole, tail, rest) ← unsigned? cs
    return (if tail.isEmpty then .natural (Nat.ofDigitChars 10 whole 0)
      else .real (String.ofList (whole ++ tail)), rest)

/-! ## Tokens -/

/-- The token at the front, and what follows. -/
def Token.next? (cs : List Char) : Option (Token × List Char) :=
  match cs with
  | '[' :: rest => some (.openBracket, rest)
  | ']' :: rest => some (.closeBracket, rest)
  | '\x7b' :: rest => some (.openBrace, rest)
  | '\x7d' :: rest => some (.closeBrace, rest)
  | ':' :: rest => some (.colon, rest)
  | ',' :: rest => some (.comma, rest)
  | 'n' :: 'u' :: 'l' :: 'l' :: rest => some (.null, rest)
  | 't' :: 'r' :: 'u' :: 'e' :: rest => some (.bool true, rest)
  | 'f' :: 'a' :: 'l' :: 's' :: 'e' :: rest => some (.bool false, rest)
  | '"' :: rest =>
    (pieces? rest).map fun (pieces, rest) =>
      (.string ((assemble? pieces).map String.ofList), rest)
  | _ => number? cs

/-! ## What follows is shorter -/

/-- The pieces of a string end with a quote, which is taken. -/
theorem length_lt_of_pieces? {cs rest : List Char} {pieces : List Piece}
    (h : pieces? cs = some (pieces, rest)) : rest.length < cs.length := by
  fun_induction pieces? cs generalizing pieces with
  | case1 r => simp_all
  | case2 a b c d r ih =>
    simp only [Option.bind_eq_bind, Option.bind_eq_some_iff, Option.pure_def] at h
    obtain ⟨_, _, _, h, rfl | _⟩ := h
    have := ih h
    simp only [List.length_cons]
    omega
  | case3 e r _ ih =>
    simp only [Option.bind_eq_bind, Option.bind_eq_some_iff, Option.pure_def] at h
    obtain ⟨_, _, _, h, rfl | _⟩ := h
    have := ih h
    simp only [List.length_cons]
    omega
  | case4 => simp at h
  | case5 c r _ _ _ _ ih =>
    simp only [Option.bind_eq_bind, Option.bind_eq_some_iff, Option.pure_def] at h
    obtain ⟨_, h, rfl | _⟩ := h
    have := ih h
    simp only [List.length_cons]
    omega
  | case6 => simp at h

/-- A run of digits has one at least. -/
theorem length_lt_of_digits? {cs ds rest : List Char} (h : digits? cs = some (ds, rest)) :
    rest.length < cs.length := by
  unfold digits? at h
  split at h
  · simp at h
  · rename_i nonempty
    simp only [Option.some.injEq, Prod.mk.injEq] at h
    obtain ⟨rfl, rfl⟩ := h
    have split := congrArg List.length (List.takeWhile_append_dropWhile (p := Char.isDigit) (l := cs))
    have : 0 < (cs.takeWhile Char.isDigit).length := by
      rw [List.length_pos_iff]
      simpa using nonempty
    rw [List.length_append] at split
    omega

/-- The whole part of a number has a digit at least. -/
theorem length_lt_of_whole? {cs ds rest : List Char} (h : whole? cs = some (ds, rest)) :
    rest.length < cs.length := by
  unfold whole? at h
  split at h
  · simp only [Option.some.injEq, Prod.mk.injEq] at h
    obtain ⟨-, rfl⟩ := h
    simp
  · exact length_lt_of_digits? h

/-- A fraction takes nothing back. -/
theorem length_le_of_fraction? {cs ds rest : List Char} (h : fraction? cs = some (ds, rest)) :
    rest.length ≤ cs.length := by
  unfold fraction? at h
  split at h
  · obtain ⟨⟨ds', rest'⟩, h, heq⟩ := Option.map_eq_some_iff.mp h
    have := length_lt_of_digits? h
    simp only [Prod.mk.injEq] at heq
    obtain ⟨-, rfl⟩ := heq
    simp only [List.length_cons]
    omega
  · simp only [Option.some.injEq, Prod.mk.injEq] at h
    obtain ⟨-, rfl⟩ := h
    exact Nat.le_refl _

/-- A sign is one character or none. -/
theorem length_sign_le (cs : List Char) : (sign cs).2.length ≤ cs.length := by
  unfold sign
  split <;> simp

/-- An exponent takes nothing back behind its mark. -/
theorem length_le_of_exponentAfter? {mark : Char} {cs ds rest : List Char}
    (h : exponentAfter? mark cs = some (ds, rest)) : rest.length ≤ cs.length := by
  obtain ⟨⟨ds', rest'⟩, h, heq⟩ := Option.map_eq_some_iff.mp h
  have shorter := length_lt_of_digits? h
  have signed := length_sign_le cs
  simp only [Prod.mk.injEq] at heq
  obtain ⟨-, rfl⟩ := heq
  omega

/-- An exponent takes nothing back. -/
theorem length_le_of_exponent? {cs ds rest : List Char} (h : exponent? cs = some (ds, rest)) :
    rest.length ≤ cs.length := by
  unfold exponent? at h
  split at h
  · exact Nat.le_succ_of_le (length_le_of_exponentAfter? h)
  · exact Nat.le_succ_of_le (length_le_of_exponentAfter? h)
  · simp only [Option.some.injEq, Prod.mk.injEq] at h
    obtain ⟨-, rfl⟩ := h
    exact Nat.le_refl _

/-- An unsigned number has a digit at least. -/
theorem length_lt_of_unsigned? {cs whole tail rest : List Char}
    (h : unsigned? cs = some (whole, tail, rest)) : rest.length < cs.length := by
  simp only [unsigned?, Option.bind_eq_bind, Option.bind_eq_some_iff, Option.pure_def,
    Option.some.injEq, Prod.mk.injEq] at h
  obtain ⟨⟨w, r₁⟩, hw, ⟨f, r₂⟩, hf, ⟨e, r₃⟩, he, -, -, rfl⟩ := h
  dsimp only at hf he ⊢
  have := length_lt_of_whole? hw
  have := length_le_of_fraction? hf
  have := length_le_of_exponent? he
  omega

/-- A number takes a character at least. -/
theorem length_lt_of_number? {cs rest : List Char} {t : Token}
    (h : number? cs = some (t, rest)) : rest.length < cs.length := by
  unfold number? at h
  split at h
  · simp only [Option.bind_eq_bind, Option.bind_eq_some_iff, Option.pure_def, Option.some.injEq,
      Prod.mk.injEq] at h
    obtain ⟨⟨w, r, r'⟩, hu, -, rfl⟩ := h
    exact Nat.lt_succ_of_lt (length_lt_of_unsigned? hu)
  · simp only [Option.bind_eq_bind, Option.bind_eq_some_iff, Option.pure_def, Option.some.injEq,
      Prod.mk.injEq] at h
    obtain ⟨⟨w, r, r'⟩, hu, -, rfl⟩ := h
    exact length_lt_of_unsigned? hu

/-- Every token takes at least one character. -/
theorem Token.length_lt_of_next? {cs rest : List Char} {t : Token}
    (h : Token.next? cs = some (t, rest)) : rest.length < cs.length := by
  unfold Token.next? at h
  split at h
  case h_10 =>
    obtain ⟨⟨ps, r⟩, hp, heq⟩ := Option.map_eq_some_iff.mp h
    simp only [Prod.mk.injEq] at heq
    obtain ⟨-, rfl⟩ := heq
    exact Nat.lt_succ_of_lt (length_lt_of_pieces? hp)
  case h_11 => exact length_lt_of_number? h
  all_goals
    simp only [Option.some.injEq, Prod.mk.injEq] at h
    obtain ⟨-, rfl⟩ := h
    simp only [List.length_cons]
    omega

/-- The tokens of a document, which blanks may separate. -/
def Token.ofChars? (cs : List Char) : Option (List Token) :=
  match cs with
  | [] => some []
  | c :: rest =>
    if isBlank c then Token.ofChars? rest
    else
      match _h : Token.next? (c :: rest) with
      | none => none
      | some (t, rest') => (Token.ofChars? rest').map (t :: ·)
termination_by cs.length
decreasing_by
  · exact Nat.lt_succ_self _
  · exact Token.length_lt_of_next? ‹_›

end PeListing.Json
