import Mathlib.Tactic.Common
import Mathlib.Tactic.IntervalCases
import PeListing.Json.Parse

/-!
# What is spelled as JSON is read

A text is a document if its tokens are those of a value, each spelled in one of the ways that JSON
has for it, with blanks between them as one likes. `j.Spelled text` says this of a value and a text,
without a word about how texts are read, and what is spelled is read as the value that it spells
(`parse?_of_spelled`).

Reading has two stages, and so has the argument. A spelled token is cut from the front of a text
(`Token.Spelled.next?_eq`), hence all of them are (`Layout.ofChars?_eq`). A number ends only where
something else starts, so what follows it may not go on with it (`endsNumber`). In the tokens of a
value no number follows another (`separated_tokens`). And the tokens of a value move the reader from
where a value is awaited to behind that value, whatever follows (`foldlM_tokens`).
-/

namespace PeListing.Json

/-! ## Spellings -/

/-- Four hexadecimal digits of either case spell a number. -/
def SpellsUnit (n : Nat) (digits : List Char) : Prop :=
  digits.length = 4 ∧ Numeral.ofHex? digits = some n

/-- The characters that have an escape of one character. -/
def shortEscapes : List (Char × Char) :=
  [('"', '"'), ('\\', '\\'), ('/', '/'), ('b', '\x08'), ('f', '\x0c'), ('n', '\n'), ('r', '\r'),
    ('t', '\t')]

/-- The spellings of one element of a string. -/
inductive Piece.Spelled : Piece → List Char → Prop
  | plain {c : Char} (hcontrol : 0x20 ≤ c.toNat) (hquote : c ≠ '"') (hslash : c ≠ '\\') :
    Spelled (.char c) [c]
  | short {e c : Char} (h : (e, c) ∈ shortEscapes) : Spelled (.char c) ['\\', e]
  | unit {n : Nat} {digits : List Char} (h : SpellsUnit n digits) (hn : n < 0xD800 ∨ 0xE000 ≤ n) :
    Spelled (.char (Char.ofNat n)) ('\\' :: 'u' :: digits)
  | half {n : Nat} {digits : List Char} (h : SpellsUnit n digits) (hn : 0xD800 ≤ n ∧ n < 0xE000) :
    Spelled (.half n) ('\\' :: 'u' :: digits)

/-- The spellings of the elements of a string, one behind the other. -/
inductive SpellsPieces : List Piece → List Char → Prop
  | nil : SpellsPieces [] []
  | cons {p : Piece} {ps : List Piece} {cs rest : List Char} (hp : p.Spelled cs)
    (hps : SpellsPieces ps rest) : SpellsPieces (p :: ps) (cs ++ rest)

/-- The text that the elements of a string make. A character outside the basic plane may be two
halves. -/
inductive Assembles : List Piece → List Char → Prop
  | nil : Assembles [] []
  | char {ps : List Piece} {s : List Char} (c : Char) (h : Assembles ps s) :
    Assembles (.char c :: ps) (c :: s)
  | pair {ps : List Piece} {s : List Char} {c : Char} (hc : 0x10000 ≤ c.toNat)
    (h : Assembles ps s) :
    Assembles (.half (0xD800 + (c.toNat - 0x10000) / 0x400) ::
      .half (0xDC00 + (c.toNat - 0x10000) % 0x400) :: ps) (c :: s)

/-- What the elements of a string stand for. -/
def StandFor (ps : List Piece) : Literal → Prop
  | some s => Assembles ps s.toList
  | none => ∀ s, ¬ Assembles ps s

/-- At least one digit. -/
def IsDigits (ds : List Char) : Prop := ds ≠ [] ∧ ∀ c ∈ ds, c.isDigit = true

/-- A fraction or nothing. -/
def IsFraction (cs : List Char) : Prop := cs = [] ∨ ∃ ds, IsDigits ds ∧ cs = '.' :: ds

/-- An exponent or nothing. -/
def IsExponent (cs : List Char) : Prop :=
  cs = [] ∨ ∃ mark sign ds, mark ∈ ['e', 'E'] ∧ sign ∈ [[], ['+'], ['-']] ∧ IsDigits ds ∧
    cs = mark :: (sign ++ ds)

/-- The spellings of a token. -/
inductive Token.Spelled : Token → List Char → Prop
  | openBracket : Spelled .openBracket ['[']
  | closeBracket : Spelled .closeBracket [']']
  | openBrace : Spelled .openBrace ['\x7b']
  | closeBrace : Spelled .closeBrace ['\x7d']
  | colon : Spelled .colon [':']
  | comma : Spelled .comma [',']
  | null : Spelled .null ['n', 'u', 'l', 'l']
  | boolTrue : Spelled (.bool true) ['t', 'r', 'u', 'e']
  | boolFalse : Spelled (.bool false) ['f', 'a', 'l', 's', 'e']
  | natural (n : Nat) : Spelled (.natural n) (Nat.toDigits 10 n)
  | negative (n : Nat) {fraction exponent : List Char} (hf : IsFraction fraction)
    (he : IsExponent exponent) :
    Spelled (.real (String.ofList ('-' :: Nat.toDigits 10 n ++ (fraction ++ exponent))))
      ('-' :: Nat.toDigits 10 n ++ (fraction ++ exponent))
  | real (n : Nat) {fraction exponent : List Char} (hf : IsFraction fraction)
    (he : IsExponent exponent) (hne : fraction ++ exponent ≠ []) :
    Spelled (.real (String.ofList (Nat.toDigits 10 n ++ (fraction ++ exponent))))
      (Nat.toDigits 10 n ++ (fraction ++ exponent))
  | string {ps : List Piece} {cs : List Char} {literal : Literal} (hps : SpellsPieces ps cs)
    (hliteral : StandFor ps literal) : Spelled (.string literal) ('"' :: cs ++ ['"'])

/-- Characters that may stand between tokens. -/
def Blanks (cs : List Char) : Prop := ∀ c ∈ cs, isBlank c = true

/-- Tokens in a row, with blanks before, between and behind them. -/
inductive Layout : List Token → List Char → Prop
  | done {blanks : List Char} (h : Blanks blanks) : Layout [] blanks
  | token {t : Token} {ts : List Token} {blanks cs rest : List Char} (hblanks : Blanks blanks)
    (ht : t.Spelled cs) (h : Layout ts rest) : Layout (t :: ts) (blanks ++ (cs ++ rest))

mutual

/-- The tokens of a value. -/
def tokens : Json → List Token
  | .null => [.null]
  | .bool b => [.bool b]
  | .natural n => [.natural n]
  | .real text => [.real text]
  | .string literal => [.string literal]
  | .array [] => [.openBracket, .closeBracket]
  | .array (item :: items) => .openBracket :: (tokens item ++ (itemTokens items ++ [.closeBracket]))
  | .object [] => [.openBrace, .closeBrace]
  | .object ((name, value) :: members) =>
    .openBrace :: .string name :: .colon :: (tokens value ++ (memberTokens members ++ [.closeBrace]))

/-- The tokens of the items behind the first one. -/
def itemTokens : List Json → List Token
  | [] => []
  | item :: items => .comma :: (tokens item ++ itemTokens items)

/-- The tokens of the members behind the first one. -/
def memberTokens : List (Literal × Json) → List Token
  | [] => []
  | (name, value) :: members =>
    .comma :: .string name :: .colon :: (tokens value ++ memberTokens members)

end

/-- A text is a document of a value. -/
def Spelled (j : Json) (text : String) : Prop := Layout j.tokens text.toList

/-! ## Strings -/

/-- Halves are read as halves of a pair. -/
theorem SpellsPieces.half_range {ps : List Piece} {cs : List Char} (h : SpellsPieces ps cs) {n : Nat}
    (hn : .half n ∈ ps) : 0xD800 ≤ n ∧ n < 0xE000 := by
  induction h with
  | nil => cases hn
  | cons hp _ ih =>
    rcases List.mem_cons.mp hn with rfl | hn
    · cases hp with
      | half _ hrange => exact hrange
    · exact ih hn

/-- An escape of one character is read as the character that it names. -/
theorem pieces?_escaped {e c : Char} (h : escaped? e = some c) (rest : List Char) :
    pieces? ('\\' :: e :: rest) = (pieces? rest).map fun (pieces, rest) =>
      (.char c :: pieces, rest) := by
  have hne : e ≠ 'u' := by
    rintro rfl
    simp [escaped?] at h
  simp [pieces?, h, hne, Option.map_eq_bind]

/-- An escape of four digits is read as the element that they name. -/
theorem pieces?_unit {n : Nat} {digits : List Char} (h : SpellsUnit n digits) (rest : List Char) :
    pieces? ('\\' :: 'u' :: digits ++ rest) = (pieces? rest).map fun (pieces, rest) =>
      ((if 0xD800 ≤ n ∧ n < 0xE000 then .half n else .char (Char.ofNat n)) :: pieces, rest) := by
  obtain ⟨hlength, hvalue⟩ := h
  match digits, hlength with
  | [a, b, c, d], _ => simp [pieces?, Piece.ofHex?, hvalue, Option.map_eq_bind]

/-- A spelled element is read as that element. -/
theorem Piece.Spelled.pieces?_append {p : Piece} {cs : List Char} (h : p.Spelled cs)
    (rest : List Char) :
    pieces? (cs ++ rest) = (pieces? rest).map fun (pieces, rest) => (p :: pieces, rest) := by
  cases h with
  | plain hcontrol hquote hslash =>
    simp [pieces?, hslash, Nat.not_lt.mpr hcontrol, Option.map_eq_bind]
  | @short e c h =>
    have hescaped : ∀ x ∈ shortEscapes, escaped? x.1 = some x.2 := by decide
    exact pieces?_escaped (hescaped _ h) rest
  | unit h hn =>
    rw [pieces?_unit h, if_neg (by omega)]
  | half h hn => rw [pieces?_unit h, if_pos hn]

/-- The spelling of some pieces with a quote behind it is read as these pieces. -/
theorem SpellsPieces.pieces?_eq {ps : List Piece} {cs : List Char} (h : SpellsPieces ps cs)
    (rest : List Char) : pieces? (cs ++ '"' :: rest) = some (ps, rest) := by
  induction h with
  | nil => simp [pieces?]
  | cons hp _ ih => rw [List.append_assoc, hp.pieces?_append, ih, Option.map_some]

/-- Elements that make a text are assembled to it. -/
theorem Assembles.assemble?_eq {ps : List Piece} {s : List Char} (h : Assembles ps s) :
    assemble? ps = some s := by
  induction h with
  | nil => rfl
  | char c _ ih => simp [assemble?, ih]
  | @pair ps s c hc _ ih =>
    have hvalid : c.toNat < 0xD800 ∨ 0xDFFF < c.toNat ∧ c.toNat < 0x110000 := c.valid
    have hvalue : 0x10000 + (0xD800 + (c.toNat - 0x10000) / 0x400 - 0xD800) * 0x400 +
        (0xDC00 + (c.toNat - 0x10000) % 0x400 - 0xDC00) = c.toNat := by
      omega
    rw [assemble?, if_pos (by omega), ih, hvalue, Char.ofNat_toNat]
    rfl

/-- What is assembled is the text that the elements make. -/
theorem assembles_of_assemble? {ps : List Piece} {s : List Char}
    (hhalf : ∀ n, .half n ∈ ps → 0xD800 ≤ n ∧ n < 0xE000) (h : assemble? ps = some s) :
    Assembles ps s := by
  fun_induction assemble? ps generalizing s with
  | case1 =>
    cases h
    exact .nil
  | case2 c ps ih =>
    obtain ⟨s, hs, rfl⟩ := Option.map_eq_some_iff.mp h
    exact .char c (ih (fun n hn => hhalf n (List.mem_cons_of_mem _ hn)) hs)
  | case3 high low ps hpair ih =>
    obtain ⟨s, hs, rfl⟩ := Option.map_eq_some_iff.mp h
    have hhigh := hhalf high (by simp)
    have hlow := hhalf low (by simp)
    have hrest := ih (fun n hn => hhalf n (by simp [hn])) hs
    have hchar : (Char.ofNat (0x10000 + (high - 0xD800) * 0x400 + (low - 0xDC00))).toNat =
        0x10000 + (high - 0xD800) * 0x400 + (low - 0xDC00) := by
      rw [Char.ofNat, dif_pos (.inr ⟨by omega, by omega⟩)]
      rfl
    have hplane : 0x10000 ≤
        (Char.ofNat (0x10000 + (high - 0xD800) * 0x400 + (low - 0xDC00))).toNat := by
      rw [hchar]
      omega
    have hfirst : high = 0xD800 + ((high - 0xD800) * 0x400 + (low - 0xDC00)) / 0x400 := by omega
    have hsecond : low = 0xDC00 + ((high - 0xD800) * 0x400 + (low - 0xDC00)) % 0x400 := by omega
    have hmade := Assembles.pair hplane hrest
    rwa [hchar, Nat.add_assoc, Nat.add_sub_cancel_left, ← hfirst, ← hsecond, ← Nat.add_assoc] at hmade
  | case4 => cases h
  | case5 => cases h

/-- A spelled string is read as what its elements stand for. -/
theorem SpellsPieces.next?_eq {ps : List Piece} {cs : List Char} {literal : Literal}
    (h : SpellsPieces ps cs) (hliteral : StandFor ps literal) (rest : List Char) :
    Token.next? ('"' :: (cs ++ '"' :: rest)) = some (.string literal, rest) := by
  -- Halves without a partner are no reason to refuse the string: it is read as no text.
  have hassemble : (assemble? ps).map String.ofList = literal := by
    match literal, hliteral with
    | some s, hs => rw [Assembles.assemble?_eq hs, Option.map_some, String.ofList_toList]
    | none, hnone =>
      rw [Option.map_eq_none_iff, Option.eq_none_iff_forall_ne_some]
      exact fun s hs => hnone s (assembles_of_assemble? (fun _ => h.half_range) hs)
  simp [Token.next?, h.pieces?_eq, hassemble]

/-! ## Numbers -/

/-- Whether a text does not go on with the digits, the fraction or the exponent of a number. -/
def endsNumber : List Char → Bool
  | [] => true
  | c :: _ => !c.isDigit && c != '.' && c != 'e' && c != 'E'

/-- Only the digits of zero start with a zero. -/
theorem toDigits_append_ne_zero_cons {n : Nat} (h : 0 < n) (rest cs : List Char) :
    Nat.toDigits 10 n ++ rest ≠ '0' :: cs := by
  induction n using Nat.strongRecOn generalizing rest with
  | ind n ih =>
    rcases Nat.lt_or_ge n 10 with hlt | hge
    · rw [Nat.toDigits_of_lt_base hlt]
      interval_cases n <;> simp
    · rw [Nat.toDigits_of_base_le (by decide) hge, List.append_assoc]
      exact ih (n / 10) (by omega) (by omega) _

/-- The decimal digits of a number are digits. -/
theorem isDigits_toDigits (n : Nat) : IsDigits (Nat.toDigits 10 n) :=
  ⟨Nat.toDigits_ne_nil, fun _ hc => Nat.isDigit_of_mem_toDigits (by decide) (by decide) hc⟩

/-- What ends a number does not start with a digit. -/
theorem isDigit_head_of_endsNumber {rest : List Char} (h : endsNumber rest = true) :
    ∀ c ∈ rest.head?, c.isDigit = false := by
  cases rest with
  | nil => nofun
  | cons c rest => simp_all [endsNumber]

/-- Digits are read up to what is no digit. -/
theorem IsDigits.digits?_append {ds rest : List Char} (h : IsDigits ds)
    (hrest : ∀ c ∈ rest.head?, c.isDigit = false) : digits? (ds ++ rest) = some (ds, rest) := by
  have htake : rest.takeWhile Char.isDigit = [] := by
    cases rest with
    | nil => rfl
    | cons c rest => simp_all
  have hdrop : rest.dropWhile Char.isDigit = rest := by
    have hsplit := List.takeWhile_append_dropWhile (p := Char.isDigit) (l := rest)
    rwa [htake, List.nil_append] at hsplit
  unfold digits?
  rw [List.takeWhile_append_of_pos h.2, List.dropWhile_append_of_pos h.2, htake, hdrop,
    List.append_nil]
  simp [h.1]

/-- A whole number is read back where no digit follows. -/
theorem whole?_toDigits (n : Nat) {rest : List Char}
    (hrest : ∀ c ∈ rest.head?, c.isDigit = false) :
    whole? (Nat.toDigits 10 n ++ rest) = some (Nat.toDigits 10 n, rest) := by
  rcases Nat.eq_zero_or_pos n with rfl | hpos
  · rw [Nat.toDigits_zero]
    rfl
  · unfold whole?
    split
    · next hzero => exact absurd hzero (toDigits_append_ne_zero_cons hpos _ _)
    · exact (isDigits_toDigits n).digits?_append hrest

/-- A fraction is read up to what is neither a digit nor a point. -/
theorem IsFraction.fraction?_append {cs rest : List Char} (h : IsFraction cs)
    (hrest : ∀ c ∈ rest.head?, c.isDigit = false ∧ c ≠ '.') :
    fraction? (cs ++ rest) = some (cs, rest) := by
  rcases h with rfl | ⟨ds, hds, rfl⟩
  · rw [List.nil_append]
    unfold fraction?
    split
    · exact absurd rfl (hrest '.' rfl).2
    · rfl
  · simp [fraction?, hds.digits?_append fun c hc => (hrest c hc).1]

/-- Digits have no sign. -/
theorem IsDigits.sign_append {ds : List Char} (h : IsDigits ds) (rest : List Char) :
    sign (ds ++ rest) = ([], ds ++ rest) := by
  obtain ⟨d, tail, rfl⟩ := List.exists_cons_of_ne_nil h.1
  have hd := h.2 d List.mem_cons_self
  unfold sign
  split
  · next heq =>
    obtain ⟨rfl, -⟩ := List.cons.inj heq
    exact absurd hd (by decide)
  · next heq =>
    obtain ⟨rfl, -⟩ := List.cons.inj heq
    exact absurd hd (by decide)
  · rfl

/-- An exponent is read to its end. -/
theorem IsExponent.exponent?_append {cs rest : List Char} (h : IsExponent cs)
    (hrest : endsNumber rest = true) : exponent? (cs ++ rest) = some (cs, rest) := by
  rcases h with rfl | ⟨mark, signs, ds, hmark, hsign, hds, rfl⟩
  · rw [List.nil_append]
    unfold exponent?
    split
    · simp [endsNumber] at hrest
    · simp [endsNumber] at hrest
    · rfl
  · have hsigned : sign (signs ++ (ds ++ rest)) = (signs, ds ++ rest) := by
      simp only [List.mem_cons, List.not_mem_nil, or_false] at hsign
      rcases hsign with rfl | rfl | rfl
      · exact hds.sign_append rest
      · rfl
      · rfl
    have hafter : exponentAfter? mark (signs ++ (ds ++ rest)) = some (mark :: (signs ++ ds), rest) := by
      simp [exponentAfter?, hsigned, hds.digits?_append (isDigit_head_of_endsNumber hrest)]
    simp only [List.mem_cons, List.not_mem_nil, or_false] at hmark
    rcases hmark with rfl | rfl <;> simpa [exponent?] using hafter

/-- Neither an exponent nor what follows it starts like a number goes on. -/
theorem IsExponent.head_append {cs rest : List Char} (h : IsExponent cs)
    (hrest : endsNumber rest = true) :
    ∀ c ∈ (cs ++ rest).head?, c.isDigit = false ∧ c ≠ '.' := by
  rcases h with rfl | ⟨mark, signs, ds, hmark, -, -, rfl⟩
  · cases rest with
    | nil => nofun
    | cons c rest => simp_all [endsNumber]
  · simp only [List.mem_cons, List.not_mem_nil, or_false] at hmark
    rcases hmark with rfl | rfl <;> simp

/-- Neither a fraction nor what follows it starts with a digit. -/
theorem IsFraction.head_append {cs rest : List Char} (h : IsFraction cs)
    (hrest : ∀ c ∈ rest.head?, c.isDigit = false) :
    ∀ c ∈ (cs ++ rest).head?, c.isDigit = false := by
  rcases h with rfl | ⟨ds, -, rfl⟩
  · exact hrest
  · simp

/-- A number without its sign is read up to what does not go on with it. -/
theorem unsigned?_append (n : Nat) {fraction exponent rest : List Char} (hf : IsFraction fraction)
    (he : IsExponent exponent) (hrest : endsNumber rest = true) :
    unsigned? (Nat.toDigits 10 n ++ (fraction ++ exponent) ++ rest) =
      some (Nat.toDigits 10 n, fraction ++ exponent, rest) := by
  have hexponent := he.head_append hrest
  have hfraction := hf.head_append fun c hc => (hexponent c hc).1
  simp [unsigned?, whole?_toDigits n hfraction, hf.fraction?_append hexponent,
    he.exponent?_append hrest]

/-- A text that starts with a digit or a minus is read as a number. -/
theorem next?_eq_number? {c : Char} (hc : c.isDigit = true ∨ c = '-') (cs : List Char) :
    Token.next? (c :: cs) = number? (c :: cs) := by
  unfold Token.next?
  split
  case h_11 => rfl
  -- No other token starts so.
  all_goals
    next heq =>
    obtain ⟨rfl, -⟩ := List.cons.inj heq
    exact absurd hc (by decide)

/-- A number without a minus is read up to what does not go on with it. -/
theorem next?_toDigits (n : Nat) {fraction exponent rest : List Char} (hf : IsFraction fraction)
    (he : IsExponent exponent) (hrest : endsNumber rest = true) :
    Token.next? (Nat.toDigits 10 n ++ (fraction ++ exponent) ++ rest) =
      some (if (fraction ++ exponent).isEmpty then .natural n
        else .real (String.ofList (Nat.toDigits 10 n ++ (fraction ++ exponent))), rest) := by
  have hunsigned := unsigned?_append n hf he hrest
  obtain ⟨d, tail, heq⟩ := List.exists_cons_of_ne_nil (isDigits_toDigits n).1
  have hd := (isDigits_toDigits n).2 d (heq ▸ List.mem_cons_self)
  have hcons : Nat.toDigits 10 n ++ (fraction ++ exponent) ++ rest =
      d :: (tail ++ (fraction ++ exponent) ++ rest) := by
    rw [heq]
    rfl
  have hnumber : number? (Nat.toDigits 10 n ++ (fraction ++ exponent) ++ rest) =
      (unsigned? (Nat.toDigits 10 n ++ (fraction ++ exponent) ++ rest)).bind fun u =>
        some (if u.2.1.isEmpty then .natural (Nat.ofDigitChars 10 u.1 0)
          else .real (String.ofList (u.1 ++ u.2.1)), u.2.2) := by
    unfold number?
    split
    · next hminus =>
      rw [hcons] at hminus
      obtain ⟨rfl, -⟩ := List.cons.inj hminus
      exact absurd hd (by decide)
    · rfl
  rw [hcons, next?_eq_number? (.inl hd), ← hcons, hnumber, hunsigned]
  simp only [Option.bind_some, Nat.ofDigitChars_ten_toDigits]

/-- Behind a minus stands an unsigned number. -/
theorem number?_minus (cs : List Char) : number? ('-' :: cs) = (unsigned? cs).bind fun u =>
    some (.real (String.ofList ('-' :: u.1 ++ u.2.1)), u.2.2) := rfl

/-- A digit is not blank. -/
theorem isBlank_eq_false_of_isDigit {c : Char} (h : c.isDigit = true) : isBlank c = false := by
  rw [Bool.eq_false_iff]
  intro hblank
  simp only [isBlank, Bool.or_eq_true, decide_eq_true_eq] at hblank
  rcases hblank with ((rfl | rfl) | rfl) | rfl <;> contradiction

/-! ## Tokens -/

/-- Whether a token is a number. -/
def Token.isNumber : Token → Bool
  | .natural _ | .real _ => true
  | _ => false

/-- No token starts with a blank. -/
theorem Token.Spelled.exists_cons {t : Token} {cs : List Char} (h : t.Spelled cs) :
    ∃ c tail, cs = c :: tail ∧ isBlank c = false := by
  have hdigits : ∀ n cs, ∃ c tail, Nat.toDigits 10 n ++ cs = c :: tail ∧ isBlank c = false := by
    intro n cs
    obtain ⟨d, tail, heq⟩ := List.exists_cons_of_ne_nil (isDigits_toDigits n).1
    have hd := (isDigits_toDigits n).2 d (heq ▸ List.mem_cons_self)
    exact ⟨d, tail ++ cs, by rw [heq, List.cons_append], isBlank_eq_false_of_isDigit hd⟩
  cases h with
  | natural n => simpa using hdigits n []
  | real n hf he hne => exact hdigits n _
  | _ => exact ⟨_, _, rfl, rfl⟩

/-- A token that is no number does not go on with one. -/
theorem Token.Spelled.endsNumber_append {t : Token} {cs : List Char} (h : t.Spelled cs)
    (ht : t.isNumber = false) (rest : List Char) : endsNumber (cs ++ rest) = true := by
  cases h <;> first | rfl | cases ht

/-- A spelled token is cut from the front of a text, if what follows does not go on with it. -/
theorem Token.Spelled.next?_eq {t : Token} {cs : List Char} (h : t.Spelled cs) {rest : List Char}
    (hrest : t.isNumber = true → endsNumber rest = true) :
    Token.next? (cs ++ rest) = some (t, rest) := by
  cases h with
  | natural n => simpa using next?_toDigits n (.inl rfl) (.inl rfl) (hrest rfl)
  | negative n hf he =>
    have hunsigned := unsigned?_append n hf he (hrest rfl)
    rw [List.cons_append, List.cons_append, next?_eq_number? (.inr rfl), number?_minus, hunsigned]
    rfl
  | real n hf he hne =>
    rw [next?_toDigits n hf he (hrest rfl), if_neg (by simpa using hne)]
  | string hps hliteral => simpa using hps.next?_eq hliteral rest
  | _ => rfl

/-- Blanks before a token are passed over. -/
theorem ofChars?_blanks {blanks : List Char} (h : Blanks blanks) (cs : List Char) :
    Token.ofChars? (blanks ++ cs) = Token.ofChars? cs := by
  induction blanks with
  | nil => rfl
  | cons c blanks ih =>
    rw [List.cons_append, Token.ofChars?, if_pos (h c List.mem_cons_self)]
    exact ih fun d hd => h d (List.mem_cons_of_mem _ hd)

/-- A token is read, and then the rest. -/
theorem ofChars?_token {c : Char} {cs rest : List Char} {t : Token} (hblank : isBlank c = false)
    (hnext : Token.next? (c :: cs) = some (t, rest)) :
    Token.ofChars? (c :: cs) = (Token.ofChars? rest).map (t :: ·) := by
  rw [Token.ofChars?, if_neg (by simp [hblank])]
  split
  · next hnone => simp_all
  · next hsome =>
    rw [hnext] at hsome
    cases hsome
    rfl

/-- No number follows another. -/
def Separated : List Token → Prop
  | [] => True
  | t :: ts => (t.isNumber = true → ∀ u ∈ ts.head?, u.isNumber = false) ∧ Separated ts

/-- What is laid out behind a number does not go on with it. -/
theorem Layout.endsNumber_of_head {ts : List Token} {cs : List Char} (h : Layout ts cs)
    (hhead : ∀ u ∈ ts.head?, u.isNumber = false) : endsNumber cs = true := by
  have hblank : ∀ blanks rest, Blanks blanks → endsNumber rest = true →
      endsNumber (blanks ++ rest) = true := by
    intro blanks rest hblanks hrest
    cases blanks with
    | nil => exact hrest
    | cons c blanks =>
      have hc := hblanks c List.mem_cons_self
      simp only [isBlank, Bool.or_eq_true, decide_eq_true_eq] at hc
      rcases hc with ((rfl | rfl) | rfl) | rfl <;> rfl
  cases h with
  | done h => simpa using hblank cs [] h rfl
  | token hblanks ht _ => exact hblank _ _ hblanks (ht.endsNumber_append (hhead _ rfl) _)

/-- Tokens that are laid out are cut from the text. -/
theorem Layout.ofChars?_eq {ts : List Token} {cs : List Char} (h : Layout ts cs)
    (hsep : Separated ts) : Token.ofChars? cs = some ts := by
  induction h with
  | @done blanks h =>
    have hnil := ofChars?_blanks h []
    rw [List.append_nil] at hnil
    rw [hnil, Token.ofChars?]
  | @token t ts blanks cs rest hblanks ht h ih =>
    -- Only behind a number does it matter how the rest starts.
    obtain ⟨hnumber, hrest⟩ := hsep
    have hnext := ht.next?_eq fun hn => h.endsNumber_of_head (hnumber hn)
    obtain ⟨c, tail, rfl, hblank⟩ := ht.exists_cons
    rw [List.cons_append] at hnext
    rw [ofChars?_blanks hblanks, List.cons_append, ofChars?_token hblank hnext, ih hrest]
    rfl

/-! ## Values -/

/-- What holds of lists and objects if it holds of what is in them, and of all other values, holds of
every value. -/
theorem induction {motive : Json → Prop} (null : motive .null) (bool : ∀ b, motive (.bool b))
    (natural : ∀ n, motive (.natural n)) (real : ∀ text, motive (.real text))
    (string : ∀ literal, motive (.string literal))
    (array : ∀ items, (∀ j ∈ items, motive j) → motive (.array items))
    (object : ∀ members : List (Literal × Json), (∀ m ∈ members, motive m.2) →
      motive (.object members)) : ∀ j, motive j
  | .null => null
  | .bool b => bool b
  | .natural n => natural n
  | .real text => real text
  | .string literal => string literal
  | .array items => array items fun j _ => induction null bool natural real string array object j
  | .object members => object members fun m hm => by
    have hsize := List.sizeOf_lt_of_mem hm
    have hvalue : sizeOf m.2 < sizeOf m := by
      cases m
      simp
    exact induction null bool natural real string array object m.2

/-- Tokens that may stand behind a number, and among which no number follows another. -/
def Fenced (ts : List Token) : Prop := Separated ts ∧ ∀ u ∈ ts.head?, u.isNumber = false

/-- A token that is no number may stand before any. -/
theorem Separated.cons {t : Token} (ht : t.isNumber = false) {ts : List Token} (h : Separated ts) :
    Separated (t :: ts) := by
  refine ⟨fun hnumber => ?_, h⟩
  rw [ht] at hnumber
  cases hnumber

/-- A token that is no number is a fence. -/
theorem Fenced.cons {t : Token} (ht : t.isNumber = false) {ts : List Token} (h : Separated ts) :
    Fenced (t :: ts) := by
  refine ⟨.cons ht h, fun u hu => ?_⟩
  cases hu
  exact ht

/-- The items of an array are separated, and a comma or a bracket follows each. -/
theorem fenced_itemTokens {items : List Json}
    (hitems : ∀ j ∈ items, ∀ ts, Fenced ts → Separated (tokens j ++ ts))
    {ts : List Token} (hts : Fenced ts) : Fenced (itemTokens items ++ ts) := by
  induction items with
  | nil => exact hts
  | cons item items ih =>
    have hrest := ih fun j hj => hitems j (List.mem_cons_of_mem _ hj)
    rw [itemTokens, List.cons_append, List.append_assoc]
    exact .cons rfl (hitems item List.mem_cons_self _ hrest)

/-- The members of an object are separated, and a comma or a brace follows each. -/
theorem fenced_memberTokens {members : List (Literal × Json)}
    (hmembers : ∀ m ∈ members, ∀ ts, Fenced ts → Separated (tokens m.2 ++ ts))
    {ts : List Token} (hts : Fenced ts) : Fenced (memberTokens members ++ ts) := by
  induction members with
  | nil => exact hts
  | cons member members ih =>
    obtain ⟨name, value⟩ := member
    have hrest := ih fun m hm => hmembers m (List.mem_cons_of_mem _ hm)
    have hvalue := hmembers _ List.mem_cons_self _ hrest
    simp only [memberTokens, List.cons_append, List.append_assoc]
    exact .cons rfl (.cons rfl (.cons rfl hvalue))

/-- In the tokens of a value no number follows another. -/
theorem separated_tokens (j : Json) : ∀ ts, Fenced ts → Separated (tokens j ++ ts) := by
  induction j using induction with
  | null | bool _ | string _ => exact fun ts hts => .cons rfl hts.1
  | natural _ | real _ => exact fun ts hts => ⟨fun _ => hts.2, hts.1⟩
  | array items ih =>
    intro ts hts
    have hclosed : Fenced (.closeBracket :: ts) := .cons rfl hts.1
    cases items with
    | nil => exact .cons rfl hclosed.1
    | cons item items =>
      have hitems := fenced_itemTokens (fun j hj => ih j (List.mem_cons_of_mem _ hj)) hclosed
      have hitem := ih item List.mem_cons_self _ hitems
      simp only [tokens, List.cons_append, List.append_assoc, List.nil_append]
      exact .cons rfl hitem
  | object members ih =>
    intro ts hts
    have hclosed : Fenced (.closeBrace :: ts) := .cons rfl hts.1
    cases members with
    | nil => exact .cons rfl hclosed.1
    | cons member members =>
      obtain ⟨name, value⟩ := member
      have hmembers := fenced_memberTokens (fun m hm => ih m (List.mem_cons_of_mem _ hm)) hclosed
      have hvalue := ih _ List.mem_cons_self _ hmembers
      simp only [tokens, List.cons_append, List.append_assoc, List.nil_append]
      exact .cons rfl (.cons rfl (.cons rfl hvalue))

/-! ## Reading from where a value is awaited -/

namespace Reader

/-- A reader that takes any value, which then stands inside what is open on a stack. -/
def Awaits (r : Reader) (stack : List Frame) : Prop :=
  ∀ t r', open? stack t = some r' → r.step? t = some r'

/-- Where a value is expected, it completes the stack. -/
theorem awaits_value (stack : List Frame) : Awaits (.value stack) stack := fun _ _ h => h

/-- Behind an opening bracket the first item is expected. -/
theorem awaits_firstItem (stack : List Frame) :
    Awaits (.firstItem stack) (.array [] :: stack) := by
  intro t r' h
  cases t <;> first | exact h | cases h

/-- A token moves a reader on by one step. -/
theorem foldlM_token {r r' : Reader} {t : Token} (h : r.step? t = some r') (ts : List Token) :
    (t :: ts).foldlM step? r = ts.foldlM step? r' := by
  rw [List.foldlM_cons, h]
  rfl

/-- The items behind the first one and the end of their list. -/
theorem foldlM_itemTokens {items : List Json}
    (hitems : ∀ j ∈ items, ∀ r stack ts, Awaits r stack →
      (tokens j ++ ts).foldlM step? r = ts.foldlM step? (.after j stack))
    (v : Json) (read : List Json) (stack : List Frame) (ts : List Token) :
    (itemTokens items ++ .closeBracket :: ts).foldlM step? (.after v (.array read :: stack)) =
      ts.foldlM step? (.after (.array ((v :: read).reverse ++ items)) stack) := by
  induction items generalizing v read with
  | nil =>
    rw [itemTokens, List.nil_append, List.append_nil]
    exact foldlM_token rfl ts
  | cons item items ih =>
    simp only [itemTokens, List.cons_append, List.append_assoc]
    rw [foldlM_token rfl, hitems item List.mem_cons_self _ _ _ (awaits_value _),
      ih (fun j hj => hitems j (List.mem_cons_of_mem item hj))]
    simp

/-- The members behind the first one and the end of their object. -/
theorem foldlM_memberTokens {members : List (Literal × Json)}
    (hmembers : ∀ m ∈ members, ∀ r stack ts, Awaits r stack →
      (tokens m.2 ++ ts).foldlM step? r = ts.foldlM step? (.after m.2 stack))
    (v : Json) (name : Literal) (read : List (Literal × Json)) (stack : List Frame)
    (ts : List Token) :
    (memberTokens members ++ .closeBrace :: ts).foldlM step? (.after v (.object read name :: stack)) =
      ts.foldlM step? (.after (.object (((name, v) :: read).reverse ++ members)) stack) := by
  induction members generalizing v name read with
  | nil =>
    rw [memberTokens, List.nil_append, List.append_nil]
    exact foldlM_token rfl ts
  | cons member members ih =>
    obtain ⟨name', v'⟩ := member
    simp only [memberTokens, List.cons_append, List.append_assoc]
    rw [foldlM_token rfl, foldlM_token rfl, foldlM_token rfl,
      hmembers _ List.mem_cons_self _ _ _ (awaits_value _),
      ih (fun m hm => hmembers m (List.mem_cons_of_mem _ hm))]
    simp

end Reader

/-- The tokens of a value move a reader from where the value is awaited to behind it. -/
theorem foldlM_tokens (j : Json) : ∀ (r : Reader) (stack : List Frame) (ts : List Token),
    r.Awaits stack →
      (tokens j ++ ts).foldlM Reader.step? r = ts.foldlM Reader.step? (.after j stack) := by
  induction j using induction with
  | null | bool _ | natural _ | real _ | string _ =>
    exact fun r stack ts hr => Reader.foldlM_token (hr _ _ rfl) ts
  | array items ih =>
    intro r stack ts hr
    have hopen : ∀ us, (.openBracket :: us).foldlM Reader.step? r =
        us.foldlM Reader.step? (.firstItem stack) := Reader.foldlM_token (hr _ _ rfl)
    cases items with
    | nil => exact (hopen _).trans (Reader.foldlM_token rfl ts)
    | cons item items =>
      simp only [tokens, List.cons_append, List.append_assoc, List.nil_append]
      rw [hopen, ih item List.mem_cons_self _ _ _ (Reader.awaits_firstItem stack),
        Reader.foldlM_itemTokens fun j hj => ih j (List.mem_cons_of_mem item hj)]
      rfl
  | object members ih =>
    intro r stack ts hr
    have hopen : ∀ us, (.openBrace :: us).foldlM Reader.step? r =
        us.foldlM Reader.step? (.firstName stack) := Reader.foldlM_token (hr _ _ rfl)
    cases members with
    | nil => exact (hopen _).trans (Reader.foldlM_token rfl ts)
    | cons member members =>
      obtain ⟨name, v⟩ := member
      simp only [tokens, List.cons_append, List.append_assoc, List.nil_append]
      rw [hopen, Reader.foldlM_token rfl, Reader.foldlM_token rfl,
        ih _ List.mem_cons_self _ _ _ (Reader.awaits_value _),
        Reader.foldlM_memberTokens fun m hm => ih m (List.mem_cons_of_mem _ hm)]
      rfl

/-- The tokens of a value are read back as the value. -/
theorem ofTokens?_tokens (j : Json) : ofTokens? j.tokens = some j := by
  have hrun := foldlM_tokens j (.value []) [] [] (Reader.awaits_value [])
  rw [List.append_nil] at hrun
  unfold ofTokens?
  rw [hrun]
  rfl

/-- What is spelled is read. -/
theorem parse?_of_spelled {j : Json} {text : String} (h : j.Spelled text) :
    parse? text = some j := by
  have hsep := separated_tokens j [] ⟨trivial, nofun⟩
  rw [List.append_nil] at hsep
  unfold parse?
  rw [Layout.ofChars?_eq h hsep]
  exact ofTokens?_tokens j

end PeListing.Json
