import PeListing.Json.Pretty
import PeListing.Proofs.JsonGrammar
import PeListing.Proofs.Numerals

/-!
# What is written as JSON is read back

The writer goes through a value, the reader through a text, and neither knows of the other. They meet
in the grammar: a written value spells that value, one line below the other (`spelled_pretty`), and
what is spelled is read (`parse?_of_spelled`).

Strings whose escapes make no text and numbers that are no natural ones are never written by this
library. `Plain` leaves them out.
-/

namespace PeListing.Json

/-! ### Strings -/

/-- Four digits are enough for a number of 16 bits. -/
theorem spellsUnit_hexDigits (n : Nat) (h : n < 0x10000) :
    SpellsUnit n (Numeral.zeroPad 4 (Numeral.hexDigits n)) :=
  ⟨Numeral.length_zeroPad_hexDigits (by decide) h, Numeral.ofHex?_zeroPad_hexDigits 4 n⟩

/-- What stands for a character in a string spells that character. -/
theorem spelled_escape (c : Char) : Piece.Spelled (.char c) (escape c) := by
  have hchar : Char.ofNat c.toNat = c := Char.ofNat_toNat c
  unfold escape
  split_ifs with hquote hslash hback hfeed hline hreturn htab hcontrol
  · exact .short (by simp [shortEscapes, hquote])
  · exact .short (by simp [shortEscapes, hslash])
  · rw [← hchar, hback]
    exact .short (by decide)
  · rw [← hchar, hfeed]
    exact .short (by decide)
  · exact .short (by simp [shortEscapes, hline])
  · exact .short (by simp [shortEscapes, hreturn])
  · exact .short (by simp [shortEscapes, htab])
  · have hspelled : Piece.Spelled (.char (Char.ofNat c.toNat)) _ :=
      .unit (spellsUnit_hexDigits c.toNat (by omega)) (by omega)
    rwa [hchar] at hspelled
  · exact .plain (Nat.not_lt.mp hcontrol) hquote hslash

/-- Escaped characters spell themselves. -/
theorem spellsPieces_flatMap_escape (cs : List Char) :
    SpellsPieces (cs.map .char) (cs.flatMap escape) := by
  induction cs with
  | nil => exact .nil
  | cons c cs ih => exact .cons (spelled_escape c) ih

/-- Characters assemble to themselves. -/
theorem assembles_map_char (cs : List Char) : Assembles (cs.map .char) cs := by
  induction cs with
  | nil => exact .nil
  | cons c cs ih => exact .char c ih

/-- A quoted text spells that text. -/
theorem spelled_quote (s : String) : Token.Spelled (.string (some s)) (quote s.toList) :=
  .string (spellsPieces_flatMap_escape s.toList) (assembles_map_char s.toList)

/-! ### Values -/

/-- A document without numbers other than natural ones and without strings that make no text. -/
inductive Plain : Json → Prop
  | null : Plain .null
  | bool (b : Bool) : Plain (.bool b)
  | natural (n : Nat) : Plain (.natural n)
  | string (s : String) : Plain (.string (some s))
  | array {items : List Json} (h : ∀ j ∈ items, Plain j) : Plain (.array items)
  | object {members : List (Literal × Json)} (hname : ∀ m ∈ members, m.1.isSome = true)
      (h : ∀ m ∈ members, Plain m.2) : Plain (.object members)

/-- An object of plain members is plain. -/
theorem Plain.ofMembers {members : List (String × Json)} (h : ∀ m ∈ members, Plain m.2) :
    Plain (.ofMembers members) := by
  apply Plain.object
  · intro m hm
    obtain ⟨m', -, rfl⟩ := List.mem_map.mp hm
    rfl
  · intro m hm
    obtain ⟨m', hm', rfl⟩ := List.mem_map.mp hm
    exact h m' hm'

namespace Layout

variable {ts : List Token} {rest : List Char}

/-- One more token in front. -/
theorem cons {t : Token} {cs : List Char} (ht : t.Spelled cs) (h : Layout ts rest) :
    Layout (t :: ts) (cs ++ rest) := by
  have hnone : Blanks [] := nofun
  exact .token hnone ht h

/-- More blanks in front. -/
theorem blanks {cs : List Char} (hcs : Blanks cs) (h : Layout ts rest) : Layout ts (cs ++ rest) := by
  have hall : ∀ ds, Blanks ds → Blanks (cs ++ ds) := by
    intro ds hds c hc
    rcases List.mem_append.mp hc with hc | hc
    · exact hcs c hc
    · exact hds c hc
  cases h with
  | done hds => exact .done (hall _ hds)
  | token hds ht h =>
    rw [← List.append_assoc]
    exact .token (hall _ hds) ht h

/-- A line break with its indentation may stand before any token. -/
theorem newline (depth : Nat) (h : Layout ts rest) : Layout ts (newline depth ++ rest) := by
  refine h.blanks fun c hc => ?_
  rcases List.mem_cons.mp hc with rfl | hc
  · rfl
  · rw [List.eq_of_mem_replicate hc]
    rfl

/-- A name and its colon in front. -/
theorem name (name : String) (h : Layout ts rest) :
    Layout (.string (some name) :: .colon :: ts)
      (writeLiteral (some name) ++ ':' :: ' ' :: rest) := by
  have hblank : Blanks [' '] := by simp [Blanks, isBlank]
  exact .cons (spelled_quote name) (.cons .colon (h.blanks hblank))

/-- The items behind the first one in front of the end of their list. -/
theorem writeItems {depth : Nat} {items : List Json}
    (hitems : ∀ j ∈ items, ∀ ts rest, Layout ts rest → Layout (tokens j ++ ts) (write depth j ++ rest))
    (h : Layout ts rest) : Layout (itemTokens items ++ ts) (writeItems depth items ++ rest) := by
  induction items with
  | nil => exact h
  | cons item items ih =>
    have hrest := ih fun j hj => hitems j (List.mem_cons_of_mem _ hj)
    simp only [itemTokens, Json.writeItems, List.cons_append, List.append_assoc]
    exact .cons .comma ((hitems item List.mem_cons_self _ _ hrest).newline depth)

/-- The members behind the first one in front of the end of their object. -/
theorem writeMembers {depth : Nat} {members : List (Literal × Json)}
    (hnames : ∀ m ∈ members, m.1.isSome = true)
    (hmembers : ∀ m ∈ members, ∀ ts rest, Layout ts rest →
      Layout (tokens m.2 ++ ts) (write depth m.2 ++ rest))
    (h : Layout ts rest) :
    Layout (memberTokens members ++ ts) (writeMembers depth members ++ rest) := by
  induction members with
  | nil => exact h
  | cons member members ih =>
    obtain ⟨literal, value⟩ := member
    obtain ⟨text, rfl⟩ := Option.isSome_iff_exists.mp (hnames _ List.mem_cons_self)
    have hrest := ih (fun m hm => hnames m (List.mem_cons_of_mem _ hm))
      fun m hm => hmembers m (List.mem_cons_of_mem _ hm)
    have hvalue := hmembers _ List.mem_cons_self _ _ hrest
    simp only [memberTokens, Json.writeMembers, List.cons_append, List.append_assoc, List.nil_append]
    exact .cons .comma ((hvalue.name text).newline depth)

end Layout

/-- A written value lays out the tokens of that value. -/
theorem layout_write {j : Json} (h : Plain j) (depth : Nat) {ts : List Token} {rest : List Char}
    (hrest : Layout ts rest) : Layout (tokens j ++ ts) (write depth j ++ rest) := by
  induction h generalizing depth ts rest with
  | null => exact .cons .null hrest
  | bool b =>
    cases b with
    | true => exact .cons .boolTrue hrest
    | false => exact .cons .boolFalse hrest
  | natural n => exact .cons (.natural n) hrest
  | string s => exact .cons (spelled_quote s) hrest
  | @array items h ih =>
    cases items with
    | nil =>
      have hempty := Layout.cons .openBracket (Layout.cons .closeBracket hrest)
      rwa [tokens, write]
    | cons item items =>
      have hclosed := (Layout.cons .closeBracket hrest).newline depth
      have hitems := Layout.writeItems
        (fun j hj ts rest h => ih j (List.mem_cons_of_mem _ hj) (depth + 1) h) hclosed
      have hitem := ih item List.mem_cons_self (depth + 1) hitems
      simp only [tokens, write, List.cons_append, List.append_assoc, List.nil_append]
      exact .cons .openBracket (hitem.newline (depth + 1))
  | @object members hname h ih =>
    cases members with
    | nil =>
      have hempty := Layout.cons .openBrace (Layout.cons .closeBrace hrest)
      rwa [tokens, write]
    | cons member members =>
      obtain ⟨literal, value⟩ := member
      obtain ⟨text, rfl⟩ := Option.isSome_iff_exists.mp (hname _ List.mem_cons_self)
      have hclosed := (Layout.cons .closeBrace hrest).newline depth
      have hmembers := Layout.writeMembers (fun m hm => hname m (List.mem_cons_of_mem _ hm))
        (fun m hm ts rest h => ih m (List.mem_cons_of_mem _ hm) (depth + 1) h) hclosed
      have hvalue := ih _ List.mem_cons_self (depth + 1) hmembers
      simp only [tokens, write, List.cons_append, List.append_assoc, List.nil_append]
      exact .cons .openBrace ((hvalue.name text).newline (depth + 1))

/-- What is written is a document of the value. -/
theorem spelled_pretty {j : Json} (h : Plain j) : j.Spelled (pretty j) := by
  have hnone : Blanks [] := nofun
  have hwrite := layout_write h 0 (.done hnone)
  rw [List.append_nil, List.append_nil] at hwrite
  unfold Spelled pretty
  rwa [String.toList_ofList]

/-- What is written is read back. -/
theorem parse?_pretty_of_plain {j : Json} (h : Plain j) : parse? (pretty j) = some j :=
  parse?_of_spelled (spelled_pretty h)

end PeListing.Json
