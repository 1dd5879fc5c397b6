import PeListing.Command.Run
import PeListing.Proofs.SettingsText

/-!
# The text of a symbol table loses nothing

A symbol table is printed as a document. `SymbolTable.decode?` reads such a document without knowing
how it is printed: an object with the fields of a table, and in it a list of objects with the fields of
a symbol each. It finds the symbols of the table in their order and the number of entries that were
passed over (`SymbolTable.pretty_lossless`), so different tables have different texts.
-/

namespace PeListing

namespace Json

/-- A field that must be there. -/
def required? {α : Type} (lookup : String → Option Json) (name : String) (read? : Json → Option α) :
    Option α := (lookup name).bind read?

/-- The items of a list. -/
def items? : Json → Option (List Json)
  | .array items => some items
  | _ => none

/-- A number written with digits only. -/
def natural? : Json → Option Nat
  | .natural n => some n
  | _ => none

/-- A member that is there and can be read is read. -/
theorem required?_of_lookup {α : Type} {lookup : String → Option Json} {name : String} {v : Json}
    {a : α} {read? : Json → Option α} (h : lookup name = some v) (hread : read? v = some a) :
    required? lookup name read? = some a := by
  rw [required?, h]
  exact hread

end Json

namespace Symbol

/-- The symbol of a document. -/
def ofJson? (j : Json) : Option Symbol := do
  let lookup ← j.record? ["address", "module_name", "symbol_name"]
  return {
    address := ← Json.required? lookup "address" Json.u64?
    moduleName := ← Json.required? lookup "module_name" Json.text?
    name := ← Json.required? lookup "symbol_name" Json.text? }

/-- A symbol is read back. -/
theorem ofJson?_toJson (s : Symbol) : ofJson? s.toJson = some s := by
  unfold ofJson? toJson
  rw [Json.record?_ofMembers (by simp)]
  simp only [Option.bind_eq_bind, Option.bind_some]
  rw [Json.required?_of_lookup rfl (Json.u64?_toNat s.address),
    Json.required?_of_lookup rfl (Json.text?_ofText s.moduleName),
    Json.required?_of_lookup rfl (Json.text?_ofText s.name)]
  rfl

/-- A symbol is written with plain texts and numbers. -/
theorem plain_toJson (s : Symbol) : s.toJson.Plain := by
  apply Json.Plain.ofMembers
  simp [Json.Plain.natural, Json.ofText, Json.Plain.string]

/-- Symbols are read back one by one. -/
theorem mapM_ofJson?_map_toJson (symbols : List Symbol) :
    (symbols.map toJson).mapM ofJson? = some symbols := by
  induction symbols with
  | nil => rfl
  | cons s symbols ih => simp [List.mapM_cons, ofJson?_toJson, ih]

end Symbol

namespace SymbolTable

/-- The symbols of a document in their order, and the number of entries that were passed over. -/
def ofJson? (j : Json) : Option (List Symbol × Nat) := do
  let lookup ← j.record? ["symbols", "skipped"]
  let items ← Json.required? lookup "symbols" Json.items?
  return (← items.mapM Symbol.ofJson?, ← Json.required? lookup "skipped" Json.natural?)

/-- What a text says of a symbol table. -/
def decode? (text : String) : Option (List Symbol × Nat) := do ofJson? (← Json.parse? text)

/-- A table is read back as its symbols and its count. -/
theorem ofJson?_toJson (t : SymbolTable) : ofJson? t.toJson = some (t.toList, t.skipped) := by
  have hitems : Json.items? (.array (t.toList.map Symbol.toJson)) =
    some (t.toList.map Symbol.toJson) := rfl
  have hskipped : Json.natural? (.natural t.skipped) = some t.skipped := rfl
  unfold ofJson? toJson
  rw [Json.record?_ofMembers (by simp)]
  simp only [Option.bind_eq_bind, Option.bind_some]
  rw [Json.required?_of_lookup rfl hitems, Json.required?_of_lookup rfl hskipped]
  simp only [Option.bind_some, Symbol.mapM_ofJson?_map_toJson]
  rfl

/-- A table is written with plain texts and numbers. -/
theorem plain_toJson (t : SymbolTable) : t.toJson.Plain := by
  have hsymbols : (Json.array (t.toList.map Symbol.toJson)).Plain := by
    refine .array fun j hj => ?_
    obtain ⟨s, -, rfl⟩ := List.mem_map.mp hj
    exact s.plain_toJson
  apply Json.Plain.ofMembers
  simp [hsymbols, Json.Plain.natural]

/-- The text of a table decodes to its symbols and its count. -/
theorem decode?_pretty (t : SymbolTable) : decode? t.pretty = some (t.toList, t.skipped) := by
  have hdocument : Json.parse? t.pretty = some t.toJson := Json.parse?_pretty_of_plain t.plain_toJson
  unfold decode?
  rw [hdocument]
  exact t.ofJson?_toJson

/-- A table is its symbols and its count. -/
theorem eq_of_toList_eq {t t' : SymbolTable} (hlist : t.toList = t'.toList)
    (hskipped : t.skipped = t'.skipped) : t = t' := by
  obtain ⟨symbols, skipped, _⟩ := t
  obtain ⟨symbols', skipped', _⟩ := t'
  obtain rfl : symbols = symbols' := Array.toList_inj.mp hlist
  obtain rfl : skipped = skipped' := hskipped
  rfl

/-- **The text of a symbol table loses nothing.** It is a JSON document, and decoding it gives the
symbols of the table in their order, whatever their addresses and the characters of their names are,
and the number of entries that were passed over. It is what the command prints for the table, but for
the line break at the end. Tables with one text are equal. -/
theorem pretty_lossless (t : SymbolTable) :
    t.toJson.Spelled t.pretty ∧ decode? t.pretty = some (t.toList, t.skipped) ∧
    (∀ options : Options, options.json = true →
      Session.writeSymbols options t = t.pretty ++ "\n") ∧
    ∀ t' : SymbolTable, t'.pretty = t.pretty → t' = t := by
  refine ⟨Json.spelled_pretty t.plain_toJson, t.decode?_pretty, ?_, fun t' heq => ?_⟩
  · intro options hjson
    rw [Session.writeSymbols, if_pos hjson]
  · have hsame := t'.decode?_pretty
    rw [heq, t.decode?_pretty] at hsame
    obtain ⟨hlist, hskipped⟩ := Prod.mk.inj (Option.some.inj hsame)
    exact eq_of_toList_eq hlist.symm hskipped.symm

/-- A table with the greatest address and a name that holds a quote, a backslash, a control character
and a replacement character, as the command prints it. -/
theorem pretty_lossless_sample :
    ∃ t : SymbolTable, t.toList = [⟨0xFFFFFFFFFFFFFFFF, "k", "\"\\\x01\uFFFD"⟩] ∧
      decode? t.pretty = some ([⟨0xFFFFFFFFFFFFFFFF, "k", "\"\\\x01\uFFFD"⟩], 3) ∧
      Session.writeSymbols ⟨"a.exe", none, false, true, true, false, "warn", false⟩ t =
        t.pretty ++ "\n" := by
  refine ⟨⟨#[⟨0xFFFFFFFFFFFFFFFF, "k", "\"\\\x01\uFFFD"⟩], 3, List.pairwise_singleton _ _⟩, rfl, ?_, ?_⟩
  · exact (pretty_lossless _).2.1
  · exact (pretty_lossless _).2.2.1 _ rfl

end SymbolTable

end PeListing
