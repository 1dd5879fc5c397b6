import PeListing.Json.Pretty
import PeListing.Symbol.Table

/-!
# Symbol tables as text

A symbol table is printed as a JSON document or as one line for each symbol.
-/

namespace PeListing

/-- A symbol as a document. -/
def Symbol.toJson (s : Symbol) : Json :=
  .ofMembers [
    ("address", .natural s.address.toNat),
    ("module_name", .ofText s.moduleName),
    ("symbol_name", .ofText s.name)]

namespace SymbolTable

/-- A symbol table as a document. -/
def toJson (t : SymbolTable) : Json :=
  .ofMembers [
    ("symbols", .array (t.toList.map Symbol.toJson)),
    ("skipped", .natural t.skipped)]

/-- The text of a symbol table as a document. -/
def pretty (t : SymbolTable) : String := t.toJson.pretty

/-- A line for each symbol: its address and its qualified name. -/
def render (t : SymbolTable) : String :=
  String.join (t.toList.map fun s =>
    Numeral.upperHex 8 s.address.toNat ++ "  " ++ s.qualifiedName ++ "\n")

end SymbolTable

end PeListing
