import PeListing.Json.Parse
import PeListing.Json.Pretty
import PeListing.Settings.Basic

/-!
# Settings as JSON

Settings are written as nested objects. A document that is read need not mention every setting: what
it leaves out keeps its default, and names that are no settings are passed over. A group of settings
may also be a list of values in the order in which they are written. A setting that is mentioned
twice, or given a value of another type, makes the document wrong.
-/

namespace PeListing

namespace Json

/-- The value of each of the named fields, where a document has one: an object gives them by name,
each at most once, and a list in order. -/
def record? (names : List String) : Json → Option (String → Option Json)
  | .object members =>
    if members.all (fun (name, _) => name.isSome) &&
        names.all (fun name => members.countP (fun (n, _) => n == some name) ≤ 1) then
      some fun name => members.lookup (some name)
    else none
  | .array items =>
    if items.length ≤ names.length then some fun name => (names.zip items).lookup name else none
  | _ => none

/-- The value of a field, or its default. -/
def field? {α : Type} (lookup : String → Option Json) (name : String) (default : α)
    (read? : Json → Option α) : Option α :=
  match lookup name with
  | none => some default
  | some value => read? value

/-- A number below a bound. -/
def below? (bound : Nat) : Json → Option Nat
  | .natural n => if n < bound then some n else none
  | _ => none

/-- A 32-bit number. -/
def u32? (j : Json) : Option UInt32 := (below? 0x100000000 j).map UInt32.ofNat

/-- A 64-bit number. -/
def u64? (j : Json) : Option UInt64 := (below? 0x10000000000000000 j).map UInt64.ofNat

/-- A truth value. -/
def bool? : Json → Option Bool
  | .bool b => some b
  | _ => none

/-- A text. -/
def text? : Json → Option String
  | .string literal => literal
  | _ => none

end Json

namespace UnresolvedPolicy

/-- The word for a policy. -/
def text : UnresolvedPolicy → String
  | .abort => "abort"
  | .skip => "skip"

/-- The policy of a word. -/
def ofText? (s : String) : Option UnresolvedPolicy :=
  if s = "abort" then some .abort else if s = "skip" then some .skip else none

/-- A policy is a word, or an object with that word as the name of `null` only. -/
def ofJson? : Json → Option UnresolvedPolicy
  | .string (some s) => ofText? s
  | .object [(some s, .null)] => ofText? s
  | _ => none

end UnresolvedPolicy

namespace LoadSettings

/-- The names of the settings, in the order in which they are written. -/
def names : List String := ["max_file_size"]

/-- The settings as members of an object. -/
def members (s : LoadSettings) : List (String × Json) :=
  [("max_file_size", .natural s.maxFileSize.toNat)]

/-- The settings as a document. -/
def toJson (s : LoadSettings) : Json := .ofMembers s.members

/-- The settings of a document. -/
def ofJson? (j : Json) : Option LoadSettings := do
  let defaults : LoadSettings := {}
  let lookup ← j.record? names
  return { maxFileSize := ← Json.field? lookup "max_file_size" defaults.maxFileSize Json.u64? }

end LoadSettings

namespace SymbolSettings

/-- The names of the settings, in the order in which they are written. -/
def names : List String := ["max_exports", "max_imports", "max_name_length", "unresolved"]

/-- The settings as members of an object. -/
def members (s : SymbolSettings) : List (String × Json) :=
  [("max_exports", .natural s.maxExports.toNat), ("max_imports", .natural s.maxImports.toNat),
    ("max_name_length", .natural s.maxNameLength.toNat), ("unresolved", .ofText s.unresolved.text)]

/-- The settings as a document. -/
def toJson (s : SymbolSettings) : Json := .ofMembers s.members

/-- The settings of a document. -/
def ofJson? (j : Json) : Option SymbolSettings := do
  let defaults : SymbolSettings := {}
  let lookup ← j.record? names
  return {
    maxExports := ← Json.field? lookup "max_exports" defaults.maxExports Json.u32?
    maxImports := ← Json.field? lookup "max_imports" defaults.maxImports Json.u32?
    maxNameLength := ← Json.field? lookup "max_name_length" defaults.maxNameLength Json.u64?
    unresolved :=
      ← Json.field? lookup "unresolved" defaults.unresolved UnresolvedPolicy.ofJson? }

end SymbolSettings

namespace ListingSettings

/-- The names of the settings, in the order in which they are written. -/
def names : List String :=
  ["show_labels", "annotate_addresses", "uppercase_mnemonics", "hex_prefix"]

/-- The settings as members of an object. -/
def members (s : ListingSettings) : List (String × Json) :=
  [("show_labels", .bool s.showLabels), ("annotate_addresses", .bool s.annotateAddresses),
    ("uppercase_mnemonics", .bool s.uppercaseMnemonics), ("hex_prefix", .ofText s.hexMark)]

/-- The settings as a document. -/
def toJson (s : ListingSettings) : Json := .ofMembers s.members

/-- The settings of a document. -/
def ofJson? (j : Json) : Option ListingSettings := do
  let defaults : ListingSettings := {}
  let lookup ← j.record? names
  return {
    showLabels := ← Json.field? lookup "show_labels" defaults.showLabels Json.bool?
    annotateAddresses :=
      ← Json.field? lookup "annotate_addresses" defaults.annotateAddresses Json.bool?
    uppercaseMnemonics :=
      ← Json.field? lookup "uppercase_mnemonics" defaults.uppercaseMnemonics Json.bool?
    hexMark := ← Json.field? lookup "hex_prefix" defaults.hexMark Json.text? }

end ListingSettings

namespace Settings

/-- The groups and the names of their settings. -/
def groups : List (String × List String) :=
  [("io", LoadSettings.names), ("symbols", SymbolSettings.names),
    ("listing", ListingSettings.names)]

/-- Documents for the groups as members of an object. -/
def members (load symbols listing : Json) : List (String × Json) :=
  [("io", load), ("symbols", symbols), ("listing", listing)]

/-- The settings as a document. -/
def toJson (s : Settings) : Json :=
  .ofMembers (members s.load.toJson s.symbols.toJson s.listing.toJson)

/-- The settings of a document. -/
def ofJson? (j : Json) : Option Settings := do
  let defaults : Settings := {}
  let lookup ← j.record? (groups.map Prod.fst)
  return {
    load := ← Json.field? lookup "io" defaults.load LoadSettings.ofJson?
    symbols := ← Json.field? lookup "symbols" defaults.symbols SymbolSettings.ofJson?
    listing := ← Json.field? lookup "listing" defaults.listing ListingSettings.ofJson? }

/-- The settings that a text describes. -/
def parse? (text : String) : Option Settings := do ofJson? (← Json.parse? text)

/-- The text of settings. -/
def pretty (s : Settings) : String := s.toJson.pretty

end Settings

end PeListing
