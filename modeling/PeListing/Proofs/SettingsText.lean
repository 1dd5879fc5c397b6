import Mathlib.Data.List.Nodup
import PeListing.Proofs.JsonText
import PeListing.Settings.Json

/-!
# Settings are read back as they were written

The text of settings is that of a plain document, so it is read as that document
(`Json.parse?_pretty_of_plain`). What is left is that a group of settings finds each of its fields
in the object that it was written as. An object in which no name stands twice gives each name its
value (`Json.record?_ofMembers`), and each kind of value is read as what was written.
-/

namespace PeListing

namespace Json

/-- A member is looked up by its name. -/
theorem lookup_map_some (members : List (String × Json)) (name : String) :
    (members.map fun (n, v) => ((some n, v) : Literal × Json)).lookup (some name) =
      members.lookup name := by
  induction members with
  | nil => rfl
  | cons m members ih =>
    obtain ⟨n, v⟩ := m
    have hname : ((some name : Literal) == some n) = (name == n) := by simp
    rw [List.map_cons, List.lookup_cons, List.lookup_cons, hname, ih]

/-- An object in which none of some names stands twice has the values of these names. -/
theorem record?_ofMembers_of_countP {members : List (String × Json)} {names : List String}
    (h : ∀ name ∈ names, members.countP (fun m => m.1 == name) ≤ 1) :
    record? names (.ofMembers members) = some fun name => members.lookup name := by
  unfold record? ofMembers
  simpa [List.countP_map, Function.comp_def, lookup_map_some] using h

/-- An object in which no name stands twice has the value of each of its names. -/
theorem record?_ofMembers {members : List (String × Json)} (h : (members.map Prod.fst).Nodup)
    (names : List String) :
    record? names (.ofMembers members) = some fun name => members.lookup name := by
  refine record?_ofMembers_of_countP fun name _ => ?_
  have hone := List.nodup_iff_count_le_one.mp h name
  rwa [List.count, List.countP_map] at hone

/-- A field that is there is read. -/
theorem field?_of_lookup {α : Type} {lookup : String → Option Json} {name : String} {v : Json}
    {default a : α} {read? : Json → Option α} (h : lookup name = some v)
    (hread : read? v = some a) : field? lookup name default read? = some a := by
  rw [field?, h]
  exact hread

/-- A number of 32 bits is read back. -/
theorem u32?_toNat (n : UInt32) : u32? (.natural n.toNat) = some n := by
  have h : n.toNat < 0x100000000 := n.toNat_lt
  simp [u32?, below?, h]

/-- A number of 64 bits is read back. -/
theorem u64?_toNat (n : UInt64) : u64? (.natural n.toNat) = some n := by
  have h : n.toNat < 0x10000000000000000 := n.toNat_lt
  simp [u64?, below?, h]

theorem bool?_bool (b : Bool) : bool? (.bool b) = some b := rfl

theorem text?_ofText (s : String) : text? (.ofText s) = some s := rfl

end Json

/-- A policy is read back from its text. -/
theorem UnresolvedPolicy.ofJson?_text (policy : UnresolvedPolicy) :
    ofJson? (.ofText policy.text) = some policy := by
  cases policy <;> rfl

/-- The settings for loading are read back. -/
theorem LoadSettings.ofJson?_toJson (s : LoadSettings) : ofJson? s.toJson = some s := by
  unfold ofJson? toJson
  rw [Json.record?_ofMembers (by simp [members])]
  simp only [Option.bind_eq_bind, Option.bind_some]
  rw [Json.field?_of_lookup rfl (Json.u64?_toNat _)]
  rfl

/-- The settings for symbols are read back. -/
theorem SymbolSettings.ofJson?_toJson (s : SymbolSettings) : ofJson? s.toJson = some s := by
  unfold ofJson? toJson
  rw [Json.record?_ofMembers (by simp [members])]
  simp only [Option.bind_eq_bind, Option.bind_some]
  rw [Json.field?_of_lookup rfl (Json.u32?_toNat s.maxExports),
    Json.field?_of_lookup rfl (Json.u32?_toNat s.maxImports),
    Json.field?_of_lookup rfl (Json.u64?_toNat s.maxNameLength),
    Json.field?_of_lookup rfl (UnresolvedPolicy.ofJson?_text s.unresolved)]
  rfl

/-- The settings for listings are read back. -/
theorem ListingSettings.ofJson?_toJson (s : ListingSettings) : ofJson? s.toJson = some s := by
  unfold ofJson? toJson
  rw [Json.record?_ofMembers (by simp [members])]
  simp only [Option.bind_eq_bind, Option.bind_some]
  rw [Json.field?_of_lookup rfl (Json.bool?_bool s.showLabels),
    Json.field?_of_lookup rfl (Json.bool?_bool s.annotateAddresses),
    Json.field?_of_lookup rfl (Json.bool?_bool s.uppercaseMnemonics),
    Json.field?_of_lookup rfl (Json.text?_ofText s.hexMark)]
  rfl

namespace Settings

/-- All settings are read back. -/
theorem ofJson?_toJson (s : Settings) : ofJson? s.toJson = some s := by
  unfold ofJson? toJson
  rw [Json.record?_ofMembers (by simp [members])]
  simp only [Option.bind_eq_bind, Option.bind_some]
  rw [Json.field?_of_lookup rfl s.load.ofJson?_toJson,
    Json.field?_of_lookup rfl s.symbols.ofJson?_toJson,
    Json.field?_of_lookup rfl s.listing.ofJson?_toJson]
  rfl

/-- The groups of settings hold numbers, truth values and texts. -/
theorem plain_toJson (s : Settings) : s.toJson.Plain := by
  have hload : s.load.toJson.Plain := by
    apply Json.Plain.ofMembers
    simp [LoadSettings.members, Json.Plain.natural]
  have hsymbols : s.symbols.toJson.Plain := by
    apply Json.Plain.ofMembers
    simp [SymbolSettings.members, Json.Plain.natural, Json.ofText, Json.Plain.string]
  have hlisting : s.listing.toJson.Plain := by
    apply Json.Plain.ofMembers
    simp [ListingSettings.members, Json.Plain.bool, Json.ofText, Json.Plain.string]
  apply Json.Plain.ofMembers
  simp [members, hload, hsymbols, hlisting]

/-- **Settings are read back as they were written**, whatever the numbers, the policy, the switches
and the characters of the mark are. -/
theorem pretty_roundTrips (s : Settings) : parse? s.pretty = some s := by
  have hdocument : Json.parse? s.pretty = some s.toJson :=
    Json.parse?_pretty_of_plain s.plain_toJson
  unfold parse?
  rw [hdocument]
  exact s.ofJson?_toJson

end Settings

end PeListing
