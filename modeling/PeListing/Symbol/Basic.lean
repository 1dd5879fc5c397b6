import PeListing.Text.Numeral
import PeListing.Text.Slice
import PeListing.Word

/-!
# Symbols

A symbol names one relative virtual address of an image: an exported function, the entry point or
the slot of an imported function.
-/

namespace PeListing

/-- A named address. -/
structure Symbol where
  /-- The relative virtual address. -/
  address : UInt64
  /-- The module that the name belongs to, without the extension of its file. -/
  moduleName : String
  /-- The name within the module. -/
  name : String
  deriving DecidableEq, Repr

namespace Symbol

/-- The name of the symbol at which the program starts. -/
def entryPointName : String := "EntryPoint"

/-- What stands for the name of a function known by its number only. -/
def ordinalName (ordinal : Nat) : String := "#" ++ Numeral.decimal ordinal

/-- The module in lower case, a dot and the name. -/
def qualifiedName (s : Symbol) : String :=
  String.ofList (s.moduleName.toList.map Char.toLower) ++ "." ++ s.name

end Symbol

/-- A file name up to its last dot, or all of it where there is none. -/
def moduleStem {ε : Type} (fileName : String) : Except (Fault ε) String :=
  match Text.lastPosition? '.' fileName.toList with
  | none => .ok fileName
  | some stop =>
    match Text.slice? fileName.toList 0 stop with
    | some stem => .ok (String.ofList stem)
    | none => .error .outOfRange

/-- `stem` is what is left of a file name when everything from its last dot on is cut off. -/
def IsStemOf (stem fileName : String) : Prop :=
  (∃ extension : String, fileName = stem ++ "." ++ extension ∧ '.' ∉ extension.toList) ∨
    ('.' ∉ fileName.toList ∧ stem = fileName)

/-- A file name has an extension behind its last dot, or no dot. -/
theorem exists_isStemOf (fileName : String) : ∃ stem, IsStemOf stem fileName := by
  by_cases h : '.' ∈ fileName.toList
  · obtain ⟨extension, stem, hchars, hnone⟩ :=
      List.eq_append_cons_of_mem (List.mem_reverse.mpr h)
    have hname : fileName =
        String.ofList stem.reverse ++ "." ++ String.ofList extension.reverse := by
      rw [← String.toList_inj, ← List.reverse_reverse fileName.toList, hchars]
      simp
    have hdot : '.' ∉ (String.ofList extension.reverse).toList := by simpa using hnone
    exact ⟨_, .inl ⟨_, hname, hdot⟩⟩
  · exact ⟨fileName, .inr ⟨h, rfl⟩⟩

/-- The stem of a file name is found: the last dot of a text is never inside a character. -/
theorem moduleStem_of_isStemOf {ε : Type} {stem fileName : String} (h : IsStemOf stem fileName) :
    (moduleStem fileName : Except (Fault ε) String) = .ok stem := by
  rcases h with ⟨extension, rfl, hdot⟩ | ⟨hdot, rfl⟩
  · have hchars : (stem ++ "." ++ extension).toList = stem.toList ++ '.' :: extension.toList := by
      simp
    have hslice := Text.slice?_append [] stem.toList ('.' :: extension.toList)
    rw [List.nil_append, Text.byteLength, Nat.zero_add] at hslice
    simp only [moduleStem, hchars, Text.lastPosition?_append stem.toList hdot, hslice,
      String.ofList_toList]
  · simp only [moduleStem, Text.lastPosition?_of_not_mem hdot]

/-- A file name has one stem, and it is found. -/
theorem isStemOf_iff {ε : Type} {stem fileName : String} :
    IsStemOf stem fileName ↔ (moduleStem fileName : Except (Fault ε) String) = .ok stem := by
  refine ⟨moduleStem_of_isStemOf, fun h => ?_⟩
  obtain ⟨stem', hstem'⟩ := exists_isStemOf fileName
  rw [moduleStem_of_isStemOf hstem'] at h
  exact Except.ok.inj h ▸ hstem'

/-- A file name has no other stem. -/
theorem IsStemOf.unique {stem stem' fileName : String} (h : IsStemOf stem fileName)
    (h' : IsStemOf stem' fileName) : stem = stem' := by
  have hstem : (moduleStem fileName : Except (Fault Empty) String) = .ok stem :=
    moduleStem_of_isStemOf h
  exact Except.ok.inj (hstem.symm.trans (moduleStem_of_isStemOf h'))

end PeListing
