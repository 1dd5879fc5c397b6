/-!
# Settings

What a user may set: limits on the file and on the symbol walks, what becomes of an entry that
does not resolve, and how a listing looks. The default of each setting is that of its field.
-/

namespace PeListing

/-- Limits on the file that is read. -/
structure LoadSettings where
  /-- The greatest size of a file, in bytes. -/
  maxFileSize : UInt64 := 268435456
  deriving DecidableEq, Repr

/-- What becomes of a directory entry that does not resolve. -/
inductive UnresolvedPolicy where
  /-- The walk fails. -/
  | abort
  /-- The entry is counted and passed over. -/
  | skip
  deriving DecidableEq, Repr

/-- Limits and policy of the symbol walks. -/
structure SymbolSettings where
  /-- The greatest number of exported functions. -/
  maxExports : UInt32 := 65536
  /-- The greatest number of imported functions. -/
  maxImports : UInt32 := 65536
  /-- The greatest length of a name, in bytes. -/
  maxNameLength : UInt64 := 512
  /-- What becomes of an entry that does not resolve. -/
  unresolved : UnresolvedPolicy := .abort
  deriving DecidableEq, Repr

/-- How a listing looks. -/
structure ListingSettings where
  /-- Whether a symbol's name stands before the line at its address. -/
  showLabels : Bool := true
  /-- Whether numbers that are addresses of symbols are printed as names. -/
  annotateAddresses : Bool := true
  /-- Whether mnemonics are printed in upper case. -/
  uppercaseMnemonics : Bool := false
  /-- What stands before a hexadecimal number. -/
  hexMark : String := "0x"
  deriving DecidableEq, Repr

/-- All settings. -/
structure Settings where
  /-- Limits on the file that is read. -/
  load : LoadSettings := {}
  /-- Limits and policy of the symbol walks. -/
  symbols : SymbolSettings := {}
  /-- How a listing looks. -/
  listing : ListingSettings := {}
  deriving DecidableEq, Repr

end PeListing
