import PeListing.Text.Numeral

/-!
# Defects of an image

What can be wrong with a file that is read as a portable executable. Defects of the headers make
the file unreadable; defects of *resolution* concern one address or one entry of a directory, and
a symbol walk may pass over them.
-/

namespace PeListing

/-- The header fields that select an architecture. -/
inductive ArchitectureField where
  /-- The machine of the file header. -/
  | machine
  /-- The magic number of the optional header. -/
  | magic
  deriving DecidableEq, Repr

/-- How a field is called in messages. -/
def ArchitectureField.text : ArchitectureField → String
  | .machine => "machine"
  | .magic => "optional header magic"

/-- What is wrong with an image. -/
inductive Defect where
  /-- The file does not start with the signature of an executable. -/
  | invalidDosSignature
  /-- The header chain does not reach the signature of a portable executable. -/
  | invalidNtSignature
  /-- A field selects an architecture or layout that is not known. -/
  | unsupportedArchitecture (field : ArchitectureField) (value : UInt16)
  /-- A header needs `expected` bytes and there are `actual`. -/
  | truncatedHeader (expected actual : Nat)
  /-- No section covers a relative virtual address. -/
  | unresolvedRva (rva : Nat)
  /-- A read at `offset` does not fit into `len` bytes. -/
  | outOfBounds (offset len : Nat)
  /-- An imported symbol would stand at an address that is taken. -/
  | symbolCollision (address : UInt64)
  deriving DecidableEq, Repr

namespace Defect

/-- Whether a defect concerns a single address or entry rather than the headers. -/
def isResolution : Defect → Bool
  | .unresolvedRva _ | .outOfBounds _ _ | .symbolCollision _ => true
  | _ => false

/-- The message for a defect. -/
def message : Defect → String
  | .invalidDosSignature => "Invalid file signature (DOS header)"
  | .invalidNtSignature => "Invalid file signature (NT headers)"
  | .unsupportedArchitecture field value =>
    "Unsupported architecture: " ++ field.text ++ " 0x" ++ Numeral.hex 4 value.toNat
  | .truncatedHeader expected actual =>
    "Truncated header: expected " ++ Numeral.decimal expected ++ " bytes, got "
      ++ Numeral.decimal actual
  | .unresolvedRva rva => "RVA 0x" ++ Numeral.hex 8 rva ++ " is not mapped by any section"
  | .outOfBounds offset len =>
    "Offset 0x" ++ Numeral.hex 0 offset ++ " is outside the " ++ Numeral.decimal len
      ++ "-byte image"
  | .symbolCollision address =>
    "Address 0x" ++ Numeral.hex 8 address.toNat ++ " already holds a symbol"

end Defect

end PeListing
