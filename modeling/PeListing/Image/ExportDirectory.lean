import PeListing.Bytes.Buffer
import PeListing.Image.Defect

/-!
# The directory of exports

The record that heads the exports of an image, and the reading of the three tables of words that
it points to.
-/

namespace PeListing

/-- The head of the exports. -/
structure ExportDirectory where
  /-- The address of the module's name. -/
  nameRva : UInt32
  /-- The ordinal of the first function. -/
  ordinalBase : UInt32
  /-- The number of functions. -/
  functionCount : UInt32
  /-- The number of names. -/
  nameCount : UInt32
  /-- The address of the table of function addresses. -/
  functionsRva : UInt32
  /-- The address of the table of name addresses. -/
  namesRva : UInt32
  /-- The address of the table that gives each name its function. -/
  ordinalsRva : UInt32
  deriving DecidableEq, Repr

namespace ExportDirectory

/-- The size of the record. -/
def recordSize : Nat := 40

/-- The directory that a record describes. -/
def ofRecord (record : List UInt8) : ExportDirectory where
  nameRva := LittleEndian.field32 record 12
  ordinalBase := LittleEndian.field32 record 16
  functionCount := LittleEndian.field32 record 20
  nameCount := LittleEndian.field32 record 24
  functionsRva := LittleEndian.field32 record 28
  namesRva := LittleEndian.field32 record 32
  ordinalsRva := LittleEndian.field32 record 36

/-- The directory at a file offset. -/
def read (b : Buffer) (offset : Nat) : Except Defect ExportDirectory :=
  match b.slice? offset recordSize with
  | some record => .ok (ofRecord record)
  | none => .error (.outOfBounds offset b.size)

end ExportDirectory

namespace Buffer

/-- The offset of the `index`-th element of a table of elements of one width. -/
def elementOffset (b : Buffer) (table index width : Nat) : Except Defect Nat :=
  match (Word.mul? index width).bind (Word.add? · table) with
  | some offset => .ok offset
  | none => .error (.outOfBounds table b.size)

/-- The `index`-th 32-bit word of the table at an offset. -/
def tableU32 (b : Buffer) (table index : Nat) : Except Defect UInt32 := do
  let offset ← b.elementOffset table index 4
  let some value := b.u32? offset | throw (.outOfBounds offset b.size)
  return value

/-- The `index`-th 16-bit word of the table at an offset. -/
def tableU16 (b : Buffer) (table index : Nat) : Except Defect UInt16 := do
  let offset ← b.elementOffset table index 2
  let some value := b.u16? offset | throw (.outOfBounds offset b.size)
  return value

end Buffer

end PeListing
