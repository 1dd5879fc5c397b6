import PeListing.Bytes.Buffer
import PeListing.Image.Kind

/-!
# Import descriptors and thunks

The imports of an image are a list of descriptors, one for each module, ended by one without a
lookup table. The lookup table of a descriptor is a list of thunks ended by a zero one.
-/

namespace PeListing

/-- What is imported from one module. -/
structure ImportDescriptor where
  /-- The address of the lookup table. -/
  lookupRva : UInt32
  /-- The address of the module's name. -/
  nameRva : UInt32
  /-- The address of the table that the loader fills in. -/
  firstThunk : UInt32
  deriving DecidableEq, Repr

namespace ImportDescriptor

/-- The size of the record. -/
def recordSize : Nat := 20

/-- The descriptor that a record describes. -/
def ofRecord (record : List UInt8) : ImportDescriptor where
  lookupRva := LittleEndian.field32 record 0
  nameRva := LittleEndian.field32 record 12
  firstThunk := LittleEndian.field32 record 16

/-- Whether the descriptor ends the list. -/
def isTerminator (d : ImportDescriptor) : Bool := d.lookupRva == 0

/-- The descriptor at a file offset. -/
def read (b : Buffer) (offset : Nat) : Except Defect ImportDescriptor :=
  match b.slice? offset recordSize with
  | some record => .ok (ofRecord record)
  | none => .error (.outOfBounds offset b.size)

/-- The address of the `index`-th slot of the table that the loader fills in. -/
def slotAddress (d : ImportDescriptor) (kind : Kind) (index : Nat) :
    Except (Fault Defect) UInt64 := do
  let inside ← Word.mul index kind.thunkSize
  return UInt64.ofNat (← Word.add d.firstThunk.toNat inside)

end ImportDescriptor

/-- An element of a lookup table. -/
inductive Thunk where
  /-- The end of the table. -/
  | stop
  /-- A function given by its number. -/
  | ordinal (number : UInt16)
  /-- A function given by the address of its hint and name. -/
  | byName (rva : UInt32)
  deriving DecidableEq, Repr

namespace Thunk

/-- The thunk that a value stands for. -/
def ofValue (kind : Kind) (value : UInt64) : Thunk :=
  if value = 0 then .stop
  else if value &&& kind.ordinalFlag != 0 then .ordinal value.toUInt16
  else .byName (value &&& 0x7FFFFFFF).toUInt32

/-- The value at a file offset, as wide as thunks of that kind are. -/
def valueAt? (b : Buffer) (offset : Nat) : Kind → Option UInt64
  | .pe32 => (b.u32? offset).map UInt32.toUInt64
  | .pe32Plus => b.u64? offset

/-- The thunk at a file offset. -/
def read (b : Buffer) (offset : Nat) (kind : Kind) : Except Defect Thunk :=
  match valueAt? b offset kind with
  | some value => .ok (ofValue kind value)
  | none => .error (.outOfBounds offset b.size)

end Thunk

end PeListing
