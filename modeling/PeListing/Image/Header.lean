import PeListing.Bytes.Buffer
import PeListing.Image.Kind

/-!
# Image headers

The header chain of a portable executable: the header at the start of the file, the file header
and the optional header behind the signature that it points to, and the data directories at the
end of the optional header. Every reader checks its own part and reports the first defect that it
meets.
-/

namespace PeListing

/-- The header at the start of the file. -/
structure DosHeader where
  /-- The signature that opens the file. -/
  magic : UInt16
  /-- The offset of the signature that opens the remaining headers. -/
  ntOffset : UInt32
  deriving DecidableEq, Repr

/-- The file header. -/
structure FileHeader where
  /-- The processor that the image is for. -/
  machine : Machine
  /-- The number of records in the section table. -/
  sectionCount : UInt16
  /-- The declared size of the optional header. -/
  optionalSize : UInt16
  deriving DecidableEq, Repr

/-- The fixed part of the optional header. -/
structure OptionalHeader where
  /-- The layout of the image. -/
  kind : Kind
  /-- The address at which the image wants to be loaded. -/
  imageBase : UInt64
  /-- The relative virtual address at which the program starts. -/
  entryPoint : UInt32
  /-- The unit to which the sizes of sections are rounded up. -/
  fileAlignment : UInt32
  /-- The declared number of data directories. -/
  directoryCount : UInt32
  deriving DecidableEq, Repr

/-- Where a table of the image lies. -/
structure DataDirectory where
  /-- The relative virtual address of the table; zero if there is none. -/
  virtualAddress : UInt32
  /-- The declared size of the table. -/
  size : UInt32
  deriving DecidableEq, Repr

namespace DataDirectory

/-- The directory of a table that is absent. -/
def absent : DataDirectory := ⟨0, 0⟩

/-- Whether there is such a table. -/
def isPresent (d : DataDirectory) : Bool := d.virtualAddress != 0

/-- A directory is present just when its address is not zero. -/
theorem isPresent_iff {d : DataDirectory} : d.isPresent = true ↔ d.virtualAddress ≠ 0 := bne_iff_ne

/-- An image has this many data directories. -/
def slots : Nat := 16

end DataDirectory

/-- Everything behind the second signature, up to the section table. -/
structure NtHeaders where
  /-- The file header. -/
  file : FileHeader
  /-- The optional header. -/
  optional : OptionalHeader
  /-- The data directories; those that the file does not hold are absent ones. -/
  directories : Vector DataDirectory DataDirectory.slots
  deriving DecidableEq, Repr

/-- The signature `MZ`. -/
def DosHeader.signature : UInt16 := 0x5A4D

/-- The signature `PE` with two zero bytes. -/
def NtHeaders.signature : UInt32 := 0x00004550

/-- The size of the header at the start of the file. -/
def DosHeader.size : Nat := 64

/-- The size of the file header. -/
def FileHeader.size : Nat := 20

/-- The size of a data directory. -/
def DataDirectory.entrySize : Nat := 8

/-- The header at the start of the file. A file too short for its signature lacks it. -/
def DosHeader.read (b : Buffer) : Except Defect DosHeader := do
  let some magic := b.u16? 0 | throw .invalidDosSignature
  if magic ≠ DosHeader.signature then throw .invalidDosSignature
  let some ntOffset := b.u32? 0x3C | throw (.truncatedHeader DosHeader.size b.size)
  return ⟨magic, ntOffset⟩

/-- The file header at an offset. -/
def FileHeader.read (b : Buffer) (offset : Nat) : Except (Fault Defect) FileHeader := do
  let some record := b.slice? offset FileHeader.size
    | throw (.defect (.truncatedHeader (Word.satAdd offset FileHeader.size) b.size))
  return {
    machine := ← Machine.ofCode (← LittleEndian.checkedField16 record 0)
    sectionCount := ← LittleEndian.checkedField16 record 2
    optionalSize := ← LittleEndian.checkedField16 record 16 }

/-- The optional header of a fixed-size record of its kind. -/
def OptionalHeader.ofRecord (kind : Kind) (record : List UInt8) : OptionalHeader where
  kind := kind
  imageBase := match kind with
    | .pe32 => (LittleEndian.field32 record 28).toUInt64
    | .pe32Plus => LittleEndian.field64 record 24
  entryPoint := LittleEndian.field32 record 16
  fileAlignment := LittleEndian.field32 record 36
  directoryCount := match kind with
    | .pe32 => LittleEndian.field32 record 92
    | .pe32Plus => LittleEndian.field32 record 108

/-- The optional header at an offset, whose declared size must hold the fixed part. -/
def OptionalHeader.read (b : Buffer) (offset : Nat) (declared : UInt16) :
    Except Defect OptionalHeader := do
  let some magic := b.u16? offset | throw (.truncatedHeader (Word.satAdd offset 2) b.size)
  let kind ← Kind.ofMagic magic
  if declared.toNat < kind.fixedSize then
    throw (.truncatedHeader kind.fixedSize declared.toNat)
  let some record := b.slice? offset kind.fixedSize
    | throw (.truncatedHeader (Word.satAdd offset kind.fixedSize) b.size)
  return OptionalHeader.ofRecord kind record

namespace DataDirectory

/-- How many directories an optional header holds: no more than it declares, than there are slots
and than fit into its declared size. -/
def storedCount (kind : Kind) (declaredCount : UInt32) (declaredSize : UInt16) : Nat :=
  min (min declaredCount.toNat slots) ((declaredSize.toNat - kind.fixedSize) / entrySize)

/-- Up to `count` directories of the table at `base`, from a given index on; the end of the file
cuts the list short. -/
def readFrom (b : Buffer) (base : Nat) :
    (count index : Nat) → Except (Fault Defect) (List DataDirectory)
  | 0, _ => return []
  | count + 1, index => do
    let offset ← Word.add base (← Word.mul index entrySize)
    let sizeOffset ← Word.add offset 4
    match b.u32? offset, b.u32? sizeOffset with
    | some virtualAddress, some size =>
      return ⟨virtualAddress, size⟩ :: (← readFrom b base count (index + 1))
    | _, _ => return []

/-- The slots filled with the directories of a list, and absent ones behind them. -/
def fill (stored : List DataDirectory) : Vector DataDirectory slots :=
  Vector.ofFn fun i => stored.getD i absent

/-- The directories of the optional header at an offset. -/
def readAll (b : Buffer) (offset : Nat) (kind : Kind) (declaredCount : UInt32)
    (declaredSize : UInt16) : Except (Fault Defect) (Vector DataDirectory slots) := do
  let base ← Word.add offset kind.fixedSize
  return fill (← readFrom b base (storedCount kind declaredCount declaredSize) 0)

end DataDirectory

/-- The headers behind the signature at an offset. -/
def NtHeaders.read (b : Buffer) (offset : Nat) : Except (Fault Defect) NtHeaders := do
  if b.u32? offset ≠ some NtHeaders.signature then throw (.defect .invalidNtSignature)
  let fileOffset ← Word.add offset 4
  let file ← FileHeader.read b fileOffset
  let optionalOffset ← Word.add fileOffset FileHeader.size
  let optional ← OptionalHeader.read b optionalOffset file.optionalSize
  let directories ← DataDirectory.readAll b optionalOffset optional.kind optional.directoryCount
    file.optionalSize
  return ⟨file, optional, directories⟩

end PeListing
