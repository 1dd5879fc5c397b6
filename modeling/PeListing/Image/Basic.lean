import PeListing.Image.Header
import PeListing.Image.Section

/-!
# Images

An image is a buffer whose header chain has been read. `Image.read` is the reader; behind it come
the step from a relative virtual address to a file offset and the reading of a name at one.
-/

namespace PeListing

/-- The read succeeds where `size` bytes at `offset` fit into `len`. -/
def checkBounds (offset size len : Nat) : Except Defect Unit :=
  match Word.add? offset size with
  | some stop => if stop ≤ len then .ok () else .error (.outOfBounds offset len)
  | none => .error (.outOfBounds offset len)

/-- The bytes of a name at an offset: up to the first zero byte, `limit` bytes or the end. -/
def Buffer.nameBytes {ε : Type} (b : Buffer) (offset limit : Nat) :
    Except (Fault ε) (List UInt8) := do
  let window ← b.range offset (min (Word.satAdd offset limit) b.size)
  Select.range window 0 (window.findIdx (· == 0))

/-- The name at an offset, cut at `limit` bytes. -/
def Buffer.name (b : Buffer) (offset limit : Nat) : Except (Fault Defect) String := do
  if offset < b.size then return Utf8.lossy (← b.nameBytes offset limit)
  else throw (.defect (.outOfBounds offset b.size))

/-- A portable executable with its headers. -/
structure Image where
  /-- The whole file. -/
  buffer : Buffer
  /-- The header at the start of the file. -/
  dos : DosHeader
  /-- The headers behind the second signature. -/
  nt : NtHeaders
  /-- The section table. -/
  sectionTable : SectionTable

namespace Image

/-- The slot of the directory of exports. -/
def exportSlot : Nat := 0

/-- The slot of the directory of imports. -/
def importSlot : Nat := 1

/-- The image in a buffer. The section table follows the optional header. -/
def read (b : Buffer) : Except (Fault Defect) Image := do
  let dos ← DosHeader.read b
  let ntOffset := dos.ntOffset.toNat
  let nt ← NtHeaders.read b ntOffset
  let headerSize ← Word.add (4 + FileHeader.size) nt.file.optionalSize.toNat
  let some tableOffset := Word.add? ntOffset headerSize
    | throw (.defect (.outOfBounds ntOffset b.size))
  let sections ← Section.readAll b tableOffset nt.file.sectionCount
  return ⟨b, dos, nt, ⟨sections, nt.optional.fileAlignment⟩⟩

/-- The kind of the image in a buffer, without a look at its sections. -/
def readKind (b : Buffer) : Except (Fault Defect) Kind := do
  let dos ← DosHeader.read b
  let nt ← NtHeaders.read b dos.ntOffset.toNat
  return nt.optional.kind

variable (image : Image)

/-- The layout of the image. -/
def kind : Kind := image.nt.optional.kind

/-- The processor that the image is for. -/
def machine : Machine := image.nt.file.machine

/-- The address at which the image wants to be loaded. -/
def base : UInt64 := image.nt.optional.imageBase

/-- The relative virtual address at which the program starts. -/
def entryPoint : UInt32 := image.nt.optional.entryPoint

/-- The sections in the order of the table. -/
def sections : List Section := image.sectionTable.sections

/-- The sections flagged as code, in the order of the table. -/
def codeSections : List Section := image.sectionTable.code

/-- The directory in a slot; there is none past the last slot. -/
def directory (slot : Nat) : DataDirectory := image.nt.directories.toList.getD slot .absent

/-- The first section that covers an address. -/
def sectionFor {ε : Type} (rva : Nat) : Except (Fault ε) (Option Section) :=
  image.sectionTable.sectionFor rva

/-- The file offset of an address, if a section covers it and the file reaches that far. -/
def offsetFor {ε : Type} (rva : Nat) : Except (Fault ε) (Option Nat) := do
  return (← image.sectionTable.offsetFor rva).filter (· < image.buffer.size)

/-- The file offset of an address, or why it has none. -/
def resolve (rva : Nat) : Except (Fault Defect) Nat := do
  let some offset ← image.sectionTable.offsetFor rva | throw (.defect (.unresolvedRva rva))
  checkBounds offset 1 image.buffer.size
  return offset

/-- The name at an address, cut at `limit` bytes. -/
def nameAt (rva limit : Nat) : Except (Fault Defect) String := do
  image.buffer.name (← image.resolve rva) limit

end Image

end PeListing
