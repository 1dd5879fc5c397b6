import PeListing.Bytes.Buffer
import PeListing.Image.Defect
import PeListing.Text.Utf8

/-!
# Sections

A section maps a range of relative virtual addresses to a range of the file. Its *extent* is the
smaller of its two declared sizes, the one in the file alone when the other is zero. A listing sees
the extent (`Section.rawRange`), a lookup a size that is rounded up to the file alignment
(`Section.covers`). The lookup works out for itself what it rounds, and that is the extent
(`Section.roundedExtent_eq`).

A section table answers with the first section that covers an address.
-/

namespace PeListing

/-- A record of the section table. -/
structure Section where
  /-- The eight bytes of the name, not necessarily ended by a zero. -/
  name : Vector UInt8 8
  /-- The size in memory. -/
  virtualSize : UInt32
  /-- The relative virtual address of the first byte. -/
  virtualAddress : UInt32
  /-- The size in the file. -/
  rawSize : UInt32
  /-- The file offset of the first byte. -/
  rawOffset : UInt32
  /-- The flags. -/
  characteristics : UInt32
  deriving DecidableEq, Repr

namespace Section

/-- The size of a record of the section table. -/
def recordSize : Nat := 40

/-- The flag of a section that holds code. -/
def codeFlag : UInt32 := 0x20

/-- The section that a record of the table describes. The record must hold a whole name. -/
def ofRecord {ε : Type} (record : List UInt8) : Except (Fault ε) Section := do
  return {
    name := ← Select.vector 8 (← Select.range record 0 8)
    virtualSize := LittleEndian.field32 record 8
    virtualAddress := LittleEndian.field32 record 12
    rawSize := LittleEndian.field32 record 16
    rawOffset := LittleEndian.field32 record 20
    characteristics := LittleEndian.field32 record 36 }

/-- The name as text, up to its first zero byte. -/
def nameText {ε : Type} (s : Section) : Except (Fault ε) String := do
  let bytes := s.name.toList
  return Utf8.lossy (← Select.range bytes 0 (bytes.findIdx (· == 0)))

/-- The number of bytes that are both in the file and in memory; a memory size of zero counts for
nothing. -/
def extent (s : Section) : Nat :=
  if 0 < s.virtualSize.toNat then min s.rawSize.toNat s.virtualSize.toNat else s.rawSize.toNat

/-- The size in the file, cut down to the size in memory if there is one, and then rounded up to the
file alignment. -/
def roundedExtent {ε : Type} (s : Section) (alignment : UInt32) : Except (Fault ε) Nat := do
  let mut size := s.rawSize.toNat
  if 0 < s.virtualSize.toNat then
    size := min size s.virtualSize.toNat
  alignUp size alignment.toNat

/-- What is rounded up is the extent. -/
theorem roundedExtent_eq {ε : Type} (s : Section) (alignment : UInt32) :
    (s.roundedExtent alignment : Except (Fault ε) Nat) = alignUp s.extent alignment.toNat := by
  unfold roundedExtent extent
  split <;> rfl

/-- Whether a relative virtual address lies in the rounded extent. -/
def covers {ε : Type} (s : Section) (alignment : UInt32) (rva : Nat) : Except (Fault ε) Bool :=
  if s.virtualAddress.toNat ≤ rva then do
    return rva < (← Word.add s.virtualAddress.toNat (← s.roundedExtent alignment))
  else return false

/-- The file offsets at which the extent starts and ends. -/
def rawRange (s : Section) : Nat × Nat :=
  (s.rawOffset.toNat, Word.satAdd s.rawOffset.toNat s.extent)

/-- Whether the section is flagged as code. -/
def holdsCode (s : Section) : Bool := s.characteristics &&& codeFlag != 0

/-- The records of a section table at `base`, from a given index on. A record that does not fit
is a truncated header. -/
def readFrom (b : Buffer) (base : Nat) :
    (count index : Nat) → Except (Fault Defect) (List Section)
  | 0, _ => return []
  | count + 1, index => do
    let offset ← Word.add base (← Word.mul index recordSize)
    let stop ← Word.add offset recordSize
    let some record := b.slice? offset recordSize
      | throw (.defect (.truncatedHeader stop b.size))
    return (← ofRecord record) :: (← readFrom b base count (index + 1))

/-- The section table of `count` records at an offset. -/
def readAll (b : Buffer) (offset : Nat) (count : UInt16) : Except (Fault Defect) (List Section) :=
  readFrom b offset count.toNat 0

end Section

/-- The sections of an image, in the order of the table, and the unit of their extents. -/
structure SectionTable where
  /-- The sections in the order of the table. -/
  sections : List Section
  /-- The unit to which extents are rounded up. -/
  alignment : UInt32
  deriving DecidableEq, Repr

namespace SectionTable

/-- The sections flagged as code. -/
def code (t : SectionTable) : List Section := t.sections.filter Section.holdsCode

/-- The first section that covers an address. -/
def sectionFor {ε : Type} (t : SectionTable) (rva : Nat) : Except (Fault ε) (Option Section) :=
  t.sections.findM? fun s => s.covers t.alignment rva

/-- The file offset of an address, whether or not the file reaches that far. -/
def offsetFor {ε : Type} (t : SectionTable) (rva : Nat) : Except (Fault ε) (Option Nat) := do
  let some s ← t.sectionFor rva | return none
  let inside ← Word.sub rva s.virtualAddress.toNat
  return some (← Word.add s.rawOffset.toNat inside)

end SectionTable

end PeListing
