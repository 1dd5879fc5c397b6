import PeListing.Proofs.AddressLookup
import PeListing.Proofs.Outcome

/-!
# Reading an image stays in range

Every number in the reading of an image comes from a header field of at most 32 bits or from the
length of the buffer, and only a few of them are ever added up. So no sum, product or difference
leaves its range, and no position lies outside what it selects from, whatever the bytes are.

The same statements tell defects apart: the headers have defects that make the file unreadable, the
step from an address to a file offset has defects of resolution only.
-/

namespace PeListing

variable {ε : Type} {bad : ε → Prop}

/-- The defects that make a file unreadable. -/
def Defect.OfFormat (cause : Defect) : Prop := cause.isResolution = false

/-- The defects that a walk may pass over. -/
def Defect.OfResolution (cause : Defect) : Prop := cause.isResolution = true

/-! ### Headers -/

/-- The first header is read within the range of numbers. -/
theorem DosHeader.read_yields (b : Buffer) :
    Yields (liftM (DosHeader.read b)) (fun _ => True) Defect.OfFormat := by
  refine .lift (fun _ _ => trivial) fun cause h => ?_
  unfold DosHeader.read at h
  dsimp only at h
  split at h
  · split at h
    · cases h
      rfl
    · split at h
      · cases h
      · cases h
        rfl
  · cases h
    rfl

/-- The code of a machine is known, or a defect of the format. -/
theorem Machine.ofCode_yields (code : UInt16) :
    Yields (liftM (Machine.ofCode code)) (fun _ => True) Defect.OfFormat := by
  refine .lift (fun _ _ => trivial) fun cause h => ?_
  unfold Machine.ofCode at h
  split_ifs at h
  cases h
  rfl

/-- The mark of a layout is known, or a defect of the format. -/
theorem Kind.ofMagic_yields (magic : UInt16) :
    Yields (liftM (Kind.ofMagic magic)) (fun _ => True) Defect.OfFormat := by
  refine .lift (fun _ _ => trivial) fun cause h => ?_
  unfold Kind.ofMagic at h
  split_ifs at h
  cases h
  rfl

/-- A slice has the length that was asked for. -/
theorem Buffer.length_of_slice? {b : Buffer} {offset size : Nat} {bs : List UInt8}
    (h : b.slice? offset size = some bs) : bs.length = size := by
  obtain ⟨hle, rfl⟩ := Buffer.slice?_eq_some_iff.mp h
  rw [List.length_take, List.length_drop, Buffer.length_toList]
  omega

/-- A field inside a record is read. -/
theorem checkedField16_yields {record : List UInt8} {position : Nat}
    (h : position + 2 ≤ record.length) :
    Yields (LittleEndian.checkedField16 record position : Except (Fault ε) UInt16)
      (fun _ => True) bad := by
  rw [LittleEndian.checkedField16_of_le h]
  exact .pure trivial

/-- The file header is read within the range of numbers. -/
theorem FileHeader.read_yields (b : Buffer) (offset : Nat) :
    Yields (FileHeader.read b offset) (fun _ => True) Defect.OfFormat := by
  unfold FileHeader.read
  split
  · next record hrecord =>
    have hlength : record.length = 20 := Buffer.length_of_slice? hrecord
    refine (checkedField16_yields (by omega)).bind fun code _ => ?_
    refine (Machine.ofCode_yields code).bind fun machine _ => ?_
    refine (checkedField16_yields (by omega)).bind fun count _ => ?_
    exact (checkedField16_yields (by omega)).map fun _ _ => trivial
  · exact .throw rfl

/-- The optional header is read within the range of numbers. -/
theorem OptionalHeader.read_yields (b : Buffer) (offset : Nat) (declared : UInt16) :
    Yields (liftM (OptionalHeader.read b offset declared)) (fun _ => True) Defect.OfFormat := by
  unfold OptionalHeader.read
  split
  · next magic _ =>
    refine (Kind.ofMagic_yields magic).lift_bind fun kind _ => ?_
    dsimp only
    split
    · exact .throw rfl
    · split
      · exact trivial
      · exact .throw rfl
  · exact .throw rfl

/-- The table of data directories is read without leaving the range if it lies low enough. -/
theorem DataDirectory.readFrom_yields (b : Buffer) {base count index : Nat}
    {bad : Defect → Prop} (h : base + (index + count) * 8 < 0x8000000000000000) :
    Yields (DataDirectory.readFrom b base count index) (fun _ => True) bad := by
  induction count generalizing index with
  | zero => exact .pure trivial
  | succ count ih =>
    unfold DataDirectory.readFrom
    have hlimit : Word.limit = 0x10000000000000000 := rfl
    have hproduct : index * DataDirectory.entrySize = index * 8 := rfl
    refine (Yields.mul (by omega)).bind ?_
    rintro _ rfl
    refine (Yields.add (by omega)).bind ?_
    rintro _ rfl
    refine (Yields.add (by omega)).bind fun _ _ => ?_
    split
    · exact (ih (by omega)).map fun _ _ => trivial
    · exact .pure trivial

/-- The directories are read within the range of numbers and without a defect. -/
theorem DataDirectory.readAll_yields (b : Buffer) {offset : Nat} {bad : Defect → Prop}
    (h : offset < 0x4000000000000000) (kind : Kind) (count : UInt32) (size : UInt16) :
    Yields (DataDirectory.readAll b offset kind count size) (fun _ => True) bad := by
  have hlimit : Word.limit = 0x10000000000000000 := rfl
  have hfixed : kind.fixedSize ≤ 112 := by cases kind <;> decide
  have hcount : DataDirectory.storedCount kind count size ≤ 16 :=
    Nat.le_trans (Nat.min_le_left _ _) (Nat.min_le_right _ _)
  unfold DataDirectory.readAll
  refine (Yields.add (by omega)).bind ?_
  rintro _ rfl
  exact (DataDirectory.readFrom_yields b (by omega)).map fun _ _ => trivial

/-- The headers are read within the range of numbers. -/
theorem NtHeaders.read_yields (b : Buffer) {offset : Nat} (h : offset < 0x100000000) :
    Yields (NtHeaders.read b offset) (fun _ => True) Defect.OfFormat := by
  have hlimit : Word.limit = 0x10000000000000000 := rfl
  have hsize : FileHeader.size = 20 := rfl
  unfold NtHeaders.read
  dsimp only
  split
  · exact .throw_bind rfl
  · refine (Yields.add (by omega)).bind ?_
    rintro _ rfl
    refine (FileHeader.read_yields b _).bind fun file _ => ?_
    refine (Yields.add (by omega)).bind ?_
    rintro _ rfl
    refine (OptionalHeader.read_yields b _ _).bind fun optional _ => ?_
    exact (DataDirectory.readAll_yields b (by omega) _ _ _).map fun _ _ => trivial

/-! ### Sections -/

/-- A record of the right size gives a section. -/
theorem Section.ofRecord_yields {record : List UInt8} (h : record.length = Section.recordSize) :
    Yields (Section.ofRecord record : Except (Fault ε) Section) (fun _ => True) bad := by
  have hsize : Section.recordSize = 40 := rfl
  unfold Section.ofRecord
  refine (Yields.range (by omega) (by omega)).bind ?_
  rintro _ rfl
  have hname : ((record.drop 0).take (8 - 0)).length = 8 := by
    rw [List.length_take, List.length_drop]
    omega
  rw [Select.vector_of_length hname]
  exact .pure trivial

/-- The section table is read without leaving the range if it lies low enough, and gives no more
sections than it has records. -/
theorem Section.readFrom_yields (b : Buffer) {base count index : Nat}
    (h : base + (index + count) * 40 < 0x8000000000000000) :
    Yields (Section.readFrom b base count index) (fun l => l.length ≤ count) Defect.OfFormat := by
  induction count generalizing index with
  | zero => exact .pure (Nat.le_refl 0)
  | succ count ih =>
    unfold Section.readFrom
    have hlimit : Word.limit = 0x10000000000000000 := rfl
    have hsize : Section.recordSize = 40 := rfl
    have hproduct : index * Section.recordSize = index * 40 := rfl
    refine (Yields.mul (by omega)).bind ?_
    rintro _ rfl
    refine (Yields.add (by omega)).bind ?_
    rintro _ rfl
    refine (Yields.add (by omega)).bind fun stop _ => ?_
    split
    · next record hrecord =>
      refine (Section.ofRecord_yields (Buffer.length_of_slice? hrecord)).bind fun s _ => ?_
      exact (ih (by omega)).map fun l hl => Nat.succ_le_succ hl
    · exact .throw rfl

/-- An image keeps its buffer, and its section table has at most 65535 sections. -/
theorem Image.read_yields (b : Buffer) :
    Yields (Image.read b) (fun image => image.buffer = b ∧ image.sections.length < 0x10000)
      Defect.OfFormat := by
  have hlimit : Word.limit = 0x10000000000000000 := rfl
  have hsize : FileHeader.size = 20 := rfl
  unfold Image.read
  refine (DosHeader.read_yields b).bind fun dos _ => ?_
  have hoffset := lt_two_pow_32 dos.ntOffset
  refine (NtHeaders.read_yields b hoffset).bind fun nt _ => ?_
  have hoptional : nt.file.optionalSize.toNat < 0x10000 := nt.file.optionalSize.toNat_lt
  have hcount : nt.file.sectionCount.toNat < 0x10000 := nt.file.sectionCount.toNat_lt
  refine (Yields.add (by omega)).bind ?_
  rintro _ rfl
  split
  · next tableOffset htable =>
    obtain ⟨-, rfl⟩ := Word.add?_eq_some_iff.mp htable
    refine (Section.readFrom_yields b (by omega)).map fun sections hsections => ?_
    exact ⟨rfl, Nat.lt_of_le_of_lt hsections hcount⟩
  · next hnone =>
    have hfits : Word.add? dos.ntOffset.toNat (4 + FileHeader.size + nt.file.optionalSize.toNat) =
        some (dos.ntOffset.toNat + (4 + FileHeader.size + nt.file.optionalSize.toNat)) :=
      Word.add?_eq_some_iff.mpr ⟨by omega, rfl⟩
    exact absurd hfits (hnone _)

/-- The kind of an image is read within the range of numbers. -/
theorem Image.readKind_yields (b : Buffer) :
    Yields (Image.readKind b) (fun _ => True) Defect.OfFormat := by
  unfold Image.readKind
  refine (DosHeader.read_yields b).bind fun dos _ => ?_
  exact (NtHeaders.read_yields b (lt_two_pow_32 dos.ntOffset)).map fun _ _ => trivial

/-! ### From an address to a file offset -/

namespace Image

variable (image : Image) (rva : Nat)

/-- The section for an address is sought within the range of numbers. -/
theorem sectionFor_yields :
    Yields (image.sectionFor rva : Except (Fault ε) (Option Section)) (fun _ => True) bad := by
  rw [sectionFor, SectionTable.sectionFor_eq]
  exact .pure trivial

/-- The offset of an address is computed within the range of numbers. -/
theorem offsetFor_yields :
    Yields (image.offsetFor rva : Except (Fault ε) (Option Nat)) (fun _ => True) bad := by
  rw [offsetFor_eq_toOption]
  exact .pure trivial

/-- An address that resolves lies inside the buffer; one that does not is a defect of
resolution. -/
theorem resolve_yields :
    Yields (image.resolve rva) (· < image.buffer.size) Defect.OfResolution := by
  rw [resolve_eq]
  split
  · exact .throw rfl
  · split
    · next hlt => exact .pure hlt
    · exact .throw rfl

end Image

/-- The bytes of a name lie inside the buffer. -/
theorem Buffer.nameBytes_yields (b : Buffer) {offset : Nat} (limit : Nat) (h : offset < b.size) :
    Yields (b.nameBytes offset limit : Except (Fault ε) (List UInt8)) (fun _ => True) bad := by
  have hsize : b.size < 0x8000000000000000 := b.size_lt
  have hlimit : Word.limit = 0x10000000000000000 := rfl
  have hstart : offset ≤ min (Word.satAdd offset limit) b.size := by
    unfold Word.satAdd
    omega
  unfold Buffer.nameBytes
  refine (Yields.bufferRange hstart (Nat.min_le_right _ _)).bind fun window _ => ?_
  exact (Yields.range (Nat.zero_le _) List.findIdx_le_length).weaken fun _ _ => trivial

/-- A name is read within the range of numbers. -/
theorem Buffer.name_yields (b : Buffer) (offset limit : Nat) :
    Yields (b.name offset limit) (fun _ => True) Defect.OfResolution := by
  unfold Buffer.name
  split
  · next h => exact (b.nameBytes_yields limit h).map fun _ _ => trivial
  · exact .throw rfl

/-- The name at an address is read within the range of numbers. -/
theorem Image.nameAt_yields (image : Image) (rva limit : Nat) :
    Yields (image.nameAt rva limit) (fun _ => True) Defect.OfResolution := by
  unfold Image.nameAt
  exact (image.resolve_yields rva).bind fun offset _ => image.buffer.name_yields offset limit

end PeListing
