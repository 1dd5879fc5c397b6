import PeListing.Proofs.HeaderChecks
import PeListing.Proofs.InRange

/-!
# Headers read back what was written

`HeaderValues` is what the headers of a file say, and `HeaderValues.layout` where the file format
wants each of these values: a list of words and names, each with its offset. A file may hold
anything else in between and behind (`Buffer.HasAll`).

The image in such a file has just these values (`Image.read_layout`). Every reader has one statement
of this kind about the part of the layout that it reads. The offsets of a layout count from the
start of the file, while a reader cuts out a record first and then looks at positions inside it; the
bridge is that a field of a record is a word of the file (`Buffer.HasAt.field32`,
`Buffer.HasAt.field64`).
-/

namespace PeListing

namespace Buffer

variable {b : Buffer}

/-- All of some bytes stand at their offsets. -/
def HasAll (b : Buffer) (pieces : List (Nat × List UInt8)) : Prop :=
  ∀ piece ∈ pieces, b.HasAt piece.1 piece.2

instance (b : Buffer) (pieces : List (Nat × List UInt8)) : Decidable (b.HasAll pieces) :=
  inferInstanceAs (Decidable (∀ piece ∈ pieces, b.HasAt piece.1 piece.2))

/-- A buffer has all pieces if it has the first and the others. -/
theorem hasAll_cons {piece : Nat × List UInt8} {pieces : List (Nat × List UInt8)} :
    b.HasAll (piece :: pieces) ↔ b.HasAt piece.1 piece.2 ∧ b.HasAll pieces :=
  List.forall_mem_cons

/-- A buffer has the pieces of two lists if it has those of each. -/
theorem hasAll_append {first second : List (Nat × List UInt8)} :
    b.HasAll (first ++ second) ↔ b.HasAll first ∧ b.HasAll second :=
  List.forall_mem_append

namespace HasAt

variable {offset width n : Nat}

/-- A word that stands somewhere lies inside the buffer. -/
theorem word_le (h : b.HasAt offset (LittleEndian.encode (width + 1) n)) :
    offset + (width + 1) ≤ b.size := by
  have hle := ((b.hasAt_iff (by simp)).mp h).1
  rwa [LittleEndian.length_encode] at hle

/-- A word that stands somewhere is the number there. -/
theorem number_eq (h : b.HasAt offset (LittleEndian.encode width n)) (hn : n < 1 <<< (8 * width)) :
    b.number offset width = n := by
  unfold HasAt at h
  rw [LittleEndian.length_encode] at h
  rw [number, h, LittleEndian.decode_encode, Nat.mod_eq_of_lt hn]

variable {size position : Nat}

/-- A 32-bit word of the buffer is a field of the record around it. -/
theorem field32 {v : UInt32} (h : b.HasAt (offset + position) (LittleEndian.encode 4 v.toNat))
    (hle : position + 4 ≤ size) :
    LittleEndian.field32 ((b.toList.drop offset).take size) position = v := by
  rw [b.field32_slice hle, h.number_eq v.toNat_lt, UInt32.ofNat_toNat]

/-- A 64-bit word of the buffer is a field of the record around it. -/
theorem field64 {v : UInt64} (h : b.HasAt (offset + position) (LittleEndian.encode 8 v.toNat))
    (hle : position + 8 ≤ size) :
    LittleEndian.field64 ((b.toList.drop offset).take size) position = v := by
  rw [LittleEndian.field64, b.field_slice hle, h.number_eq v.toNat_lt, UInt64.ofNat_toNat]

/-- A 16-bit word of the buffer is a field of the record around it, if that is whole. -/
theorem checkedField16 {ε : Type} {v : UInt16}
    (h : b.HasAt (offset + position) (LittleEndian.encode 2 v.toNat)) (hin : offset + size ≤ b.size)
    (hle : position + 2 ≤ size) :
    (LittleEndian.checkedField16 ((b.toList.drop offset).take size) position :
      Except (Fault ε) UInt16) = .ok v := by
  rw [checkedField16_slice b hin hle, h.number_eq v.toNat_lt, UInt16.ofNat_toNat]

end HasAt

end Buffer

/-! ### Where the values stand -/

/-- Where the optional header at an offset has its values. -/
def OptionalHeader.layout (h : OptionalHeader) (offset : Nat) : List (Nat × List UInt8) :=
  [(offset, LittleEndian.encode 2 h.kind.magic.toNat),
    (offset + 16, LittleEndian.encode 4 h.entryPoint.toNat),
    (offset + 36, LittleEndian.encode 4 h.fileAlignment.toNat)] ++
  match h.kind with
  | .pe32 => [(offset + 28, LittleEndian.encode 4 h.imageBase.toNat),
      (offset + 92, LittleEndian.encode 4 h.directoryCount.toNat)]
  | .pe32Plus => [(offset + 24, LittleEndian.encode 8 h.imageBase.toNat),
      (offset + 108, LittleEndian.encode 4 h.directoryCount.toNat)]

/-- Where the data directory at an offset has its values. -/
def DataDirectory.layout (d : DataDirectory) (offset : Nat) : List (Nat × List UInt8) :=
  [(offset, LittleEndian.encode 4 d.virtualAddress.toNat),
    (offset + 4, LittleEndian.encode 4 d.size.toNat)]

/-- Where the record of a section at an offset has its values. -/
def Section.layout (s : Section) (offset : Nat) : List (Nat × List UInt8) :=
  [(offset, s.name.toList), (offset + 8, LittleEndian.encode 4 s.virtualSize.toNat),
    (offset + 12, LittleEndian.encode 4 s.virtualAddress.toNat),
    (offset + 16, LittleEndian.encode 4 s.rawSize.toNat),
    (offset + 20, LittleEndian.encode 4 s.rawOffset.toNat),
    (offset + 36, LittleEndian.encode 4 s.characteristics.toNat)]

/-- Where the elements of a table have their values, from a given index on. -/
def tableLayout {α : Type} (layout : α → Nat → List (Nat × List UInt8)) (base width : Nat)
    (elements : List α) (index : Nat) : List (Nat × List UInt8) :=
  (elements.zipIdx index).flatMap fun x => layout x.1 (base + x.2 * width)

/-- The first element of a table stands at its index, and the others behind it. -/
theorem tableLayout_cons {α : Type} (layout : α → Nat → List (Nat × List UInt8)) (base width : Nat)
    (a : α) (elements : List α) (index : Nat) :
    tableLayout layout base width (a :: elements) index =
      layout a (base + index * width) ++ tableLayout layout base width elements (index + 1) := by
  rw [tableLayout, List.zipIdx_cons, List.flatMap_cons, tableLayout]

/-- What the headers of a file say. -/
structure HeaderValues where
  /-- The offset of the headers behind the first one. -/
  ntOffset : UInt32
  /-- The processor that the image is for. -/
  machine : Machine
  /-- The declared size of the optional header. -/
  optionalSize : UInt16
  /-- The fixed part of the optional header. -/
  optional : OptionalHeader
  /-- The data directories that the optional header has room for. -/
  directories : List DataDirectory
  /-- The section table. -/
  sections : List Section
  /-- An image with addresses of 32 bits has a base of 32 bits. -/
  imageBase_lt : optional.kind = .pe32 → optional.imageBase.toNat < 0x100000000
  /-- The declared size holds the fixed part. -/
  fixedSize_le : optional.kind.fixedSize ≤ optionalSize.toNat
  /-- There are as many directories as are declared, but no more than 16 and than fit in. -/
  length_directories : directories.length =
    min (min optional.directoryCount.toNat 16) ((optionalSize.toNat - optional.kind.fixedSize) / 8)
  /-- The sections can be counted. -/
  length_sections_lt : sections.length < 0x10000

namespace HeaderValues

variable (v : HeaderValues)

/-- The offset of the optional header. -/
def optionalOffset : Nat := v.ntOffset.toNat + 24

/-- The offset of the section table. -/
def tableOffset : Nat := v.optionalOffset + v.optionalSize.toNat

/-- Where a file has the values of its headers. -/
def layout : List (Nat × List UInt8) :=
  [(0, [0x4D, 0x5A]), (0x3C, LittleEndian.encode 4 v.ntOffset.toNat)] ++
  [(v.ntOffset.toNat, [0x50, 0x45, 0, 0]),
    (v.ntOffset.toNat + 4, LittleEndian.encode 2 v.machine.code.toNat),
    (v.ntOffset.toNat + 6, LittleEndian.encode 2 v.sections.length),
    (v.ntOffset.toNat + 20, LittleEndian.encode 2 v.optionalSize.toNat)] ++
  v.optional.layout v.optionalOffset ++
  tableLayout DataDirectory.layout (v.optionalOffset + v.optional.kind.fixedSize) 8
    v.directories 0 ++
  tableLayout Section.layout v.tableOffset 40 v.sections 0

end HeaderValues

/-! ### What the readers make of it -/

variable {b : Buffer}

/-- The first header is read back from its pieces. -/
theorem DosHeader.read_of_hasAt {ntOffset : UInt32} (hsignature : b.HasAt 0 [0x4D, 0x5A])
    (hoffset : b.HasAt 0x3C (LittleEndian.encode 4 ntOffset.toNat)) :
    DosHeader.read b = .ok ⟨DosHeader.signature, ntOffset⟩ := by
  have hmagic : b.u16? 0 = some DosHeader.signature := b.u16?_eq_some_iff.mpr hsignature
  have hword : b.u32? 0x3C = some ntOffset := b.u32?_eq_some_iff.mpr hoffset
  simp only [DosHeader.read, hmagic, hword]
  rfl

/-- The file header is read back from its pieces. -/
theorem FileHeader.read_of_hasAt {offset : Nat} {machine : Machine}
    {sectionCount optionalSize : UInt16} (hin : offset + 20 ≤ b.size)
    (hmachine : b.HasAt offset (LittleEndian.encode 2 machine.code.toNat))
    (hcount : b.HasAt (offset + 2) (LittleEndian.encode 2 sectionCount.toNat))
    (hsize : b.HasAt (offset + 16) (LittleEndian.encode 2 optionalSize.toNat)) :
    FileHeader.read b offset = .ok ⟨machine, sectionCount, optionalSize⟩ := by
  have hfirst : b.HasAt (offset + 0) (LittleEndian.encode 2 machine.code.toNat) := hmachine
  unfold FileHeader.read
  rw [FileHeader.size, b.slice?_eq, if_pos hin]
  dsimp only
  rw [hfirst.checkedField16 hin (by decide),
    hcount.checkedField16 hin (by decide), hsize.checkedField16 hin (by decide)]
  change ((liftM (Machine.ofCode machine.code) : Except (Fault Defect) Machine) >>= fun _ => _) = _
  rw [Machine.ofCode_code]
  rfl

/-- The record of an optional header has the values of its layout. -/
theorem OptionalHeader.ofRecord_of_hasAll {header : OptionalHeader} {offset : Nat}
    (hall : b.HasAll (header.layout offset))
    (hbase : header.kind = .pe32 → header.imageBase.toNat < 0x100000000) :
    OptionalHeader.ofRecord header.kind ((b.toList.drop offset).take header.kind.fixedSize) =
      header := by
  obtain ⟨kind, imageBase, entryPoint, fileAlignment, directoryCount⟩ := header
  rw [OptionalHeader.layout, Buffer.hasAll_append] at hall
  simp only [Buffer.hasAll_cons] at hall
  obtain ⟨⟨-, hentry, halignment, -⟩, hkind⟩ := hall
  unfold OptionalHeader.ofRecord
  cases kind with
  | pe32 =>
    simp only [Buffer.hasAll_cons] at hkind
    obtain ⟨himage, hcount, -⟩ := hkind
    -- The base is stored as a word of 32 bits.
    have hword : imageBase.toUInt32.toNat = imageBase.toNat := by
      rw [UInt64.toNat_toUInt32]
      exact Nat.mod_eq_of_lt (hbase rfl)
    have hwide : imageBase.toUInt32.toUInt64 = imageBase := by
      rw [← UInt64.toNat_inj, UInt32.toNat_toUInt64, hword]
    rw [← hword] at himage
    dsimp only [Kind.fixedSize]
    rw [hentry.field32 (by decide), halignment.field32 (by decide), himage.field32 (by decide),
      hcount.field32 (by decide), hwide]
  | pe32Plus =>
    simp only [Buffer.hasAll_cons] at hkind
    obtain ⟨himage, hcount, -⟩ := hkind
    dsimp only [Kind.fixedSize]
    rw [hentry.field32 (by decide), halignment.field32 (by decide), himage.field64 (by decide),
      hcount.field32 (by decide)]

/-- The optional header is read back from its pieces. -/
theorem OptionalHeader.read_of_hasAll {header : OptionalHeader} {offset : Nat} {declared : UInt16}
    (hall : b.HasAll (header.layout offset))
    (hbase : header.kind = .pe32 → header.imageBase.toNat < 0x100000000)
    (hdeclared : header.kind.fixedSize ≤ declared.toNat)
    (hin : offset + header.kind.fixedSize ≤ b.size) :
    OptionalHeader.read b offset declared = .ok header := by
  have hmagic : b.u16? offset = some header.kind.magic :=
    b.u16?_eq_some_iff.mpr (hall _ List.mem_cons_self)
  unfold OptionalHeader.read
  simp only [hmagic]
  rw [Kind.ofMagic_magic]
  change (if declared.toNat < header.kind.fixedSize then _ else _) = _
  rw [if_neg (Nat.not_lt.mpr hdeclared), b.slice?_eq, if_pos hin]
  exact congrArg Except.ok (OptionalHeader.ofRecord_of_hasAll hall hbase)

/-- The directories are read one after another. -/
theorem DataDirectory.readFrom_of_hasAll {base : Nat} (directories : List DataDirectory)
    {index : Nat}
    (hall : b.HasAll (tableLayout DataDirectory.layout base 8 directories index)) :
    DataDirectory.readFrom b base directories.length index = .ok directories := by
  have hlimit : Word.limit = 0x10000000000000000 := rfl
  have hbuffer : b.size < 0x8000000000000000 := b.size_lt
  induction directories generalizing index with
  | nil => rfl
  | cons d directories ih =>
    rw [tableLayout_cons, Buffer.hasAll_append, DataDirectory.layout] at hall
    simp only [Buffer.hasAll_cons] at hall
    obtain ⟨⟨haddress, hsize, -⟩, hrest⟩ := hall
    have hin := hsize.word_le
    have hfirst : b.u32? (base + index * 8) = some d.virtualAddress :=
      b.u32?_eq_some_iff.mpr haddress
    have hsecond : b.u32? (base + index * 8 + 4) = some d.size := b.u32?_eq_some_iff.mpr hsize
    rw [List.length_cons, DataDirectory.readFrom, DataDirectory.entrySize,
      Word.mul_of_lt (by omega)]
    dsimp only [bind, Except.bind]
    rw [Word.add_of_lt (by omega)]
    dsimp only
    rw [Word.add_of_lt (by omega)]
    dsimp only
    rw [hfirst, hsecond, ih hrest]
    rfl

/-- The slots that a list of directories does not fill are empty. -/
theorem DataDirectory.toList_fill {stored : List DataDirectory} (h : stored.length ≤ 16) :
    (DataDirectory.fill stored).toList = stored ++ List.replicate (16 - stored.length) ⟨0, 0⟩ := by
  rw [DataDirectory.fill, Vector.toList_ofFn]
  refine List.ext_getElem ?_ fun i _ _ => ?_
  · rw [List.length_ofFn, List.length_append, List.length_replicate, DataDirectory.slots]
    omega
  · rw [List.getElem_ofFn, List.getElem_append]
    split
    · next hlt => simp [hlt]
    · next hge =>
      rw [List.getD_eq_default _ _ (Nat.le_of_not_lt hge), List.getElem_replicate,
        DataDirectory.absent]

/-- The record of a section has the values of its layout. -/
theorem Section.ofRecord_of_hasAll {ε : Type} {s : Section} {offset : Nat}
    (hall : b.HasAll (s.layout offset)) (hin : offset + 40 ≤ b.size) :
    (Section.ofRecord ((b.toList.drop offset).take 40) : Except (Fault ε) Section) = .ok s := by
  obtain ⟨name, virtualSize, virtualAddress, rawSize, rawOffset, characteristics⟩ := s
  simp only [Section.layout, Buffer.hasAll_cons] at hall
  obtain ⟨hname, hvirtualSize, hvirtualAddress, hrawSize, hrawOffset, hcharacteristics, -⟩ := hall
  have hlength : ((b.toList.drop offset).take 40).length = 40 := by
    rw [List.length_take, List.length_drop, b.length_toList]
    omega
  have hfront : ((b.toList.drop offset).take 40).take 8 = name.toList := by
    unfold Buffer.HasAt at hname
    rw [Vector.length_toList] at hname
    rw [List.take_take]
    exact hname
  unfold Section.ofRecord
  rw [Select.range_of_le (Nat.zero_le 8) (by omega), List.drop_zero, Nat.sub_zero, hfront]
  change (Select.vector 8 name.toList >>= fun _ => _) = _
  rw [Select.vector_of_length name.length_toList]
  simp only [hvirtualSize.field32 (by decide : 8 + 4 ≤ 40),
    hvirtualAddress.field32 (by decide : 12 + 4 ≤ 40), hrawSize.field32 (by decide : 16 + 4 ≤ 40),
    hrawOffset.field32 (by decide : 20 + 4 ≤ 40),
    hcharacteristics.field32 (by decide : 36 + 4 ≤ 40)]
  rfl

/-- A record of a section ends with its characteristics. -/
theorem Section.layout_le {s : Section} {offset : Nat} (hall : b.HasAll (s.layout offset)) :
    offset + 40 ≤ b.size := by
  simp only [Section.layout, Buffer.hasAll_cons] at hall
  obtain ⟨-, -, -, -, -, hcharacteristics, -⟩ := hall
  exact hcharacteristics.word_le

/-- The sections are read one after another. -/
theorem Section.readFrom_of_hasAll {base : Nat} (sections : List Section) {index : Nat}
    (hall : b.HasAll (tableLayout Section.layout base 40 sections index)) :
    Section.readFrom b base sections.length index = .ok sections := by
  have hlimit : Word.limit = 0x10000000000000000 := rfl
  have hbuffer : b.size < 0x8000000000000000 := b.size_lt
  induction sections generalizing index with
  | nil => rfl
  | cons s sections ih =>
    rw [tableLayout_cons, Buffer.hasAll_append] at hall
    obtain ⟨hrecord, hrest⟩ := hall
    have hin := Section.layout_le hrecord
    rw [List.length_cons, Section.readFrom, Section.recordSize, Word.mul_of_lt (by omega)]
    dsimp only [bind, Except.bind]
    rw [Word.add_of_lt (by omega)]
    dsimp only
    rw [Word.add_of_lt (by omega), b.slice?_eq, if_pos hin]
    dsimp only
    rw [Section.ofRecord_of_hasAll hrecord hin, ih hrest]
    rfl

/-- The fixed part of an optional header ends with the number of its directories. -/
theorem OptionalHeader.layout_le {header : OptionalHeader} {offset : Nat}
    (hall : b.HasAll (header.layout offset)) : offset + header.kind.fixedSize ≤ b.size := by
  rw [OptionalHeader.layout, Buffer.hasAll_append] at hall
  obtain ⟨-, hkind⟩ := hall
  cases hk : header.kind with
  | pe32 =>
    simp only [hk, Buffer.hasAll_cons] at hkind
    exact hkind.2.1.word_le
  | pe32Plus =>
    simp only [hk, Buffer.hasAll_cons] at hkind
    exact hkind.2.1.word_le

/-- The directories fill the first slots. -/
theorem DataDirectory.readAll_of_hasAll {v : HeaderValues}
    (hbase : v.optionalOffset + v.optional.kind.fixedSize < Word.limit)
    (hall : b.HasAll (tableLayout DataDirectory.layout
      (v.optionalOffset + v.optional.kind.fixedSize) 8 v.directories 0)) :
    DataDirectory.readAll b v.optionalOffset v.optional.kind v.optional.directoryCount
      v.optionalSize = .ok (DataDirectory.fill v.directories) := by
  have hcount : DataDirectory.storedCount v.optional.kind v.optional.directoryCount
      v.optionalSize = v.directories.length := v.length_directories.symm
  unfold DataDirectory.readAll
  rw [Word.add_of_lt hbase, hcount]
  dsimp only [bind, Except.bind]
  rw [DataDirectory.readFrom_of_hasAll v.directories hall]
  rfl

/-- The headers behind the second signature have the values of the layout. -/
theorem NtHeaders.read_of_hasAll {v : HeaderValues} (hall : b.HasAll v.layout) :
    NtHeaders.read b v.ntOffset.toNat =
      .ok ⟨⟨v.machine, UInt16.ofNat v.sections.length, v.optionalSize⟩, v.optional,
        DataDirectory.fill v.directories⟩ := by
  have hlimit : Word.limit = 0x10000000000000000 := rfl
  have hoffset : v.ntOffset.toNat < 0x100000000 := v.ntOffset.toNat_lt
  simp only [HeaderValues.layout, Buffer.hasAll_append, Buffer.hasAll_cons] at hall
  obtain ⟨⟨⟨⟨-, hsignature, hmachine, hsections, hdeclared, -⟩, hoptional⟩, hdirectories⟩, -⟩ :=
    hall
  have hend := OptionalHeader.layout_le hoptional
  have hbuffer : b.size < 0x8000000000000000 := b.size_lt
  have hopt : v.optionalOffset = v.ntOffset.toNat + 24 := rfl
  have hmagic : b.u32? v.ntOffset.toNat = some NtHeaders.signature :=
    b.u32?_eq_some_iff.mpr hsignature
  have hcount : (UInt16.ofNat v.sections.length).toNat = v.sections.length :=
    UInt16.toNat_ofNat_of_lt' v.length_sections_lt
  rw [← hcount] at hsections
  have hfile : FileHeader.read b (v.ntOffset.toNat + 4) =
      .ok ⟨v.machine, UInt16.ofNat v.sections.length, v.optionalSize⟩ :=
    FileHeader.read_of_hasAt (by omega) hmachine hsections hdeclared
  have hheader := OptionalHeader.read_of_hasAll hoptional v.imageBase_lt v.fixedSize_le hend
  have htable := DataDirectory.readAll_of_hasAll (v := v) (by omega) hdirectories
  unfold NtHeaders.read
  rw [if_neg (not_not_intro hmagic), Word.add_of_lt (by omega)]
  dsimp only [bind, Except.bind]
  rw [hfile]
  dsimp only [FileHeader.size]
  rw [Word.add_of_lt (by omega)]
  change (liftM (OptionalHeader.read b v.optionalOffset v.optionalSize) >>= fun optional =>
    DataDirectory.readAll b v.optionalOffset optional.kind optional.directoryCount
      v.optionalSize >>= fun _ => _) = _
  rw [hheader]
  change (DataDirectory.readAll b v.optionalOffset v.optional.kind v.optional.directoryCount
    v.optionalSize >>= fun _ => _) = _
  rw [htable]
  rfl

/-- The image has the values of the layout. -/
theorem Image.read_of_hasAll {v : HeaderValues} (hall : b.HasAll v.layout) :
    Image.read b = .ok ⟨b, ⟨DosHeader.signature, v.ntOffset⟩,
      ⟨⟨v.machine, UInt16.ofNat v.sections.length, v.optionalSize⟩, v.optional,
        DataDirectory.fill v.directories⟩, ⟨v.sections, v.optional.fileAlignment⟩⟩ := by
  have hlimit : Word.limit = 0x10000000000000000 := rfl
  have hoffset : v.ntOffset.toNat < 0x100000000 := v.ntOffset.toNat_lt
  have hdeclared : v.optionalSize.toNat < 0x10000 := v.optionalSize.toNat_lt
  have hnt := NtHeaders.read_of_hasAll hall
  simp only [HeaderValues.layout, Buffer.hasAll_append, Buffer.hasAll_cons] at hall
  obtain ⟨⟨⟨⟨⟨hdos, hfirst, -⟩, -⟩, -⟩, -⟩, hsections⟩ := hall
  have hstart : v.ntOffset.toNat + (4 + FileHeader.size + v.optionalSize.toNat) =
      v.tableOffset := by
    rw [HeaderValues.tableOffset, HeaderValues.optionalOffset, FileHeader.size]
    omega
  have hsize : 4 + FileHeader.size = 24 := rfl
  have hfits : Word.add? v.ntOffset.toNat (4 + FileHeader.size + v.optionalSize.toNat) =
      some v.tableOffset := Word.add?_eq_some_iff.mpr ⟨by omega, hstart⟩
  have hcount : (UInt16.ofNat v.sections.length).toNat = v.sections.length :=
    UInt16.toNat_ofNat_of_lt' v.length_sections_lt
  unfold Image.read
  rw [DosHeader.read_of_hasAt hdos hfirst]
  change (NtHeaders.read b v.ntOffset.toNat >>= fun _ => _) = _
  rw [hnt]
  dsimp only [bind, Except.bind]
  rw [Word.add_of_lt (by omega)]
  dsimp only
  rw [hfits]
  dsimp only [Section.readAll]
  rw [hcount, Section.readFrom_of_hasAll v.sections hsections]
  rfl

/-- **Headers read back what was written.** A file with the values of its headers in their places
is an image with just these values, whatever else the file holds. The directories that the optional
header has no room for are absent ones, even where other bytes stand in their places. -/
theorem Image.read_layout (v : HeaderValues) (h : b.HasAll v.layout) :
    ∃ image, Image.read b = .ok image ∧ image.buffer = b ∧
      image.dos = ⟨DosHeader.signature, v.ntOffset⟩ ∧
      image.nt.file = ⟨v.machine, UInt16.ofNat v.sections.length, v.optionalSize⟩ ∧
      image.nt.optional = v.optional ∧
      image.nt.directories.toList =
        v.directories ++ List.replicate (16 - v.directories.length) ⟨0, 0⟩ ∧
      image.sectionTable = ⟨v.sections, v.optional.fileAlignment⟩ := by
  have hle : v.directories.length ≤ 16 := by
    have hlength := v.length_directories
    omega
  exact ⟨_, Image.read_of_hasAll h, rfl, rfl, rfl, rfl, DataDirectory.toList_fill hle, rfl⟩

namespace Sample

/-- Headers that declare far more directories than they have room for: one, and a single byte. -/
def wideValues : HeaderValues where
  ntOffset := 64
  machine := .amd64
  optionalSize := 121
  optional := ⟨.pe32Plus, 0x140000000, 0x1000, 0x200, 0xFFFFFFFF⟩
  directories := [⟨0x2000, 40⟩]
  sections := [⟨#v[0x2E, 0x74, 0x65, 0x78, 0x74, 0, 0, 0], 8, 0x1000, 16, 0x200, 0x60000020⟩,
    ⟨#v[0x2E, 0x72, 0x64, 0x61, 0x74, 0x61, 0x24, 0x7A], 64, 0x2000, 64, 0x210, 0x40000040⟩]
  imageBase_lt := by decide
  fixedSize_le := by decide
  length_directories := by decide
  length_sections_lt := by decide

/-- A file with these headers. -/
def wideBuffer : Buffer where
  bytes := ⟨(start 0x8664 2 121 ++
    -- the optional header and its directory
    word 2 0x20B ++ gap 14 ++ word 4 0x1000 ++ gap 4 ++ word 8 0x140000000 ++ gap 4 ++
    word 4 0x200 ++ gap 68 ++ word 4 0xFFFFFFFF ++ word 4 0x2000 ++ word 4 40 ++ [0xFF] ++
    -- the section table
    [0x2E, 0x74, 0x65, 0x78, 0x74, 0, 0, 0] ++ word 4 8 ++ word 4 0x1000 ++ word 4 16 ++
    word 4 0x200 ++ gap 12 ++ word 4 0x60000020 ++
    [0x2E, 0x72, 0x64, 0x61, 0x74, 0x61, 0x24, 0x7A] ++ word 4 64 ++ word 4 0x2000 ++ word 4 64 ++
    word 4 0x210 ++ gap 12 ++ word 4 0x40000040).toArray⟩
  size_lt := by decide +kernel

end Sample

/-- Fifteen of the sixteen directories are absent ones, although the records of the section table
stand where they would be. -/
theorem Image.read_layout_wide : Sample.wideBuffer.HasAll Sample.wideValues.layout ∧
    ∃ image, Image.read Sample.wideBuffer = .ok image ∧ image.buffer = Sample.wideBuffer ∧
      image.dos = ⟨DosHeader.signature, 64⟩ ∧ image.nt.file = ⟨.amd64, 2, 121⟩ ∧
      image.nt.optional = ⟨.pe32Plus, 0x140000000, 0x1000, 0x200, 0xFFFFFFFF⟩ ∧
      image.nt.directories.toList = ⟨0x2000, 40⟩ :: List.replicate 15 ⟨0, 0⟩ ∧
      image.sectionTable = ⟨Sample.wideValues.sections, 0x200⟩ := by
  have hall : Sample.wideBuffer.HasAll Sample.wideValues.layout := by decide +kernel
  exact ⟨hall, Image.read_layout Sample.wideValues hall⟩

end PeListing
