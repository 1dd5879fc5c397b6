import PeListing.Proofs.ExactReads
import PeListing.Proofs.Translation

/-!
# Bytes appended to a file

A file to which bytes are appended holds the same image as before. The readers of the headers ask for
slices, and a slice that a buffer has is the same one in every longer buffer
(`Buffer.Starts.slice?`). So whatever a reader finds in the shorter file it finds in the longer
one: the reader *persists*. Persistence passes through sequences of steps (`Persists.bind`).

One reader does not persist by itself. Data directories that the end of the file cuts off count as
absent, and there may be such directories in the longer file. It takes a section to rule that out: the
record of the section stands behind the whole optional header, which therefore lies inside the shorter
file (`DataDirectory.readAll_of_starts`).
-/

namespace PeListing

/-! ### Persistence -/

/-- A value that was lifted was a value before. -/
theorem ok_of_liftM {ε α : Type} {x : Except ε α} {a : α}
    (h : (liftM x : Except (Fault ε) α) = .ok a) : x = .ok a := by
  cases x with
  | error cause => cases h
  | ok _ =>
    cases h
    rfl

/-- A value that the first computation ends in is also the one that the second ends in. -/
def Persists {ε α : Type} (x y : Except ε α) : Prop := ∀ a, x = .ok a → y = .ok a

namespace Persists

variable {ε α β : Type} {x y : Except ε α}

/-- A computation persists in itself. -/
theorem refl (x : Except ε α) : Persists x x := fun _ h => h

/-- A computation that fails persists in any other. -/
theorem of_error {cause : ε} : Persists (.error cause) y := by
  intro a h
  cases h

/-- A sequence persists if each of its steps does. -/
theorem bind {f g : α → Except ε β} (hx : Persists x y)
    (hf : ∀ a, x = .ok a → Persists (f a) (g a)) : Persists (x >>= f) (y >>= g) := by
  intro b h
  obtain ⟨a, ha, hb⟩ := exists_ok_of_bind h
  rw [hx a ha]
  exact hf a ha b hb

/-- A first step that both computations share. -/
theorem bind_right {f g : α → Except ε β} (hf : ∀ a, x = .ok a → Persists (f a) (g a)) :
    Persists (x >>= f) (x >>= g) :=
  (refl x).bind hf

/-- What persists does so when it is lifted. -/
theorem lift (h : Persists x y) : Persists (liftM x : Except (Fault ε) α) (liftM y) := by
  intro a ha
  rw [h a (ok_of_liftM ha)]
  rfl

end Persists

/-! ### Reads in a longer buffer -/

namespace Buffer

variable {b longer : Buffer}

/-- A longer buffer starts with the bytes of a shorter one. -/
def Starts (b longer : Buffer) : Prop := b.toList <+: longer.toList

namespace Starts

/-- A buffer is not shorter than its start. -/
theorem size_le (h : b.Starts longer) : b.size ≤ longer.size := by
  rw [← b.length_toList, ← longer.length_toList]
  exact List.IsPrefix.length_le h

/-- A slice of a buffer is also one of a longer buffer. -/
theorem slice? (h : b.Starts longer) {offset size : Nat} {bs : List UInt8}
    (hslice : b.slice? offset size = some bs) : longer.slice? offset size = some bs := by
  obtain ⟨hle, rfl⟩ := slice?_eq_some_iff.mp hslice
  refine slice?_eq_some_iff.mpr ⟨Nat.le_trans hle h.size_le, ?_⟩
  obtain ⟨extra, hextra⟩ := h
  have hdrop : size ≤ (b.toList.drop offset).length := by
    rw [List.length_drop, b.length_toList]
    omega
  have hoffset : offset ≤ b.toList.length := by
    rw [b.length_toList]
    omega
  rw [← hextra, List.drop_append_of_le_length hoffset, List.take_append_of_le_length hdrop]

/-- A word of two bytes is the same in the longer buffer. -/
theorem u16? (h : b.Starts longer) {offset : Nat} {v : UInt16}
    (hword : b.u16? offset = some v) : longer.u16? offset = some v := by
  obtain ⟨bs, hslice, rfl⟩ := Option.map_eq_some_iff.mp hword
  rw [Buffer.u16?, h.slice? hslice]
  rfl

/-- A word of four bytes is the same in the longer buffer. -/
theorem u32? (h : b.Starts longer) {offset : Nat} {v : UInt32}
    (hword : b.u32? offset = some v) : longer.u32? offset = some v := by
  obtain ⟨bs, hslice, rfl⟩ := Option.map_eq_some_iff.mp hword
  rw [Buffer.u32?, h.slice? hslice]
  rfl

end Starts

end Buffer

/-! ### Headers -/

variable {b longer : Buffer}

/-- The first header is read from the longer buffer as well. -/
theorem DosHeader.read_persists (h : b.Starts longer) :
    Persists (DosHeader.read b) (DosHeader.read longer) := by
  unfold DosHeader.read
  cases hmagic : b.u16? 0 with
  | none => exact .of_error
  | some magic =>
    rw [h.u16? hmagic]
    dsimp only
    split
    · exact .of_error
    · cases hoffset : b.u32? 0x3C with
      | none => exact .of_error
      | some offset =>
        rw [h.u32? hoffset]
        exact .refl _

/-- The file header is read from the longer buffer as well. -/
theorem FileHeader.read_persists (h : b.Starts longer) (offset : Nat) :
    Persists (FileHeader.read b offset) (FileHeader.read longer offset) := by
  unfold FileHeader.read
  cases hrecord : b.slice? offset FileHeader.size with
  | none => exact .of_error
  | some record =>
    rw [h.slice? hrecord]
    exact .refl _

/-- The optional header is read from the longer buffer as well. -/
theorem OptionalHeader.read_persists (h : b.Starts longer) (offset : Nat)
    (declared : UInt16) :
    Persists (OptionalHeader.read b offset declared) (OptionalHeader.read longer offset declared) := by
  unfold OptionalHeader.read
  cases hmagic : b.u16? offset with
  | none => exact .of_error
  | some magic =>
    rw [h.u16? hmagic]
    refine .bind_right fun kind _ => ?_
    dsimp only
    split
    · exact .of_error
    · cases hrecord : b.slice? offset kind.fixedSize with
      | none => exact .of_error
      | some record =>
        rw [h.slice? hrecord]
        exact .refl _

/-- The declared size of an optional header that is read holds the fixed part. -/
theorem OptionalHeader.fixedSize_le_of_read {offset : Nat} {declared : UInt16}
    {header : OptionalHeader} (h : OptionalHeader.read b offset declared = .ok header) :
    header.kind.fixedSize ≤ declared.toNat := by
  unfold OptionalHeader.read at h
  split at h
  · obtain ⟨kind, -, h⟩ := exists_ok_of_bind h
    dsimp only at h
    split at h
    · cases h
    · next hdeclared =>
      split at h
      · cases h
        exact Nat.le_of_not_lt hdeclared
      · cases h
  · cases h

/-- A table of directories that lies inside the shorter buffer is the same in the longer one. -/
theorem DataDirectory.readFrom_of_starts (h : b.Starts longer) {base count index : Nat}
    (hin : base + (index + count) * 8 ≤ b.size) :
    DataDirectory.readFrom longer base count index = DataDirectory.readFrom b base count index := by
  have hlimit : Word.limit = 0x10000000000000000 := rfl
  have hbuffer : b.size < 0x8000000000000000 := b.size_lt
  induction count generalizing index with
  | zero => rfl
  | succ count ih =>
    have hword : ∀ offset, offset + 4 ≤ b.size → longer.u32? offset = b.u32? offset := by
      intro offset hle
      have hsome := b.u32?_eq offset
      rw [if_pos hle] at hsome
      rw [hsome, h.u32? hsome]
    unfold DataDirectory.readFrom
    rw [DataDirectory.entrySize, Word.mul_of_lt (by omega)]
    dsimp only [bind, Except.bind]
    rw [Word.add_of_lt (by omega)]
    dsimp only
    rw [Word.add_of_lt (by omega)]
    dsimp only
    rw [hword (base + index * 8) (by omega), hword (base + index * 8 + 4) (by omega),
      ih (by omega)]

/-- The directories of an optional header whose declared size lies inside the shorter buffer are the
same in the longer one. -/
theorem DataDirectory.readAll_of_starts (h : b.Starts longer) {offset : Nat} {kind : Kind}
    {declaredSize : UInt16} (hfixed : kind.fixedSize ≤ declaredSize.toNat)
    (hin : offset + declaredSize.toNat ≤ b.size) (declaredCount : UInt32) :
    DataDirectory.readAll longer offset kind declaredCount declaredSize =
      DataDirectory.readAll b offset kind declaredCount declaredSize := by
  have hlimit : Word.limit = 0x10000000000000000 := rfl
  have hbuffer : b.size < 0x8000000000000000 := b.size_lt
  have hstored : DataDirectory.storedCount kind declaredCount declaredSize ≤
      (declaredSize.toNat - kind.fixedSize) / 8 := Nat.min_le_right _ _
  unfold DataDirectory.readAll
  rw [Word.add_of_lt (by omega)]
  dsimp only [bind, Except.bind]
  rw [DataDirectory.readFrom_of_starts h (by omega)]

/-- The headers behind the second signature persist if the whole optional header lies inside the
shorter buffer. -/
theorem NtHeaders.read_of_starts (h : b.Starts longer) {offset : Nat} {nt : NtHeaders}
    (hread : NtHeaders.read b offset = .ok nt)
    (hin : offset + 24 + nt.file.optionalSize.toNat ≤ b.size) :
    NtHeaders.read longer offset = .ok nt := by
  have hlimit : Word.limit = 0x10000000000000000 := rfl
  have hbuffer : b.size < 0x8000000000000000 := b.size_lt
  have hsize : FileHeader.size = 20 := rfl
  unfold NtHeaders.read at hread ⊢
  dsimp only at hread ⊢
  split at hread
  · cases hread
  · next hsignature =>
    rw [not_not] at hsignature
    rw [if_neg (not_not_intro (h.u32? hsignature))]
    rw [Word.add_of_lt (by omega)] at hread ⊢
    obtain ⟨file, hfile, hread⟩ := exists_ok_of_bind (x := FileHeader.read b (offset + 4)) hread
    rw [Word.add_of_lt (by omega)] at hread
    obtain ⟨optional, hoptional, hread⟩ := exists_ok_of_bind
      (x := liftM (OptionalHeader.read b (offset + 4 + FileHeader.size) file.optionalSize)) hread
    obtain ⟨directories, hdirectories, hread⟩ := exists_ok_of_bind hread
    cases hread
    have hfixed := OptionalHeader.fixedSize_le_of_read (ok_of_liftM hoptional)
    have hwhole : offset + 4 + FileHeader.size + file.optionalSize.toNat ≤ b.size := hin
    have hall := DataDirectory.readAll_of_starts h hfixed hwhole optional.directoryCount
    change (FileHeader.read longer (offset + 4) >>= fun _ => _) = _
    rw [FileHeader.read_persists h _ _ hfile]
    change (Word.add (offset + 4) FileHeader.size >>= fun _ => _) = _
    rw [Word.add_of_lt (by omega)]
    change ((liftM (OptionalHeader.read longer (offset + 4 + FileHeader.size) file.optionalSize) :
      Except (Fault Defect) OptionalHeader) >>= fun _ => _) = _
    rw [(OptionalHeader.read_persists h _ _).lift _ hoptional]
    change (DataDirectory.readAll longer (offset + 4 + FileHeader.size) _ _ _ >>= fun _ => _) = _
    rw [hall, hdirectories]
    rfl

/-! ### Sections -/

/-- The section table is read from the longer buffer as well. -/
theorem Section.readFrom_persists (h : b.Starts longer) (base count index : Nat) :
    Persists (Section.readFrom b base count index) (Section.readFrom longer base count index) := by
  induction count generalizing index with
  | zero => exact .refl _
  | succ count ih =>
    unfold Section.readFrom
    refine .bind_right fun product _ => .bind_right fun offset _ => .bind_right fun stop _ => ?_
    cases hrecord : b.slice? offset Section.recordSize with
    | none => exact .of_error
    | some record =>
      rw [h.slice? hrecord]
      exact .bind_right fun s _ => (ih (index + 1)).bind fun sections _ => .refl _

/-- A section table with a section starts inside the buffer. -/
theorem Section.le_of_readFrom {base count : Nat} {sections : List Section}
    (h : Section.readFrom b base count 0 = .ok sections) (hne : sections ≠ []) : base ≤ b.size := by
  cases count with
  | zero =>
    cases h
    exact absurd rfl hne
  | succ count =>
    unfold Section.readFrom at h
    obtain ⟨product, -, h⟩ := exists_ok_of_bind h
    obtain ⟨offset, hoffset, h⟩ := exists_ok_of_bind h
    obtain ⟨stop, -, h⟩ := exists_ok_of_bind h
    cases hrecord : b.slice? offset Section.recordSize with
    | none =>
      rw [hrecord] at h
      cases h
    | some record =>
      have hle := (Buffer.slice?_eq_some_iff.mp hrecord).1
      obtain ⟨-, rfl⟩ := Word.add_eq_ok_iff.mp hoffset
      omega

namespace Image

/-- An image with a section is the same one in a longer buffer. -/
theorem read_of_starts (h : b.Starts longer) {image : Image}
    (hread : Image.read b = .ok image) (hsections : image.sections ≠ []) :
    Image.read longer = .ok { image with buffer := longer } := by
  unfold Image.read at hread ⊢
  obtain ⟨dos, hdos, hread⟩ := exists_ok_of_bind hread
  obtain ⟨nt, hnt, hread⟩ := exists_ok_of_bind hread
  obtain ⟨headerSize, hheaderSize, hread⟩ := exists_ok_of_bind hread
  cases htable : Word.add? dos.ntOffset.toNat headerSize with
  | none =>
    rw [htable] at hread
    cases hread
  | some tableOffset =>
    rw [htable] at hread
    obtain ⟨sections, hrecords, hread⟩ := exists_ok_of_bind hread
    cases hread
    have hstart : tableOffset ≤ b.size := Section.le_of_readFrom hrecords hsections
    have hsize : FileHeader.size = 20 := rfl
    obtain ⟨-, rfl⟩ := Word.add_eq_ok_iff.mp hheaderSize
    obtain ⟨-, rfl⟩ := Word.add?_eq_some_iff.mp htable
    have hnt' := NtHeaders.read_of_starts h hnt (by omega)
    rw [(DosHeader.read_persists h).lift _ hdos]
    change (NtHeaders.read longer dos.ntOffset.toNat >>= fun _ => _) = _
    rw [hnt']
    change (Word.add (4 + FileHeader.size) nt.file.optionalSize.toNat >>= fun _ => _) = _
    rw [hheaderSize]
    dsimp only [bind, Except.bind]
    rw [htable]
    dsimp only [Section.readAll]
    rw [Section.readFrom_persists h _ _ _ _ hrecords]
    rfl

/-- An address that has an offset in the shorter buffer has the same one in the longer one. -/
theorem offsetFor_of_starts {ε : Type} (image : Image) (h : image.buffer.Starts longer)
    {rva offset : Nat}
    (hoffset : (image.offsetFor rva : Except (Fault ε) (Option Nat)) = .ok (some offset)) :
    (({ image with buffer := longer } : Image).offsetFor rva : Except (Fault ε) (Option Nat)) =
      .ok (some offset) := by
  unfold offsetFor at hoffset ⊢
  obtain ⟨found, hfound, hkept⟩ := exists_ok_of_bind hoffset
  obtain ⟨rfl, hlt⟩ := Option.filter_eq_some_iff.mp (Except.ok.inj hkept)
  have hin : offset < longer.size := Nat.lt_of_lt_of_le (of_decide_eq_true hlt) h.size_le
  rw [hfound]
  exact congrArg Except.ok (Option.filter_eq_some_iff.mpr ⟨rfl, decide_eq_true hin⟩)

end Image

/-- **Appended bytes disturb nothing.** A file that holds an image with a section can be followed by any
bytes: it still holds an image, with the same headers, the same directories and the same sections.
Every address that had a file offset keeps it, and every address stays in the section that it was
in. -/
theorem Image.read_append {b longer : Buffer} {extra : List UInt8}
    (hbytes : longer.toList = b.toList ++ extra) {image : Image} (hread : Image.read b = .ok image)
    (hsections : image.sections ≠ []) :
    ∃ image' : Image, Image.read longer = .ok image' ∧ image'.buffer = longer ∧
      image'.dos = image.dos ∧ image'.nt.file = image.nt.file ∧
      image'.nt.optional = image.nt.optional ∧ image'.nt.directories = image.nt.directories ∧
      image'.sections = image.sections ∧
      (∀ rva offset : Nat,
        (image.offsetFor rva : Except (Fault Defect) (Option Nat)) = .ok (some offset) →
          (image'.offsetFor rva : Except (Fault Defect) (Option Nat)) = .ok (some offset)) ∧
      ∀ rva : Nat, (image'.sectionFor rva : Except (Fault Defect) (Option Section)) =
        image.sectionFor rva := by
  have hstarts : b.Starts longer := ⟨extra, hbytes.symm⟩
  obtain ⟨rfl, -⟩ := (Image.read_yields b).of_ok hread
  refine ⟨{ image with buffer := longer }, Image.read_of_starts hstarts hread hsections,
    rfl, rfl, rfl, rfl, rfl, rfl, fun rva offset hoffset => ?_, fun rva => rfl⟩
  exact image.offsetFor_of_starts hstarts hoffset

namespace Sample

/-- The bytes that are missing from the last section of a file, and one more. -/
def extendedBuffer : Buffer :=
  ⟨⟨overlappedBuffer.bytes.data ++ Array.replicate 29 0xCC⟩, by decide +kernel⟩

end Sample

/-- The longer file holds more of the last section, and 0x1027 still belongs to the section before
it. -/
theorem Image.read_append_extended :
    ∃ image image' : Image, Image.read Sample.overlappedBuffer = .ok image ∧
      image.sections.length = 3 ∧ Image.read Sample.extendedBuffer = .ok image' ∧
      image'.sections = image.sections ∧
      (image'.offsetFor 0x1027 : Except (Fault Defect) (Option Nat)) = .ok (some 327) := by
  have hfacts : (Image.read Sample.overlappedBuffer).toOption.map
      (fun image => (image.sections.length,
        (image.offsetFor 0x1027 : Except (Fault Defect) (Option Nat)))) =
      some (3, .ok (some 327)) := by decide +kernel
  obtain ⟨image, hread, himage⟩ := Sample.exists_read_of_map hfacts
  obtain ⟨hlength, hoffset⟩ := Prod.mk.inj himage
  have hbytes : Sample.extendedBuffer.toList =
      Sample.overlappedBuffer.toList ++ List.replicate 29 0xCC := by decide +kernel
  have hsections : image.sections ≠ [] := List.ne_nil_of_length_pos (by omega)
  obtain ⟨image', hread', -, -, -, -, -, hsame, hkept, -⟩ :=
    Image.read_append hbytes hread hsections
  exact ⟨image, image', hread, hlength, hread', hsame, hkept 0x1027 327 hoffset⟩

end PeListing
