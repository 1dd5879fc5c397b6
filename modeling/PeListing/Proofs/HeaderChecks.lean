import PeListing.Proofs.ExactReads

/-!
# Which files are images

The headers of a file pass a list of checks, one after another, and a file that fails has the
defect of the first check that it fails. The checks are conditions on the numbers in the file:
`Buffer.headerChecks` for the headers and `Buffer.recordChecks` for the section table, with a check
of its own for each record.

`Checks x checks good` ties a reader to such a list. A reader made of two readers makes the checks of
the first and then those of the second (`Checks.bind`), so each reader has one short list, and the
lists of all readers in a row are those of the file.
-/

namespace PeListing

/-- A condition on the headers of a file, and the defect of a file that fails it. -/
structure HeaderCheck where
  /-- Whether the file passes. -/
  holds : Bool
  /-- What is wrong with it otherwise. -/
  defect : Defect

/-- The defect of the first check that fails. -/
def firstDefect? (checks : List HeaderCheck) : Option Defect :=
  (checks.find? fun c => !c.holds).map HeaderCheck.defect

/-- The first check decides, unless it holds. -/
theorem firstDefect?_cons (c : HeaderCheck) (checks : List HeaderCheck) :
    firstDefect? (c :: checks) = if c.holds then firstDefect? checks else some c.defect := by
  cases h : c.holds <;> simp [firstDefect?, h]

/-- The checks of the second list count once those of the first hold. -/
theorem firstDefect?_append (first second : List HeaderCheck) :
    firstDefect? (first ++ second) = (firstDefect? first).or (firstDefect? second) := by
  simp only [firstDefect?, List.find?_append]
  cases first.find? (fun c => !c.holds) <;> rfl

/-- There is no defect just when all checks hold. -/
theorem firstDefect?_eq_none_iff {checks : List HeaderCheck} :
    firstDefect? checks = none ↔ ∀ c ∈ checks, c.holds = true := by
  simp [firstDefect?]

/-- A computation that makes some checks in order: it ends with the defect of the first one that
fails, and in a value with some property if there is none. -/
def Checks {α : Type} (x : Except (Fault Defect) α) (checks : List HeaderCheck)
    (good : α → Prop) : Prop :=
  match firstDefect? checks with
  | some cause => x = .error (.defect cause)
  | none => ∃ a, x = .ok a ∧ good a

namespace Checks

variable {α β : Type} {x : Except (Fault Defect) α} {checks more : List HeaderCheck}
  {good : α → Prop}

/-- Without checks there is a value. -/
theorem pure {a : α} (h : good a) : Checks (Pure.pure a) [] good := ⟨a, rfl, h⟩

/-- A computation fails just for the first check that does not hold. -/
theorem eq_error_iff (h : Checks x checks good) {fault : Fault Defect} :
    x = .error fault ↔ ∃ cause, fault = .defect cause ∧ firstDefect? checks = some cause := by
  unfold Checks at h
  cases hfirst : firstDefect? checks with
  | some cause =>
    rw [hfirst] at h
    rw [h]
    simp [eq_comm]
  | none =>
    rw [hfirst] at h
    obtain ⟨a, rfl, -⟩ := h
    simp

/-- A computation ends in a value just when all checks hold. -/
theorem exists_ok_iff (h : Checks x checks good) :
    (∃ a, x = .ok a) ↔ firstDefect? checks = none := by
  unfold Checks at h
  cases hfirst : firstDefect? checks with
  | some cause =>
    rw [hfirst] at h
    rw [h]
    simp
  | none =>
    rw [hfirst] at h
    obtain ⟨a, ha, -⟩ := h
    simp [ha]

/-- A value has the property that goes with the checks. -/
theorem of_ok (h : Checks x checks good) {a : α} (hx : x = .ok a) : good a := by
  have hfirst : firstDefect? checks = none := h.exists_ok_iff.mp ⟨a, hx⟩
  unfold Checks at h
  rw [hfirst] at h
  obtain ⟨a', ha', hgood⟩ := h
  rw [hx] at ha'
  cases ha'
  exact hgood

/-- A computation in sequence: the second part may rely on the checks of the first. -/
theorem bind {f : α → Except (Fault Defect) β} {good' : β → Prop} (hx : Checks x checks good)
    (hf : ∀ a, firstDefect? checks = none → good a → Checks (f a) more good') :
    Checks (x >>= f) (checks ++ more) good' := by
  unfold Checks at hx ⊢
  rw [firstDefect?_append]
  cases hfirst : firstDefect? checks with
  | some cause =>
    rw [hfirst] at hx
    rw [hx]
    rfl
  | none =>
    rw [hfirst] at hx
    obtain ⟨a, rfl, ha⟩ := hx
    exact hf a hfirst ha

/-- A computation whose second part checks nothing more. -/
theorem last {f : α → Except (Fault Defect) β} {good' : β → Prop} (hx : Checks x checks good)
    (hf : ∀ a, firstDefect? checks = none → good a → Checks (f a) [] good') :
    Checks (x >>= f) checks good' := by
  rw [← List.append_nil checks]
  exact hx.bind hf

/-- One check in front of a computation that relies on it. -/
theorem guard {c : HeaderCheck} (hpass : c.holds = true → Checks x more good)
    (hfail : c.holds = false → x = .error (.defect c.defect)) : Checks x (c :: more) good := by
  unfold Checks
  rw [firstDefect?_cons]
  cases h : c.holds with
  | true => exact hpass h
  | false => exact hfail h

end Checks

/-! ### The numbers of the headers -/

namespace Buffer

variable (b : Buffer)

/-- The offset of the headers behind the first one. -/
def ntOffset : Nat := b.number 0x3C 4

/-- The field that names the machine. -/
def machineField : Nat := b.number (b.ntOffset + 4) 2

/-- The number of records in the section table. -/
def sectionCount : Nat := b.number (b.ntOffset + 6) 2

/-- The declared size of the optional header. -/
def optionalSize : Nat := b.number (b.ntOffset + 20) 2

/-- The field that names the layout. -/
def magicField : Nat := b.number (b.ntOffset + 24) 2

/-- The size of the optional header up to its data directories, in either of the two layouts. -/
def fixedSize : Nat := if b.magicField = 0x10B then 96 else 112

/-- The offset of the section table. -/
def tableOffset : Nat := b.ntOffset + 24 + b.optionalSize

/-- The offset of the headers fits into 32 bits. -/
theorem ntOffset_lt : b.ntOffset < 0x100000000 := b.number_four_lt 0x3C

/-- The offset of the section table stays below `2 ^ 33`. -/
theorem tableOffset_lt : b.tableOffset < 0x200000000 := by
  have hoffset := b.ntOffset_lt
  have hsize : b.optionalSize < 0x10000 := b.number_two_lt (b.ntOffset + 20)
  unfold tableOffset
  omega

/-- The checks of the header at the start of the file. -/
def dosChecks : List HeaderCheck := [
  ⟨b.HasAt 0 [0x4D, 0x5A], .invalidDosSignature⟩,
  ⟨64 ≤ b.size, .truncatedHeader 64 b.size⟩]

/-- The check of the signature that the first header points to. -/
def signatureCheck : HeaderCheck :=
  ⟨b.HasAt b.ntOffset [0x50, 0x45, 0, 0], .invalidNtSignature⟩

/-- The checks of the file header. -/
def fileChecks : List HeaderCheck := [
  ⟨b.ntOffset + 24 ≤ b.size, .truncatedHeader (b.ntOffset + 24) b.size⟩,
  ⟨b.machineField ∈ [0x14C, 0x8664, 0x200],
    .unsupportedArchitecture .machine (UInt16.ofNat b.machineField)⟩]

/-- The checks of the optional header. -/
def optionalChecks : List HeaderCheck := [
  ⟨b.ntOffset + 26 ≤ b.size, .truncatedHeader (b.ntOffset + 26) b.size⟩,
  ⟨b.magicField ∈ [0x10B, 0x20B], .unsupportedArchitecture .magic (UInt16.ofNat b.magicField)⟩,
  ⟨b.fixedSize ≤ b.optionalSize, .truncatedHeader b.fixedSize b.optionalSize⟩,
  ⟨b.ntOffset + 24 + b.fixedSize ≤ b.size,
    .truncatedHeader (b.ntOffset + 24 + b.fixedSize) b.size⟩]

/-- The checks of all headers, in order. -/
def headerChecks : List HeaderCheck :=
  b.dosChecks ++ b.signatureCheck :: (b.fileChecks ++ b.optionalChecks)

/-- The check of one record of the section table: it ends inside the file. -/
def recordCheck (index : Nat) : HeaderCheck where
  holds := b.tableOffset + 40 * (index + 1) ≤ b.size
  defect := .truncatedHeader (b.tableOffset + 40 * (index + 1)) b.size

/-- The checks of the section table, one for each record. -/
def recordChecks : List HeaderCheck := (List.range b.sectionCount).map b.recordCheck

end Buffer

/-! ### What each reader checks -/

namespace Checks

variable {α β : Type} {x : Except (Fault Defect) α} {checks : List HeaderCheck} {good : α → Prop}

/-- A step that cannot fail makes no check. -/
theorem step {f : α → Except (Fault Defect) β} {good' : β → Prop}
    (hx : Yields x good fun _ => False) (hf : ∀ a, good a → Checks (f a) checks good') :
    Checks (x >>= f) checks good' := by
  obtain ⟨a, rfl, ha⟩ := hx.exists_ok
  exact hf a ha

/-- A computation in sequence that can only end in a value or a defect. -/
theorem lift_bind {y : Except Defect α} {f : α → Except Defect β} {good' : β → Prop}
    {more : List HeaderCheck} (hy : Checks (liftM y) checks good)
    (hf : ∀ a, firstDefect? checks = none → good a → Checks (liftM (f a)) more good') :
    Checks (liftM (y >>= f)) (checks ++ more) good' := by
  have hlift : (liftM (y >>= f) : Except (Fault Defect) β) = liftM y >>= fun a => liftM (f a) := by
    cases y <;> rfl
  rw [hlift]
  exact hy.bind hf

end Checks

/-- The first header has the checks of its signature and its size. -/
theorem DosHeader.read_checks (b : Buffer) :
    Checks (liftM (DosHeader.read b)) b.dosChecks fun dos => dos.ntOffset.toNat = b.ntOffset := by
  have hsignature : b.u16? 0 = some DosHeader.signature ↔ b.HasAt 0 [0x4D, 0x5A] :=
    b.u16?_eq_some_iff
  apply Checks.guard
  · intro h
    have hmagic : b.u16? 0 = some DosHeader.signature := hsignature.mpr (of_decide_eq_true h)
    apply Checks.guard
    · intro hsize
      have hword : b.u32? 0x3C = some (UInt32.ofNat (b.number 0x3C 4)) := by
        rw [b.u32?_eq, if_pos (of_decide_eq_true hsize)]
      refine ⟨⟨DosHeader.signature, UInt32.ofNat (b.number 0x3C 4)⟩, ?_, b.toNat_number_four 0x3C⟩
      simp only [DosHeader.read, hmagic, hword]
      rfl
    · intro hsize
      have hword : b.u32? 0x3C = none := by
        rw [b.u32?_eq, if_neg (of_decide_eq_false hsize)]
      simp only [DosHeader.read, hmagic, hword]
      rfl
  · intro h
    have hmagic : b.u16? 0 ≠ some DosHeader.signature := mt hsignature.mp (of_decide_eq_false h)
    unfold DosHeader.read
    cases hword : b.u16? 0 with
    | none => rfl
    | some magic =>
      rw [hword] at hmagic
      have hne : magic ≠ DosHeader.signature := fun heq => hmagic (congrArg some heq)
      simp only [if_pos hne]
      rfl

/-- A machine is known by one of three codes. -/
theorem Machine.ofCode_checks (code : UInt16) :
    Checks (liftM (Machine.ofCode code))
      [⟨code.toNat ∈ [0x14C, 0x8664, 0x200], .unsupportedArchitecture .machine code⟩]
      fun _ => True := by
  apply Checks.guard
  · intro h
    have hknown : code = 0x14C ∨ code = 0x8664 ∨ code = 0x200 := by
      simpa [← UInt16.toNat_inj] using h
    rcases hknown with rfl | rfl | rfl
    · exact .pure (a := Machine.i386) trivial
    · exact .pure (a := Machine.amd64) trivial
    · exact .pure (a := Machine.ia64) trivial
  · intro h
    have hunknown : code ≠ 0x14C ∧ code ≠ 0x8664 ∧ code ≠ 0x200 := by
      simpa [← UInt16.toNat_inj] using h
    obtain ⟨hi386, hamd64, hia64⟩ := hunknown
    rw [Machine.ofCode, if_neg hi386, if_neg hamd64, if_neg hia64]
    rfl

/-- A layout is known by one of two marks. -/
theorem Kind.ofMagic_checks (magic : UInt16) :
    Checks (liftM (Kind.ofMagic magic))
      [⟨magic.toNat ∈ [0x10B, 0x20B], .unsupportedArchitecture .magic magic⟩]
      fun kind => kind.magic = magic := by
  apply Checks.guard
  · intro h
    have hknown : magic = 0x10B ∨ magic = 0x20B := by simpa [← UInt16.toNat_inj] using h
    rcases hknown with rfl | rfl
    · exact .pure (a := Kind.pe32) rfl
    · exact .pure (a := Kind.pe32Plus) rfl
  · intro h
    have hunknown : magic ≠ 0x10B ∧ magic ≠ 0x20B := by simpa [← UInt16.toNat_inj] using h
    rw [Kind.ofMagic, if_neg hunknown.1, if_neg hunknown.2]
    rfl

/-- A 16-bit field of a record is a number of the buffer that the record was cut from. -/
theorem checkedField16_slice {ε : Type} (b : Buffer) {offset size position : Nat}
    (h : offset + size ≤ b.size) (hposition : position + 2 ≤ size) :
    (LittleEndian.checkedField16 ((b.toList.drop offset).take size) position :
      Except (Fault ε) UInt16) = .ok (UInt16.ofNat (b.number (offset + position) 2)) := by
  have hlength : ((b.toList.drop offset).take size).length = size := by
    rw [List.length_take, List.length_drop, b.length_toList]
    omega
  rw [LittleEndian.checkedField16_of_le (by omega), LittleEndian.field16, b.field_slice hposition]

/-- The file header, whose fields are the numbers behind the signature. -/
theorem FileHeader.read_checks (b : Buffer) :
    Checks (FileHeader.read b (b.ntOffset + 4)) b.fileChecks fun file =>
      file.sectionCount.toNat = b.sectionCount ∧ file.optionalSize.toNat = b.optionalSize := by
  have hsize : FileHeader.size = 20 := rfl
  have hlimit : Word.limit = 0x10000000000000000 := rfl
  have hoffset := b.ntOffset_lt
  unfold FileHeader.read
  apply Checks.guard
  · intro h
    have hle : b.ntOffset + 4 + FileHeader.size ≤ b.size := of_decide_eq_true h
    rw [b.slice?_eq, if_pos hle]
    dsimp only
    rw [checkedField16_slice b hle (by omega), checkedField16_slice b hle (by omega),
      checkedField16_slice b hle (by omega)]
    have hmachine := Machine.ofCode_checks (UInt16.ofNat b.machineField)
    rw [Buffer.machineField, b.toNat_number_two] at hmachine
    refine hmachine.last fun machine _ _ => ?_
    exact .pure ⟨b.toNat_number_two _, b.toNat_number_two _⟩
  · intro h
    have hnot : ¬ b.ntOffset + 4 + FileHeader.size ≤ b.size := of_decide_eq_false h
    rw [b.slice?_eq, if_neg hnot, Word.satAdd_of_lt (by omega)]
    rfl

/-- The fixed part of the optional header has the size that its magic number tells. -/
theorem Kind.fixedSize_eq {b : Buffer} {kind : Kind} (h : kind.magic.toNat = b.magicField) :
    kind.fixedSize = b.fixedSize := by
  rw [Buffer.fixedSize, ← h]
  cases kind <;> rfl

/-- The optional header has the checks of its mark and its sizes. -/
theorem OptionalHeader.read_checks (b : Buffer) {declared : UInt16}
    (hdeclared : declared.toNat = b.optionalSize) :
    Checks (liftM (OptionalHeader.read b (b.ntOffset + 24) declared)) b.optionalChecks
      fun optional => optional.kind.magic.toNat = b.magicField := by
  have hlimit : Word.limit = 0x10000000000000000 := rfl
  have hoffset := b.ntOffset_lt
  unfold OptionalHeader.read
  apply Checks.guard
  · intro h
    have hle : b.ntOffset + 24 + 2 ≤ b.size := of_decide_eq_true h
    rw [b.u16?_eq, if_pos hle]
    have hmagic := Kind.ofMagic_checks (UInt16.ofNat b.magicField)
    rw [Buffer.magicField, b.toNat_number_two] at hmagic
    refine hmagic.lift_bind fun kind _ hkind => ?_
    have hfield : kind.magic.toNat = b.magicField := by
      rw [hkind]
      exact b.toNat_number_two _
    rw [Kind.fixedSize_eq hfield, hdeclared]
    apply Checks.guard
    · intro hfixed
      rw [if_neg (Nat.not_lt.mpr (of_decide_eq_true hfixed))]
      apply Checks.guard
      · intro hfits
        rw [b.slice?_eq, if_pos (of_decide_eq_true hfits)]
        exact .pure hfield
      · intro hfits
        have hsize : b.fixedSize ≤ 112 := by
          unfold Buffer.fixedSize
          split <;> decide
        rw [b.slice?_eq, if_neg (of_decide_eq_false hfits), Word.satAdd_of_lt (by omega)]
        rfl
    · intro hfixed
      rw [if_pos (Nat.not_le.mp (of_decide_eq_false hfixed))]
      rfl
  · intro h
    have hnot : ¬ b.ntOffset + 24 + 2 ≤ b.size := of_decide_eq_false h
    rw [b.u16?_eq, if_neg hnot, Word.satAdd_of_lt (by omega)]
    rfl

/-- The headers have the checks of the signature, then those of their two parts. -/
theorem NtHeaders.read_checks (b : Buffer) :
    Checks (NtHeaders.read b b.ntOffset)
      (b.signatureCheck :: (b.fileChecks ++ b.optionalChecks)) fun nt =>
        nt.file.sectionCount.toNat = b.sectionCount ∧
        nt.file.optionalSize.toNat = b.optionalSize ∧
        nt.optional.kind.magic.toNat = b.magicField := by
  have hlimit : Word.limit = 0x10000000000000000 := rfl
  have hsize : FileHeader.size = 20 := rfl
  have hoffset := b.ntOffset_lt
  have hsignature : b.u32? b.ntOffset = some NtHeaders.signature ↔
      b.HasAt b.ntOffset [0x50, 0x45, 0, 0] := b.u32?_eq_some_iff
  unfold NtHeaders.read
  dsimp only
  apply Checks.guard
  · intro h
    rw [if_neg (not_not_intro (hsignature.mpr (of_decide_eq_true h)))]
    refine .step (Yields.add (by omega)) ?_
    rintro _ rfl
    refine (FileHeader.read_checks b).bind ?_
    rintro file - ⟨hsections, hdeclared⟩
    refine .step (Yields.add (by omega)) ?_
    rintro _ rfl
    refine (OptionalHeader.read_checks b hdeclared).last ?_
    intro optional _ hmagic
    refine .step (DataDirectory.readAll_yields b (by omega) _ _ _) fun directories _ => ?_
    exact .pure ⟨hsections, hdeclared, hmagic⟩
  · intro h
    rw [if_pos (mt hsignature.mp (of_decide_eq_false h))]
    rfl

/-! ### The section table -/

/-- The run: the section records from some index on. -/
theorem Section.readFrom_checks (b : Buffer) {count index : Nat}
    (h : index + count ≤ b.sectionCount) :
    Checks (Section.readFrom b b.tableOffset count index)
      ((List.range' index count).map b.recordCheck) fun _ => True := by
  have hlimit : Word.limit = 0x10000000000000000 := rfl
  have hsize : Section.recordSize = 40 := rfl
  have htable := b.tableOffset_lt
  have hsections : b.sectionCount < 0x10000 := b.number_two_lt (b.ntOffset + 6)
  induction count generalizing index with
  | zero => exact .pure trivial
  | succ count ih =>
    have hproduct : index * Section.recordSize = index * 40 := rfl
    unfold Section.readFrom
    refine .step (Yields.mul (by omega)) ?_
    rintro _ rfl
    refine .step (Yields.add (by omega)) ?_
    rintro _ rfl
    refine .step (Yields.add (by omega)) ?_
    rintro _ rfl
    have hstop : b.tableOffset + index * Section.recordSize + Section.recordSize =
        b.tableOffset + 40 * (index + 1) := by omega
    rw [b.slice?_eq, hstop, List.range'_succ, List.map_cons]
    apply Checks.guard
    · intro hfits
      have hle : b.tableOffset + 40 * (index + 1) ≤ b.size := of_decide_eq_true hfits
      have hlength : ((b.toList.drop (b.tableOffset + index * Section.recordSize)).take
          Section.recordSize).length = Section.recordSize := by
        rw [List.length_take, List.length_drop, b.length_toList]
        omega
      rw [if_pos hle]
      refine .step (Section.ofRecord_yields hlength) fun s _ => ?_
      have hnext : index + 1 + count ≤ b.sectionCount := by omega
      exact (ih hnext).last fun sections _ _ => .pure trivial
    · intro hfits
      rw [if_neg (of_decide_eq_false hfits)]
      rfl

/-- The section table has a check for each record. -/
theorem Section.readAll_checks (b : Buffer) {count : UInt16} (h : count.toNat = b.sectionCount) :
    Checks (Section.readAll b b.tableOffset count) b.recordChecks fun _ => True := by
  have hchecks : b.recordChecks = (List.range' 0 count.toNat).map b.recordCheck := by
    rw [Buffer.recordChecks, List.range_eq_range', h]
  rw [hchecks]
  exact Section.readFrom_checks b (by omega)

/-! ### Images -/

namespace Image

/-- An image is read by the checks of the headers and then those of the section table. -/
theorem read_checks (b : Buffer) :
    Checks (read b) (b.headerChecks ++ b.recordChecks) fun image =>
      image.kind.magic.toNat = b.magicField := by
  have hlimit : Word.limit = 0x10000000000000000 := rfl
  have hsize : FileHeader.size = 20 := rfl
  have hoffset := b.ntOffset_lt
  have htable := b.tableOffset_lt
  rw [Buffer.headerChecks, List.append_assoc]
  unfold read
  refine (DosHeader.read_checks b).bind fun dos _ hdos => ?_
  dsimp only
  rw [hdos]
  refine (NtHeaders.read_checks b).bind ?_
  rintro nt - ⟨hsections, hdeclared, hmagic⟩
  rw [hdeclared]
  have hstart : b.ntOffset + (4 + FileHeader.size + b.optionalSize) = b.tableOffset := by
    rw [Buffer.tableOffset]
    omega
  refine .step (Yields.add (by omega)) ?_
  rintro _ rfl
  have hfits : Word.add? b.ntOffset (4 + FileHeader.size + b.optionalSize) = some b.tableOffset :=
    Word.add?_eq_some_iff.mpr ⟨by omega, hstart⟩
  rw [hfits, ← List.append_nil b.recordChecks]
  exact (Section.readAll_checks b hsections).bind fun sections _ _ => .pure hmagic

/-- The kind of an image is known once all headers hold. -/
theorem readKind_checks (b : Buffer) :
    Checks (readKind b) b.headerChecks fun kind => kind.magic.toNat = b.magicField := by
  unfold readKind
  refine (DosHeader.read_checks b).bind fun dos _ hdos => ?_
  rw [hdos, ← List.append_nil (b.signatureCheck :: (b.fileChecks ++ b.optionalChecks))]
  refine (NtHeaders.read_checks b).bind ?_
  rintro nt - ⟨-, -, hmagic⟩
  exact .pure hmagic

end Image

/-- A file whose headers and section table are whole: both signatures stand in their places, machine
and layout are known ones, the fixed part of the optional header fits into its declared size and into
the file, and the section table, if it has records, ends inside the file. -/
structure Buffer.WellFormed (b : Buffer) : Prop where
  /-- The header at the start of the file fits in. -/
  size_le : 64 ≤ b.size
  /-- The file starts with `MZ`. -/
  dosSignature : b.HasAt 0 [0x4D, 0x5A]
  /-- The first header points to `PE` and two zero bytes. -/
  ntSignature : b.HasAt b.ntOffset [0x50, 0x45, 0, 0]
  /-- The fixed part of the optional header fits in. -/
  optionalHeader_le : b.ntOffset + 24 + b.fixedSize ≤ b.size
  /-- The machine is one of three. -/
  machine : b.machineField = 0x14C ∨ b.machineField = 0x8664 ∨ b.machineField = 0x200
  /-- The layout is one of two. -/
  magic : b.magicField = 0x10B ∨ b.magicField = 0x20B
  /-- The declared size of the optional header holds its fixed part. -/
  fixedSize_le : b.fixedSize ≤ b.optionalSize
  /-- The section table fits in. -/
  sectionTable : b.sectionCount = 0 ∨ b.tableOffset + 40 * b.sectionCount ≤ b.size

namespace Buffer

variable (b : Buffer)

/-- All records fit in if and only if the last one does. -/
theorem firstDefect?_recordChecks_eq_none_iff :
    firstDefect? b.recordChecks = none ↔
      b.sectionCount = 0 ∨ b.tableOffset + 40 * b.sectionCount ≤ b.size := by
  rw [firstDefect?_eq_none_iff, recordChecks, List.forall_mem_map]
  simp only [List.mem_range, recordCheck, decide_eq_true_eq]
  constructor
  · intro h
    rcases Nat.eq_zero_or_pos b.sectionCount with hzero | hpos
    · exact .inl hzero
    · have hlast := h (b.sectionCount - 1) (by omega)
      exact .inr (by omega)
  · intro h index hindex
    omega

/-- A file passes all checks if and only if it is well formed. -/
theorem firstDefect?_eq_none_iff_wellFormed :
    firstDefect? (b.headerChecks ++ b.recordChecks) = none ↔ b.WellFormed := by
  rw [firstDefect?_append, Option.or_eq_none_iff, b.firstDefect?_recordChecks_eq_none_iff,
    firstDefect?_eq_none_iff]
  simp only [headerChecks, dosChecks, signatureCheck, fileChecks, optionalChecks,
    List.cons_append, List.nil_append, List.forall_mem_cons, decide_eq_true_eq]
  simp only [List.mem_cons, List.not_mem_nil, or_false, false_implies, implies_true, and_true]
  constructor
  · rintro ⟨⟨hdos, hsize, hnt, -, hmachine, -, hmagic, hfixed, hoptional⟩, htable⟩
    exact ⟨hsize, hdos, hnt, hoptional, hmachine, hmagic, hfixed, htable⟩
  · rintro ⟨hsize, hdos, hnt, hoptional, hmachine, hmagic, hfixed, htable⟩
    -- The two lengths in between follow from that of the optional header.
    have hpos : 2 ≤ b.fixedSize := by
      unfold fixedSize
      split <;> decide
    exact ⟨⟨hdos, hsize, hnt, by omega, hmachine, by omega, hmagic, hfixed, hoptional⟩, htable⟩

end Buffer

/-- Two layouts do not share a mark. -/
theorem Kind.magic_injective {k l : Kind} (h : k.magic = l.magic) : k = l := by
  have hread : ofMagic k.magic = ofMagic l.magic := congrArg ofMagic h
  simpa using hread

/-- **Which files are images.** A file is read exactly if it is well formed. Any other file is
refused with the defect of the first check that it fails, where the checks of the headers come before
those of the records of the section table. Its kind alone is refused for the same defect, unless it
is only the section table that is cut off; then, as for an image, it is the kind that the magic number
names. -/
theorem Image.read_ok_iff_wellFormed (b : Buffer) :
    ((∃ image, Image.read b = .ok image) ↔ b.WellFormed) ∧
    (∀ fault, Image.read b = .error fault ↔ ∃ cause, fault = .defect cause ∧
      firstDefect? (b.headerChecks ++ b.recordChecks) = some cause) ∧
    (∀ fault, Image.read b = .error fault →
      if firstDefect? b.headerChecks = none then
        ∃ kind, Image.readKind b = .ok kind ∧ kind.magic.toNat = b.magicField
      else Image.readKind b = .error fault) ∧
    ∀ image, Image.read b = .ok image → Image.readKind b = .ok image.kind := by
  have hread := Image.read_checks b
  have hkind := Image.readKind_checks b
  refine ⟨?_, fun fault => hread.eq_error_iff, ?_, ?_⟩
  · rw [hread.exists_ok_iff, b.firstDefect?_eq_none_iff_wellFormed]
  · intro fault hfault
    split
    · next hnone =>
      obtain ⟨kind, hok⟩ := hkind.exists_ok_iff.mpr hnone
      exact ⟨kind, hok, hkind.of_ok hok⟩
    · next hsome =>
      obtain ⟨cause, rfl, hcause⟩ := hread.eq_error_iff.mp hfault
      rw [firstDefect?_append] at hcause
      cases hfirst : firstDefect? b.headerChecks with
      | none => exact absurd hfirst hsome
      | some first =>
        rw [hfirst] at hcause
        exact hkind.eq_error_iff.mpr ⟨cause, rfl, hfirst.trans hcause⟩
  · intro image himage
    have hpassed := hread.exists_ok_iff.mp ⟨image, himage⟩
    rw [firstDefect?_append, Option.or_eq_none_iff] at hpassed
    obtain ⟨kind, hok⟩ := hkind.exists_ok_iff.mpr hpassed.1
    have hmagic : kind.magic = image.kind.magic :=
      UInt16.toNat_inj.mp ((hkind.of_ok hok).trans (hread.of_ok himage).symm)
    rw [hok, Kind.magic_injective hmagic]

end PeListing
