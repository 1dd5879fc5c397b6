import Mathlib.Data.Nat.Digits.Defs
import PeListing.Proofs.ExactReads

/-!
# No read wraps around

Offsets, sizes and the product of an index and a width are words, and so must be their sums. A sum
that wraps around could come to lie inside the buffer again and be read as if it had been asked for.
This file places each reader in the unbounded numbers instead: `b.Reads place size ..` says that
something is read exactly where the `size` bytes from `place` on end inside the buffer, that it is
what these bytes say, and how the reader fails elsewhere. Whatever left the range of words on the
way lies outside, because every buffer ends far below it.
-/

namespace PeListing

/-- Bytes are the digits of their number to base 256, the lowest first. -/
theorem LittleEndian.decode_eq_ofDigits (bs : List UInt8) :
    decode bs = Nat.ofDigits 256 (bs.map UInt8.toNat) := by
  induction bs with
  | nil => rfl
  | cons b bs ih => rw [decode_cons, ih, List.map_cons, Nat.ofDigits_cons]

namespace Buffer

variable (b : Buffer)

/-- The number whose digits to base 256, the lowest first, are the `width` bytes at a place. -/
def valueAt (place width : Nat) : Nat :=
  Nat.ofDigits 256 (((b.toList.drop place).take width).map UInt8.toNat)

/-- The number at a place is the sum of its bytes by their weights. -/
theorem number_eq_valueAt (place width : Nat) : b.number place width = b.valueAt place width :=
  LittleEndian.decode_eq_ofDigits _

/-- A word of two bytes has the value at its place. -/
theorem toNat_word16 (place : Nat) :
    (UInt16.ofNat (b.number place 2)).toNat = b.valueAt place 2 :=
  (b.toNat_number_two place).trans (b.number_eq_valueAt place 2)

/-- A word of four bytes has the value at its place. -/
theorem toNat_word32 (place : Nat) :
    (UInt32.ofNat (b.number place 4)).toNat = b.valueAt place 4 :=
  (b.toNat_number_four place).trans (b.number_eq_valueAt place 4)

/-- A word of eight bytes has the value at its place. -/
theorem toNat_word64 (place : Nat) :
    (UInt64.ofNat (b.number place 8)).toNat = b.valueAt place 8 :=
  (UInt64.toNat_ofNat_of_lt' (b.number_eight_lt place)).trans (b.number_eq_valueAt place 8)

/-- A result of reading `size` bytes at a place, both unbounded numbers. If the bytes end inside
the buffer, something good is given, and if not, the read fails. -/
structure Reads {α ρ : Type} (place size : Nat) (give : α → ρ) (fail : ρ) (good : α → Prop)
    (result : ρ) : Prop where
  exists_give : place + size ≤ b.size → ∃ a, result = give a ∧ good a
  eq_fail : b.size < place + size → result = fail

variable {b}

/-- A reading that asks once whether the buffer reaches far enough. -/
theorem Reads.of_ite {α ρ : Type} {place size : Nat} {give : α → ρ} {fail result : ρ}
    {good : α → Prop} {a : α}
    (h : result = if place + size ≤ b.size then give a else fail) (ha : good a) :
    b.Reads place size give fail good result where
  exists_give hin := ⟨a, h.trans (if_pos hin), ha⟩
  eq_fail hout := h.trans (if_neg (Nat.not_le.mpr hout))

variable (b)

/-! ### Words -/

/-- A slice is read at its place. -/
theorem slice?_reads (offset size : Nat) :
    b.Reads offset size some none (· = (b.toList.drop offset).take size) (b.slice? offset size) :=
  .of_ite (b.slice?_eq offset size) rfl

/-- A word of two bytes is read at its place. -/
theorem u16?_reads (offset : Nat) :
    b.Reads offset 2 some none (fun v => v.toNat = b.valueAt offset 2) (b.u16? offset) :=
  .of_ite (b.u16?_eq offset) (b.toNat_word16 offset)

/-- A word of four bytes is read at its place. -/
theorem u32?_reads (offset : Nat) :
    b.Reads offset 4 some none (fun v => v.toNat = b.valueAt offset 4) (b.u32? offset) :=
  .of_ite (b.u32?_eq offset) (b.toNat_word32 offset)

/-- A word of eight bytes is read at its place. -/
theorem u64?_reads (offset : Nat) :
    b.Reads offset 8 some none (fun v => v.toNat = b.valueAt offset 8) (b.u64? offset) :=
  .of_ite (b.u64?_eq offset) (b.toNat_word64 offset)

/-! ### Tables -/

/-- The offset that a failed read of an element reports: its own, or that of the table where its
own is no word. -/
def reportedOffset (table index width : Nat) : Nat :=
  if table + index * width < Word.limit then table + index * width else table

/-- A table is read like its elements, each at its place in the unbounded numbers. -/
theorem element_reads {α : Type} {read : Nat → Option α} {good : Nat → α → Prop} {width : Nat}
    (hread : ∀ place, b.Reads place width some none (good place) (read place))
    (table index : Nat) :
    b.Reads (table + index * width) width .ok
      (.error (.outOfBounds (reportedOffset table index width) b.size))
      (good (table + index * width))
      ((b.elementOffset table index width).bind fun offset =>
        (read offset).elim (.error (.outOfBounds offset b.size)) .ok) := by
  have hplace := hread (table + index * width)
  rcases Nat.lt_or_ge (table + index * width) Word.limit with hlt | hge
  · have hoffset := b.elementOffset_eq_ok_iff.mpr ⟨hlt, rfl⟩
    rw [hoffset, reportedOffset, if_pos hlt]
    constructor
    · intro hin
      obtain ⟨a, hsome, ha⟩ := hplace.exists_give hin
      refine ⟨a, ?_, ha⟩
      rw [Except.bind, hsome]
      rfl
    · intro hout
      rw [Except.bind, hplace.eq_fail hout]
      rfl
  · rw [b.elementOffset_of_limit_le hge, reportedOffset, if_neg (Nat.not_lt.mpr hge)]
    constructor
    · intro hin
      -- The buffer ends below `2 ^ 63`, and the element starts at `2 ^ 64` or later.
      have hsize : b.size < 0x8000000000000000 := b.size_lt
      simp only [Word.limit] at hge
      omega
    · intro _
      rfl

/-- An element of a table of two bytes is read at its place. -/
theorem tableU16_reads (table index : Nat) :
    b.Reads (table + index * 2) 2 .ok
      (.error (.outOfBounds (reportedOffset table index 2) b.size))
      (fun v => v.toNat = b.valueAt (table + index * 2) 2) (b.tableU16 table index) := by
  rw [tableU16_eq_bind]
  exact b.element_reads b.u16?_reads table index

/-- An element of a table of four bytes is read at its place. -/
theorem tableU32_reads (table index : Nat) :
    b.Reads (table + index * 4) 4 .ok
      (.error (.outOfBounds (reportedOffset table index 4) b.size))
      (fun v => v.toNat = b.valueAt (table + index * 4) 4) (b.tableU32 table index) := by
  rw [tableU32_eq_bind]
  exact b.element_reads b.u32?_reads table index

end Buffer

/-! ### Records -/

/-- The fields of an import descriptor are the words at their positions behind a place. -/
structure ImportDescriptor.StandsAt (b : Buffer) (place : Nat) (d : ImportDescriptor) : Prop where
  lookupRva : d.lookupRva.toNat = b.valueAt place 4
  nameRva : d.nameRva.toNat = b.valueAt (place + 12) 4
  firstThunk : d.firstThunk.toNat = b.valueAt (place + 16) 4

/-- The fields of the head of the exports are seven words in a row. -/
structure ExportDirectory.StandsAt (b : Buffer) (place : Nat) (d : ExportDirectory) : Prop where
  nameRva : d.nameRva.toNat = b.valueAt (place + 12) 4
  ordinalBase : d.ordinalBase.toNat = b.valueAt (place + 16) 4
  functionCount : d.functionCount.toNat = b.valueAt (place + 20) 4
  nameCount : d.nameCount.toNat = b.valueAt (place + 24) 4
  functionsRva : d.functionsRva.toNat = b.valueAt (place + 28) 4
  namesRva : d.namesRva.toNat = b.valueAt (place + 32) 4
  ordinalsRva : d.ordinalsRva.toNat = b.valueAt (place + 36) 4

section Records

variable (b : Buffer)

/-- A descriptor of imports is read at its place. -/
theorem ImportDescriptor.read_reads (offset : Nat) :
    b.Reads offset 20 .ok (.error (.outOfBounds offset b.size))
      (ImportDescriptor.StandsAt b offset) (ImportDescriptor.read b offset) :=
  .of_ite (ImportDescriptor.read_eq b offset)
    ⟨b.toNat_word32 _, b.toNat_word32 _, b.toNat_word32 _⟩

/-- The record of the exports is read at its place. -/
theorem ExportDirectory.read_reads (offset : Nat) :
    b.Reads offset 40 .ok (.error (.outOfBounds offset b.size))
      (ExportDirectory.StandsAt b offset) (ExportDirectory.read b offset) :=
  .of_ite (ExportDirectory.read_eq b offset)
    ⟨b.toNat_word32 _, b.toNat_word32 _, b.toNat_word32 _, b.toNat_word32 _, b.toNat_word32 _,
      b.toNat_word32 _, b.toNat_word32 _⟩

/-- A thunk is read at its place, in the width of the image. -/
theorem Thunk.read_reads (offset : Nat) (kind : Kind) :
    b.Reads offset kind.thunkSize .ok (.error (.outOfBounds offset b.size))
      (fun thunk => ∃ v : UInt64, v.toNat = b.valueAt offset kind.thunkSize ∧
        thunk = Thunk.ofValue kind v) (Thunk.read b offset kind) := by
  refine .of_ite (Thunk.read_eq b offset kind) ⟨_, ?_, rfl⟩
  cases kind with
  | pe32 =>
    rw [Kind.thunkSize, ← b.toUInt64_number_four, UInt32.toNat_toUInt64]
    exact b.toNat_word32 offset
  | pe32Plus => exact b.toNat_word64 offset

end Records

/-- **No read wraps around.** For every buffer and all offsets, sizes and indices, words and slices
are read exactly where they end inside the buffer, as unbounded numbers, and are then the
little-endian number (the bytes) at that place. The same holds for elements of tables at the place
that the table's offset and the index make up without bounds, for thunks of either kind and for both
records, and where these do not end inside the buffer they are reported out of bounds. -/
theorem Buffer.reads_exact (b : Buffer) :
    (∀ offset, b.Reads offset 2 some none (fun v => v.toNat = b.valueAt offset 2)
      (b.u16? offset)) ∧
    (∀ offset, b.Reads offset 4 some none (fun v => v.toNat = b.valueAt offset 4)
      (b.u32? offset)) ∧
    (∀ offset, b.Reads offset 8 some none (fun v => v.toNat = b.valueAt offset 8)
      (b.u64? offset)) ∧
    (∀ offset size, b.Reads offset size some none
      (fun bytes => bytes = (b.toList.drop offset).take size) (b.slice? offset size)) ∧
    (∀ table index, b.Reads (table + index * 2) 2 .ok
      (.error (.outOfBounds (reportedOffset table index 2) b.size))
      (fun v => v.toNat = b.valueAt (table + index * 2) 2) (b.tableU16 table index)) ∧
    (∀ table index, b.Reads (table + index * 4) 4 .ok
      (.error (.outOfBounds (reportedOffset table index 4) b.size))
      (fun v => v.toNat = b.valueAt (table + index * 4) 4) (b.tableU32 table index)) ∧
    (∀ offset kind, b.Reads offset kind.thunkSize .ok (.error (.outOfBounds offset b.size))
      (fun thunk => ∃ v : UInt64, v.toNat = b.valueAt offset kind.thunkSize ∧
        thunk = Thunk.ofValue kind v) (Thunk.read b offset kind)) ∧
    (∀ offset, b.Reads offset 20 .ok (.error (.outOfBounds offset b.size))
      (ImportDescriptor.StandsAt b offset) (ImportDescriptor.read b offset)) ∧
    (∀ offset, b.Reads offset 40 .ok (.error (.outOfBounds offset b.size))
      (ExportDirectory.StandsAt b offset) (ExportDirectory.read b offset)) :=
  ⟨b.u16?_reads, b.u32?_reads, b.u64?_reads, b.slice?_reads, b.tableU16_reads, b.tableU32_reads,
    Thunk.read_reads b, ImportDescriptor.read_reads b, ExportDirectory.read_reads b⟩

/-- In a table of two words, four times the index `2 ^ 62` would wrap around to the first word. -/
theorem Buffer.reads_exact_wrapped :
    ∃ b : Buffer, b.toList = [1, 0, 2, 0, 3, 0, 0, 0] ∧
      (∃ v, b.tableU32 0 1 = .ok v ∧ v.toNat = 3) ∧
      b.tableU32 0 0x4000000000000000 = .error (.outOfBounds 0 8) := by
  let b : Buffer := ⟨⟨#[1, 0, 2, 0, 3, 0, 0, 0]⟩, by decide⟩
  obtain ⟨-, -, -, -, -, htable, -⟩ := Buffer.reads_exact b
  obtain ⟨v, hread, hvalue⟩ := (htable 0 1).exists_give (by decide)
  exact ⟨b, rfl, ⟨v, hread, hvalue.trans (by decide)⟩,
    (htable 0 0x4000000000000000).eq_fail (by decide)⟩

end PeListing
