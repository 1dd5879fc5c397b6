import Mathlib.Data.Nat.Bitwise
import PeListing.Image.ExportDirectory
import PeListing.Image.ImportDescriptor
import PeListing.Proofs.ImageRange

/-!
# What the readers read

A buffer stands for the numbers in its bytes: `b.number offset width` is the number in the `width`
bytes at `offset`, least significant byte first, as an unbounded number and without a look at the
end of the buffer. Each reader is stated in these terms: it gives a value exactly where all bytes
that it needs lie inside the buffer, and the value is the number that stands there.
-/

namespace PeListing

namespace LittleEndian

/-- Lists of one length that stand for one number are equal. -/
theorem eq_of_decode_eq {bs cs : List UInt8} (hlength : bs.length = cs.length)
    (h : decode bs = decode cs) : bs = cs := by
  induction bs generalizing cs with
  | nil => exact (List.length_eq_zero_iff.mp hlength.symm).symm
  | cons b bs ih =>
    cases cs with
    | nil => simp at hlength
    | cons c cs =>
      have hb : b.toNat < 256 := b.toNat_lt
      have hc : c.toNat < 256 := c.toNat_lt
      rw [decode_cons, decode_cons] at h
      have hhead : b = c := UInt8.toNat_inj.mp (by omega)
      have htail : bs = cs := ih (by simpa using hlength) (by omega)
      rw [hhead, htail]

end LittleEndian

namespace Buffer

variable (b : Buffer)

/-- The number in the `width` bytes at an offset; bytes behind the end count as nothing. -/
def number (offset width : Nat) : Nat :=
  LittleEndian.decode ((b.toList.drop offset).take width)

/-- A number of some bytes is below the limit of that many bytes. -/
theorem number_lt (offset width : Nat) : b.number offset width < 1 <<< (8 * width) := by
  have hlength : ((b.toList.drop offset).take width).length ≤ width := List.length_take_le _ _
  have hlt := LittleEndian.decode_lt ((b.toList.drop offset).take width)
  have hmono : 1 <<< (8 * ((b.toList.drop offset).take width).length) ≤ 1 <<< (8 * width) := by
    simp only [Nat.one_shiftLeft]
    exact Nat.pow_le_pow_right (by decide) (Nat.mul_le_mul_left 8 hlength)
  exact Nat.lt_of_lt_of_le hlt hmono

/-- A number of two bytes fits into 16 bits. -/
theorem number_two_lt (offset : Nat) : b.number offset 2 < 0x10000 := b.number_lt offset 2

/-- A number of four bytes fits into 32 bits. -/
theorem number_four_lt (offset : Nat) : b.number offset 4 < 0x100000000 := b.number_lt offset 4

/-- A number of eight bytes fits into 64 bits. -/
theorem number_eight_lt (offset : Nat) : b.number offset 8 < 0x10000000000000000 :=
  b.number_lt offset 8

/-- A number of two bytes is not cut by a word of 16 bits. -/
theorem toNat_number_two (offset : Nat) :
    (UInt16.ofNat (b.number offset 2)).toNat = b.number offset 2 :=
  UInt16.toNat_ofNat_of_lt' (b.number_two_lt offset)

/-- A number of four bytes is not cut by a word of 32 bits. -/
theorem toNat_number_four (offset : Nat) :
    (UInt32.ofNat (b.number offset 4)).toNat = b.number offset 4 :=
  UInt32.toNat_ofNat_of_lt' (b.number_four_lt offset)

/-- A number of four bytes is zero just when its word is. -/
theorem ofNat_number_four_eq_zero_iff (offset : Nat) :
    UInt32.ofNat (b.number offset 4) = 0 ↔ b.number offset 4 = 0 := by
  rw [← UInt32.toNat_inj, b.toNat_number_four]
  rfl

/-- A word of 32 bits is widened to the number that it has been read from. -/
theorem toUInt64_number_four (offset : Nat) :
    (UInt32.ofNat (b.number offset 4)).toUInt64 = UInt64.ofNat (b.number offset 4) := by
  have hlt := b.number_four_lt offset
  rw [← UInt64.toNat_inj, UInt32.toNat_toUInt64, b.toNat_number_four,
    UInt64.toNat_ofNat_of_lt' (Nat.lt_trans hlt (by decide))]

/-! ### Words -/

/-- A slice is there just when the buffer reaches to its end. -/
theorem slice?_eq (offset size : Nat) :
    b.slice? offset size =
      if offset + size ≤ b.size then some ((b.toList.drop offset).take size) else none := by
  split
  · next h => exact slice?_eq_some_iff.mpr ⟨h, rfl⟩
  · next h =>
    rw [Option.eq_none_iff_forall_ne_some]
    intro bs hbs
    exact h (slice?_eq_some_iff.mp hbs).1

/-- A word of two bytes is there just when the buffer reaches to its end. -/
theorem u16?_eq (offset : Nat) :
    b.u16? offset =
      if offset + 2 ≤ b.size then some (UInt16.ofNat (b.number offset 2)) else none := by
  rw [u16?, slice?_eq]
  split <;> rfl

/-- A word of four bytes is there just when the buffer reaches to its end. -/
theorem u32?_eq (offset : Nat) :
    b.u32? offset =
      if offset + 4 ≤ b.size then some (UInt32.ofNat (b.number offset 4)) else none := by
  rw [u32?, slice?_eq]
  split <;> rfl

/-- A word of eight bytes is there just when the buffer reaches to its end. -/
theorem u64?_eq (offset : Nat) :
    b.u64? offset =
      if offset + 8 ≤ b.size then some (UInt64.ofNat (b.number offset 8)) else none := by
  rw [u64?, slice?_eq]
  split <;> rfl

/-- A field of a record is a number of the buffer that the record was cut from. -/
theorem field_slice {offset size position width : Nat} (h : position + width ≤ size) :
    LittleEndian.field ((b.toList.drop offset).take size) position width =
      b.number (offset + position) width := by
  have hcut : (((b.toList.drop offset).take size).drop position).take width =
      (b.toList.drop (offset + position)).take width := by
    rw [List.drop_take, List.drop_drop, List.take_take, Nat.min_eq_left (by omega)]
  rw [LittleEndian.field, hcut, number]

/-- Some bytes stand at an offset. -/
def HasAt (offset : Nat) (bytes : List UInt8) : Prop :=
  (b.toList.drop offset).take bytes.length = bytes

instance (offset : Nat) (bytes : List UInt8) : Decidable (b.HasAt offset bytes) :=
  inferInstanceAs (Decidable (_ = _))

/-- Bytes stand where they all fit in and make up their number. -/
theorem hasAt_iff {offset : Nat} {bytes : List UInt8} (h : bytes ≠ []) :
    b.HasAt offset bytes ↔ offset + bytes.length ≤ b.size ∧
      b.number offset bytes.length = LittleEndian.decode bytes := by
  have hpos : 0 < bytes.length := List.length_pos_iff.mpr h
  have hlength : ((b.toList.drop offset).take bytes.length).length =
      min bytes.length (b.size - offset) := by
    rw [List.length_take, List.length_drop, length_toList]
  constructor
  · intro hat
    rw [HasAt] at hat
    rw [hat] at hlength
    exact ⟨by omega, by rw [number, hat]⟩
  · rintro ⟨hle, hnumber⟩
    exact LittleEndian.eq_of_decode_eq (by omega) hnumber

/-- A 16-bit word is read where its two bytes stand. -/
theorem u16?_eq_some_iff {offset : Nat} {v : UInt16} :
    b.u16? offset = some v ↔ b.HasAt offset (LittleEndian.encode 2 v.toNat) := by
  have hv : v.toNat % (1 <<< (8 * 2)) = v.toNat := Nat.mod_eq_of_lt v.toNat_lt
  rw [b.hasAt_iff (by simp), LittleEndian.length_encode, LittleEndian.decode_encode, hv, u16?_eq]
  split
  · next h => rw [Option.some_inj, ← UInt16.toNat_inj, toNat_number_two, and_iff_right h]
  · next h => simp [h]

/-- A 32-bit word is read where its four bytes stand. -/
theorem u32?_eq_some_iff {offset : Nat} {v : UInt32} :
    b.u32? offset = some v ↔ b.HasAt offset (LittleEndian.encode 4 v.toNat) := by
  have hv : v.toNat % (1 <<< (8 * 4)) = v.toNat := Nat.mod_eq_of_lt v.toNat_lt
  rw [b.hasAt_iff (by simp), LittleEndian.length_encode, LittleEndian.decode_encode, hv, u32?_eq]
  split
  · next h => rw [Option.some_inj, ← UInt32.toNat_inj, toNat_number_four, and_iff_right h]
  · next h => simp [h]

/-- A field of a slice is the number at its place in the buffer. -/
theorem field32_slice {offset size position : Nat} (h : position + 4 ≤ size) :
    LittleEndian.field32 ((b.toList.drop offset).take size) position =
      UInt32.ofNat (b.number (offset + position) 4) := by
  rw [LittleEndian.field32, b.field_slice h]

/-! ### Tables -/

/-- An element whose offset is no word is out of bounds, by the product or by the sum. -/
theorem elementOffset_of_limit_le {table index width : Nat}
    (h : Word.limit ≤ table + index * width) :
    b.elementOffset table index width = .error (.outOfBounds table b.size) := by
  unfold elementOffset
  split
  · next offset hoffset =>
    obtain ⟨product, hproduct, hsum⟩ := Option.bind_eq_some_iff.mp hoffset
    obtain ⟨-, rfl⟩ := Word.mul?_eq_some_iff.mp hproduct
    obtain ⟨hlt, -⟩ := Word.add?_eq_some_iff.mp hsum
    omega
  · rfl

/-- An element of a table has an offset wherever that is a word. -/
theorem elementOffset_eq_ok_iff {table index width offset : Nat} :
    b.elementOffset table index width = .ok offset ↔
      table + index * width < Word.limit ∧ offset = table + index * width := by
  by_cases h : table + index * width < Word.limit
  · have hproduct : Word.mul? index width = some (index * width) :=
      Word.mul?_eq_some_iff.mpr ⟨by omega, rfl⟩
    have hsum : Word.add? (index * width) table = some (table + index * width) :=
      Word.add?_eq_some_iff.mpr ⟨by omega, Nat.add_comm _ _⟩
    simp [elementOffset, hproduct, hsum, h, eq_comm]
  · rw [b.elementOffset_of_limit_le (Nat.not_lt.mp h)]
    simp [h]

/-- An element of a table is what its reader finds at its offset. -/
theorem element_eq_ok_iff {α : Type} {read : Nat → Option α} {table index width : Nat} {a : α} :
    ((b.elementOffset table index width).bind fun offset =>
      (read offset).elim (.error (.outOfBounds offset b.size)) .ok) = .ok a ↔
      table + index * width < Word.limit ∧ read (table + index * width) = some a := by
  cases hoffset : b.elementOffset table index width with
  | error cause =>
    have hnot : ¬ table + index * width < Word.limit := by
      intro hlt
      rw [b.elementOffset_eq_ok_iff.mpr ⟨hlt, rfl⟩] at hoffset
      cases hoffset
    simp [hnot, Except.bind]
  | ok offset =>
    obtain ⟨hlt, rfl⟩ := b.elementOffset_eq_ok_iff.mp hoffset
    cases hread : read (table + index * width) <;> simp [Except.bind, hread, hlt]

/-- A word of a table of four bytes is read at the place of its element. -/
theorem tableU32_eq_bind (table index : Nat) :
    b.tableU32 table index = (b.elementOffset table index 4).bind fun offset =>
      (b.u32? offset).elim (.error (.outOfBounds offset b.size)) .ok := by
  refine congrArg (Except.bind _) (funext fun offset => ?_)
  cases b.u32? offset <;> rfl

/-- A word of a table of two bytes is read at the place of its element. -/
theorem tableU16_eq_bind (table index : Nat) :
    b.tableU16 table index = (b.elementOffset table index 2).bind fun offset =>
      (b.u16? offset).elim (.error (.outOfBounds offset b.size)) .ok := by
  refine congrArg (Except.bind _) (funext fun offset => ?_)
  cases b.u16? offset <;> rfl

/-- A 32-bit word of a table is read exactly where it lies inside the buffer. -/
theorem tableU32_eq_ok_iff {table index : Nat} {v : UInt32} :
    b.tableU32 table index = .ok v ↔
      table + index * 4 + 4 ≤ b.size ∧ v = UInt32.ofNat (b.number (table + index * 4) 4) := by
  have hlimit : Word.limit = 0x10000000000000000 := rfl
  have hsize : b.size < 0x8000000000000000 := b.size_lt
  rw [tableU32_eq_bind, element_eq_ok_iff, u32?_eq, Option.ite_none_right_eq_some, Option.some_inj,
    eq_comm (a := v)]
  exact ⟨fun h => h.2, fun h => ⟨by omega, h⟩⟩

/-- A 16-bit word of a table is read exactly where it lies inside the buffer. -/
theorem tableU16_eq_ok_iff {table index : Nat} {v : UInt16} :
    b.tableU16 table index = .ok v ↔
      table + index * 2 + 2 ≤ b.size ∧ v = UInt16.ofNat (b.number (table + index * 2) 2) := by
  have hlimit : Word.limit = 0x10000000000000000 := rfl
  have hsize : b.size < 0x8000000000000000 := b.size_lt
  rw [tableU16_eq_bind, element_eq_ok_iff, u16?_eq, Option.ite_none_right_eq_some, Option.some_inj,
    eq_comm (a := v)]
  exact ⟨fun h => h.2, fun h => ⟨by omega, h⟩⟩

end Buffer

/-! ### Records -/

/-- The head of the exports whose fields are the numbers behind an offset. -/
def ExportDirectory.ofBuffer (b : Buffer) (offset : Nat) : ExportDirectory where
  nameRva := UInt32.ofNat (b.number (offset + 12) 4)
  ordinalBase := UInt32.ofNat (b.number (offset + 16) 4)
  functionCount := UInt32.ofNat (b.number (offset + 20) 4)
  nameCount := UInt32.ofNat (b.number (offset + 24) 4)
  functionsRva := UInt32.ofNat (b.number (offset + 28) 4)
  namesRva := UInt32.ofNat (b.number (offset + 32) 4)
  ordinalsRva := UInt32.ofNat (b.number (offset + 36) 4)

/-- The head of the exports is read where it lies inside the buffer. -/
theorem ExportDirectory.read_eq (b : Buffer) (offset : Nat) :
    ExportDirectory.read b offset =
      if offset + 40 ≤ b.size then .ok (ExportDirectory.ofBuffer b offset)
      else .error (.outOfBounds offset b.size) := by
  have hfield : ∀ position, position + 4 ≤ 40 →
      LittleEndian.field32 ((b.toList.drop offset).take 40) position =
        UInt32.ofNat (b.number (offset + position) 4) := fun _ => b.field32_slice
  rw [ExportDirectory.read, ExportDirectory.recordSize, b.slice?_eq]
  by_cases h : offset + 40 ≤ b.size
  · rw [if_pos h, if_pos h]
    simp only [ExportDirectory.ofRecord]
    rw [hfield 12 (by decide), hfield 16 (by decide), hfield 20 (by decide), hfield 24 (by decide),
      hfield 28 (by decide), hfield 32 (by decide), hfield 36 (by decide)]
    rfl
  · rw [if_neg h, if_neg h]

/-- The import descriptor whose fields are the numbers from an offset on. -/
def ImportDescriptor.ofBuffer (b : Buffer) (offset : Nat) : ImportDescriptor where
  lookupRva := UInt32.ofNat (b.number offset 4)
  nameRva := UInt32.ofNat (b.number (offset + 12) 4)
  firstThunk := UInt32.ofNat (b.number (offset + 16) 4)

/-- An import descriptor is read where it lies inside the buffer. -/
theorem ImportDescriptor.read_eq (b : Buffer) (offset : Nat) :
    ImportDescriptor.read b offset =
      if offset + 20 ≤ b.size then .ok (ImportDescriptor.ofBuffer b offset)
      else .error (.outOfBounds offset b.size) := by
  have hfield : ∀ position, position + 4 ≤ 20 →
      LittleEndian.field32 ((b.toList.drop offset).take 20) position =
        UInt32.ofNat (b.number (offset + position) 4) := fun _ => b.field32_slice
  rw [ImportDescriptor.read, ImportDescriptor.recordSize, b.slice?_eq]
  by_cases h : offset + 20 ≤ b.size
  · rw [if_pos h, if_pos h]
    simp only [ImportDescriptor.ofRecord]
    rw [hfield 0 (by decide), hfield 12 (by decide), hfield 16 (by decide)]
    rfl
  · rw [if_neg h, if_neg h]

/-- The address of a slot whose thunk lies inside the buffer. -/
theorem Buffer.slotAddress_ofBuffer (b : Buffer) {kind : Kind} (descriptor : Nat)
    {lookup index : Nat} (hin : lookup + index * kind.thunkSize + kind.thunkSize ≤ b.size) :
    (ImportDescriptor.ofBuffer b descriptor).slotAddress kind index =
      .ok (UInt64.ofNat (b.number (descriptor + 16) 4 + index * kind.thunkSize)) := by
  have hlimit : Word.limit = 0x10000000000000000 := rfl
  have hsize : b.size < 0x8000000000000000 := b.size_lt
  have hfirst := b.number_four_lt (descriptor + 16)
  rw [ImportDescriptor.slotAddress, Word.mul_of_lt (by omega), ImportDescriptor.ofBuffer,
    b.toNat_number_four]
  change (Word.add _ _ >>= fun sum => _) = _
  rw [Word.add_of_lt (by omega)]
  rfl

/-! ### Thunks -/

/-- A thunk is read where it lies inside the buffer. -/
theorem Thunk.read_eq (b : Buffer) (offset : Nat) (kind : Kind) :
    Thunk.read b offset kind =
      if offset + kind.thunkSize ≤ b.size then
        .ok (Thunk.ofValue kind (UInt64.ofNat (b.number offset kind.thunkSize)))
      else .error (.outOfBounds offset b.size) := by
  have hvalue : Thunk.valueAt? b offset kind =
      if offset + kind.thunkSize ≤ b.size then
        some (UInt64.ofNat (b.number offset kind.thunkSize)) else none := by
    cases kind with
    | pe32 =>
      rw [Thunk.valueAt?, b.u32?_eq, Kind.thunkSize, ← b.toUInt64_number_four]
      split <;> rfl
    | pe32Plus => exact b.u64?_eq offset
  rw [Thunk.read, hvalue]
  by_cases h : offset + kind.thunkSize ≤ b.size
  · rw [if_pos h, if_pos h]
  · rw [if_neg h, if_neg h]

/-- The value of a thunk is below twice the flag of ordinals. -/
theorem Buffer.number_thunk_lt (b : Buffer) (kind : Kind) (offset : Nat) :
    b.number offset kind.thunkSize < 2 * kind.ordinalFlag.toNat := by
  cases kind with
  | pe32 => exact b.number_four_lt offset
  | pe32Plus => exact b.number_eight_lt offset

/-- A number of `k + 1` bits has its highest bit set exactly if it is large. -/
theorem and_shiftLeft_ne_zero_iff {v k : Nat} (h : v < 2 * (1 <<< k)) :
    v &&& (1 <<< k) ≠ 0 ↔ 1 <<< k ≤ v := by
  have hpos : 0 < 1 <<< k := by
    rw [Nat.one_shiftLeft]
    exact Nat.two_pow_pos k
  have hbit : v &&& (1 <<< k) = (decide (v / (1 <<< k) % 2 = 1)).toNat * (1 <<< k) := by
    rw [Nat.one_shiftLeft, Nat.and_two_pow, Nat.testBit_eq_decide_div_mod_eq]
  have hdiv : v / (1 <<< k) < 2 := Nat.div_lt_of_lt_mul (by omega)
  rw [hbit, Nat.mod_eq_of_lt hdiv]
  by_cases hle : 1 <<< k ≤ v
  · have hone : v / (1 <<< k) = 1 := by
      have := Nat.div_pos hle hpos
      omega
    simp [hone, hle, hpos.ne']
  · have hzero : v / (1 <<< k) = 0 := Nat.div_eq_of_lt (by omega)
    simp [hzero, hle]

/-- The thunk that a value other than zero stands for. -/
theorem Thunk.ofValue_eq {kind : Kind} {v : Nat} (hv : v < 2 * kind.ordinalFlag.toNat) (hne : v ≠ 0) :
    Thunk.ofValue kind (UInt64.ofNat v) =
      if kind.ordinalFlag.toNat ≤ v then .ordinal (UInt16.ofNat v)
      else .byName (UInt32.ofNat (v % 0x80000000)) := by
  have hflag : kind.ordinalFlag.toNat = 1 <<< (8 * kind.thunkSize - 1) := by cases kind <;> rfl
  have hlt : v < UInt64.size := by
    have hsmall : kind.ordinalFlag.toNat ≤ 0x8000000000000000 := by cases kind <;> decide
    have hsize : UInt64.size = 0x10000000000000000 := rfl
    omega
  have hnat : (UInt64.ofNat v).toNat = v := UInt64.toNat_ofNat_of_lt' hlt
  have hstop : UInt64.ofNat v ≠ 0 := by
    intro hzero
    rw [hzero] at hnat
    exact hne hnat.symm
  have htop : (UInt64.ofNat v &&& kind.ordinalFlag != 0) = true ↔ kind.ordinalFlag.toNat ≤ v := by
    rw [bne_iff_ne, ne_eq, ← UInt64.toNat_inj, UInt64.toNat_and, hnat, hflag]
    exact and_shiftLeft_ne_zero_iff (hflag ▸ hv)
  have hmask : v &&& 0x7FFFFFFF = v % 0x80000000 := Nat.and_two_pow_sub_one_eq_mod v 31
  have hrva : (UInt64.ofNat v &&& 0x7FFFFFFF).toUInt32 = UInt32.ofNat (v % 0x80000000) := by
    rw [← UInt32.toNat_inj, UInt64.toNat_toUInt32, UInt64.toNat_and, hnat, UInt32.toNat_ofNat',
      ← hmask]
    rfl
  have hnumber : (UInt64.ofNat v).toUInt16 = UInt16.ofNat v := by
    rw [← UInt16.toNat_inj, UInt64.toNat_toUInt16, hnat, UInt16.toNat_ofNat']
  rw [Thunk.ofValue, if_neg hstop, hrva, hnumber]
  exact if_congr htop rfl rfl

end PeListing
