import PeListing.Bytes.LittleEndian
import PeListing.Word

/-!
# Byte buffers

The bytes of a file, shorter than `2 ^ 63`, and the reads that every decoder of the library is
built from. A read of `size` bytes at `offset` has a value exactly when `offset + size` is a word
and does not pass the end (`slice?_eq_some_iff`).
-/

namespace PeListing

/-- The bytes of one file. No file reaches `2 ^ 63` bytes. -/
structure Buffer where
  /-- The bytes themselves. -/
  bytes : ByteArray
  /-- The length is that of a file. -/
  size_lt : bytes.size < 0x8000000000000000

namespace Buffer

/-- The buffer of some bytes, if they are few enough. -/
def ofBytes? (bytes : ByteArray) : Option Buffer :=
  if h : bytes.size < 0x8000000000000000 then some ⟨bytes, h⟩ else none

/-- The number of bytes. -/
def size (b : Buffer) : Nat := b.bytes.size

/-- The bytes as a list. -/
def toList (b : Buffer) : List UInt8 := b.bytes.data.toList

/-- A buffer has as many bytes as its size says. -/
@[simp] theorem length_toList (b : Buffer) : b.toList.length = b.size := by
  simp [toList, size]

/-- The bytes from `start` up to `stop`, as far as the buffer goes. -/
def window (b : Buffer) (start stop : Nat) : List UInt8 :=
  (b.bytes.extract start stop).data.toList

/-- The bytes between two positions are those of the list. -/
theorem window_eq (b : Buffer) (start stop : Nat) :
    b.window start stop = (b.toList.drop start).take (stop - start) := by
  simp [window, toList, ByteArray.data_extract, List.extract_eq_take_drop]

/-- The bytes from `start` up to `stop`, which must both lie inside the buffer. -/
def range {ε : Type} (b : Buffer) (start stop : Nat) : Except (Fault ε) (List UInt8) :=
  if start ≤ stop ∧ stop ≤ b.size then .ok (b.window start stop) else .error .outOfRange

/-- A range inside the buffer gives its bytes. -/
theorem range_of_le {ε : Type} {b : Buffer} {start stop : Nat} (h : start ≤ stop)
    (h' : stop ≤ b.size) : (b.range start stop : Except (Fault ε) (List UInt8)) =
      .ok ((b.toList.drop start).take (stop - start)) := by
  simp only [range, h, h', and_self, if_true, window_eq]

/-- The `size` bytes at `offset`, if they all lie inside the buffer. -/
def slice? (b : Buffer) (offset size : Nat) : Option (List UInt8) := do
  let stop ← Word.add? offset size
  if stop ≤ b.size then some (b.window offset stop) else none

/-- A slice is read exactly when it ends inside the buffer, as unbounded numbers. -/
theorem slice?_eq_some_iff {b : Buffer} {offset size : Nat} {bs : List UInt8} :
    b.slice? offset size = some bs ↔
      offset + size ≤ b.size ∧ bs = (b.toList.drop offset).take size := by
  have hb : b.size < 0x8000000000000000 := b.size_lt
  by_cases h : offset + size < Word.limit
  · by_cases h' : offset + size ≤ b.size
    · simp [slice?, Word.add?, h, h', window_eq, eq_comm]
    · simp [slice?, Word.add?, h, h']
  · have : ¬ offset + size ≤ b.size := by simp only [Word.limit] at h; omega
    simp [slice?, Word.add?, h, this]

/-- The 16-bit word at an offset. -/
def u16? (b : Buffer) (offset : Nat) : Option UInt16 :=
  (b.slice? offset 2).map fun bs => UInt16.ofNat (LittleEndian.decode bs)

/-- The 32-bit word at an offset. -/
def u32? (b : Buffer) (offset : Nat) : Option UInt32 :=
  (b.slice? offset 4).map fun bs => UInt32.ofNat (LittleEndian.decode bs)

/-- The 64-bit word at an offset. -/
def u64? (b : Buffer) (offset : Nat) : Option UInt64 :=
  (b.slice? offset 8).map fun bs => UInt64.ofNat (LittleEndian.decode bs)

end Buffer

end PeListing
