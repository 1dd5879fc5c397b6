import PeListing.Bytes.Select

/-!
# Little-endian words

A word of `width` bytes is written with its least significant byte first. `decode` reads any list
of bytes as a natural number, `encode` writes the low bytes of one.
-/

namespace PeListing.LittleEndian

/-- The number whose bytes, least significant first, are given. -/
def decode : List UInt8 → Nat
  | [] => 0
  | b :: bs => b.toNat + 256 * decode bs

/-- The `width` low bytes of a number, least significant first. -/
def encode : Nat → Nat → List UInt8
  | 0, _ => []
  | width + 1, n => UInt8.ofNat n :: encode width (n / 256)

@[simp] theorem decode_nil : decode [] = 0 := rfl

/-- The first byte is the least significant one. -/
@[simp] theorem decode_cons (b : UInt8) (bs : List UInt8) :
    decode (b :: bs) = b.toNat + 256 * decode bs := rfl

@[simp] theorem encode_zero (n : Nat) : encode 0 n = [] := rfl

/-- The first byte has the low bits, and the others have the rest. -/
@[simp] theorem encode_succ (width n : Nat) :
    encode (width + 1) n = UInt8.ofNat n :: encode width (n / 256) := rfl

/-- A number is written in as many bytes as are asked for. -/
@[simp] theorem length_encode (width n : Nat) : (encode width n).length = width := by
  induction width generalizing n with
  | zero => rfl
  | succ width ih => simp [ih]

/-- One byte more multiplies the limit by 256. -/
theorem shiftLeft_succ_width (width : Nat) :
    1 <<< (8 * (width + 1)) = 256 * (1 <<< (8 * width)) := by
  rw [Nat.mul_succ, Nat.shiftLeft_add, Nat.shiftLeft_eq (1 <<< (8 * width)), Nat.mul_comm]

/-- A list of bytes stands for a number of eight bits for each. -/
theorem decode_lt (bs : List UInt8) : decode bs < 1 <<< (8 * bs.length) := by
  induction bs with
  | nil => decide
  | cons b bs ih =>
    have hb : b.toNat < 256 := b.toNat_lt
    rw [decode_cons, List.length_cons, shiftLeft_succ_width]
    omega

/-- Reading back what was written loses only the bytes that did not fit. -/
theorem decode_encode (width n : Nat) : decode (encode width n) = n % (1 <<< (8 * width)) := by
  induction width generalizing n with
  | zero => exact (Nat.mod_one n).symm
  | succ width ih =>
    have hb : (UInt8.ofNat n).toNat = n % 256 := UInt8.toNat_ofNat'
    rw [encode_succ, decode_cons, ih, hb, shiftLeft_succ_width, Nat.mod_mul]

/-- Fields of a fixed-size record: the word of `width` bytes at a position of the record. -/
def field (record : List UInt8) (position width : Nat) : Nat :=
  decode ((record.drop position).take width)

/-- The 16-bit field at a position of a record. -/
def field16 (record : List UInt8) (position : Nat) : UInt16 :=
  UInt16.ofNat (field record position 2)

/-- The 32-bit field at a position of a record. -/
def field32 (record : List UInt8) (position : Nat) : UInt32 :=
  UInt32.ofNat (field record position 4)

/-- The 64-bit field at a position of a record. -/
def field64 (record : List UInt8) (position : Nat) : UInt64 :=
  UInt64.ofNat (field record position 8)

/-- The 16-bit field at a position of a record that must hold both of its bytes. -/
def checkedField16 {ε : Type} (record : List UInt8) (position : Nat) : Except (Fault ε) UInt16 := do
  return UInt16.ofNat (decode (← Select.range record position (position + 2)))

/-- A field inside the record is read. -/
theorem checkedField16_of_le {ε : Type} {record : List UInt8} {position : Nat}
    (h : position + 2 ≤ record.length) :
    (checkedField16 record position : Except (Fault ε) UInt16) = .ok (field16 record position) := by
  rw [checkedField16, Select.range_of_le (Nat.le_add_right _ _) h, Nat.add_sub_cancel_left]
  rfl

end PeListing.LittleEndian
