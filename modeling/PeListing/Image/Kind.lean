import PeListing.Image.Defect

/-!
# Machines and layout kinds

The machine says which processor an image is for, the kind which of two layouts the headers and the
tables of imports have. Either is selected by a 16-bit field; an unknown value is a defect.
-/

namespace PeListing

/-- The processor that an image is for. -/
inductive Machine where
  /-- 32-bit x86. -/
  | i386
  /-- 64-bit x86. -/
  | amd64
  /-- Itanium, whose code this library does not decode. -/
  | ia64
  deriving DecidableEq, Repr

namespace Machine

/-- The machine of a file header field. -/
def ofCode (code : UInt16) : Except Defect Machine :=
  if code = 0x014C then .ok .i386
  else if code = 0x8664 then .ok .amd64
  else if code = 0x0200 then .ok .ia64
  else .error (.unsupportedArchitecture .machine code)

/-- The file header field of a machine. -/
def code : Machine → UInt16
  | .i386 => 0x014C
  | .amd64 => 0x8664
  | .ia64 => 0x0200

/-- The code of a machine gives the machine back. -/
@[simp] theorem ofCode_code (m : Machine) : ofCode m.code = .ok m := by
  cases m <;> rfl

/-- How a machine is called in messages. -/
def text : Machine → String
  | .i386 => "I386"
  | .amd64 => "Amd64"
  | .ia64 => "Ia64"

end Machine

/-- The layout of an image. -/
inductive Kind where
  /-- Addresses of 32 bits. -/
  | pe32
  /-- Addresses of 64 bits. -/
  | pe32Plus
  deriving DecidableEq, Repr

namespace Kind

/-- The kind of an optional header magic number. -/
def ofMagic (magic : UInt16) : Except Defect Kind :=
  if magic = 0x010B then .ok .pe32
  else if magic = 0x020B then .ok .pe32Plus
  else .error (.unsupportedArchitecture .magic magic)

/-- The optional header magic number of a kind. -/
def magic : Kind → UInt16
  | .pe32 => 0x010B
  | .pe32Plus => 0x020B

/-- The mark of a layout gives the layout back. -/
@[simp] theorem ofMagic_magic (k : Kind) : ofMagic k.magic = .ok k := by
  cases k <;> rfl

/-- Whether addresses have 64 bits. -/
def is64Bit : Kind → Bool
  | .pe32 => false
  | .pe32Plus => true

/-- The size of the optional header up to its data directories. -/
def fixedSize : Kind → Nat
  | .pe32 => 96
  | .pe32Plus => 112

/-- The size of an import thunk. -/
def thunkSize : Kind → Nat
  | .pe32 => 4
  | .pe32Plus => 8

/-- The bit that marks an import by ordinal. -/
def ordinalFlag : Kind → UInt64
  | .pe32 => 0x80000000
  | .pe32Plus => 0x8000000000000000

/-- The number of digits of a printed address. -/
def addressWidth : Kind → Nat
  | .pe32 => 8
  | .pe32Plus => 16

/-- How a kind is called in messages. -/
def text : Kind → String
  | .pe32 => "Pe32"
  | .pe32Plus => "Pe32Plus"

end Kind

end PeListing
