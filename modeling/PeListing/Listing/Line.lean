import PeListing.Bytes.Select
import PeListing.Image.Kind
import PeListing.Listing.Disassembler

/-!
# Lines of a listing

A line stands for one instruction, or for one byte that is none. `Line.layout` is its printed form:
the address and a column of bytes of fixed width (`Line.columns`), then a text.
-/

namespace PeListing

/-- One instruction, or one byte that is none. -/
structure Line (ι : Type) where
  /-- The address of the first byte. -/
  address : UInt64
  /-- The bytes. -/
  bytes : List UInt8
  /-- The instruction, if the bytes are one. -/
  instruction : Option ι
  deriving DecidableEq, Repr

/-- An address as it is printed: images with 32-bit addresses show the low 32 bits. -/
def Kind.displayAddress : Kind → UInt64 → Nat
  | .pe32, address => address.toNat % 0x100000000
  | .pe32Plus, address => address.toNat

namespace Line

/-- The column of bytes has room for this many. -/
def byteColumn : Nat := 15

/-- The column of bytes: each with a blank behind it, and blanks for those that are missing. -/
def byteText (bytes : List UInt8) : String :=
  String.join (bytes.map fun b => Numeral.upperHex 2 b.toNat ++ " ") ++
    String.join (List.replicate (byteColumn - bytes.length) "   ")

/-- What is printed before the text of a line: an address of some digits and bytes. -/
def columnText (width address : Nat) (bytes : List UInt8) : String :=
  Numeral.upperHex width address ++ "  " ++ byteText bytes ++ " "

/-- The printed form of a line without its end. -/
def layout (width address : Nat) (bytes : List UInt8) (text : String) : String :=
  columnText width address bytes ++ text

/-- The printed form of a line for any number of digits in its address; more digits than a 16-bit
number can count stop the computation. -/
def layoutWithin {ε : Type} (width address : Nat) (bytes : List UInt8) (text : String) :
    Except (Fault ε) String :=
  if width < Numeral.widthLimit then .ok (layout width address bytes text) else .error .overflow

/-- The text of a byte that is no instruction. -/
def dataText (byte : UInt8) : String := "db " ++ Numeral.hex 2 byte.toNat

variable {ι : Type} (line : Line ι)

/-- What is printed of a line before its text: its address and its bytes. -/
def columns (kind : Kind) : String :=
  columnText kind.addressWidth (kind.displayAddress line.address) line.bytes

/-- The address behind a line. -/
def next : UInt64 := line.address + UInt64.ofNat line.bytes.length

end Line

end PeListing
