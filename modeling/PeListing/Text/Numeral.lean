/-!
# Numerals

Numbers are printed in decimal or in hexadecimal digits of either case, in places padded with
zeros on the left to a least width. They are read in hexadecimal digits, and a text can be told to be
a number in general, with a sign, a fraction or an exponent.
-/

namespace PeListing.Numeral

/-- The decimal digits of a number. -/
def decimal (n : Nat) : String := String.ofList (Nat.toDigits 10 n)

/-- The hexadecimal digits of a number, in lower case. -/
def hexDigits (n : Nat) : List Char := Nat.toDigits 16 n

/-- The hexadecimal digits of a number, in upper case. -/
def upperHexDigits (n : Nat) : List Char := (hexDigits n).map Char.toUpper

/-- Digits with zeros in front, up to a least width. -/
def zeroPad (width : Nat) (digits : List Char) : List Char :=
  List.replicate (width - digits.length) '0' ++ digits

/-- A numeral is padded to the width, or is longer. -/
theorem length_zeroPad (width : Nat) (digits : List Char) :
    (zeroPad width digits).length = max width digits.length := by
  simp [zeroPad]
  omega

/-- A least width is a 16-bit number. -/
def widthLimit : Nat := 0x10000

/-- A number in lower-case hexadecimal of at least `width` digits. -/
def hex (width n : Nat) : String := String.ofList (zeroPad width (hexDigits n))

/-- A number in upper-case hexadecimal of at least `width` digits. -/
def upperHex (width n : Nat) : String := String.ofList (zeroPad width (upperHexDigits n))

/-! ## Reading -/

/-- The value of a hexadecimal digit of either case. -/
def hexValue? (c : Char) : Option Nat :=
  if '0' ≤ c ∧ c ≤ '9' then some (c.toNat - '0'.toNat)
  else if 'a' ≤ c ∧ c ≤ 'f' then some (c.toNat - 'a'.toNat + 10)
  else if 'A' ≤ c ∧ c ≤ 'F' then some (c.toNat - 'A'.toNat + 10)
  else none

/-- The value of hexadecimal digits. -/
def ofHex? (digits : List Char) : Option Nat :=
  digits.foldlM (fun n c => (hexValue? c).map (16 * n + ·)) 0

/-- A text without the sign in front of it. -/
def unsigned : List Char → List Char
  | '+' :: cs | '-' :: cs => cs
  | cs => cs

/-- Whether a text is a power of ten to multiply with, or nothing. -/
def isExponent : List Char → Bool
  | [] => true
  | 'e' :: cs | 'E' :: cs => !(unsigned cs).isEmpty && (unsigned cs).all Char.isDigit
  | _ => false

/-- Whether a text is made of digits, with a point among or beside them and an exponent behind
them where it has any. -/
def isScientific (cs : List Char) : Bool :=
  let whole := cs.takeWhile Char.isDigit
  match cs.dropWhile Char.isDigit with
  | '.' :: rest =>
    !(whole ++ rest.takeWhile Char.isDigit).isEmpty && isExponent (rest.dropWhile Char.isDigit)
  | rest => !whole.isEmpty && isExponent rest

/-- Whether a text is a number, which may have a sign and need not be finite. -/
def isReal (cs : List Char) : Bool :=
  let word := String.ofList ((unsigned cs).map Char.toLower)
  word = "inf" || word = "infinity" || word = "nan" || isScientific (unsigned cs)

end PeListing.Numeral
