import PeListing.Text.Numeral
import PeListing.X86.Instruction

/-!
# Printing instructions

Operands are printed in Intel order with the segment and the width of every place in memory. A
number below ten is one decimal digit; any other is hexadecimal behind a mark, with a zero in front
where the mark is empty and the number would start with a letter. Every number is first offered to
a namer as an address, and a name takes its place.
-/

namespace PeListing.X86

/-- How instructions are printed. -/
structure Style where
  /-- What stands before a hexadecimal number. -/
  hexMark : String
  /-- Whether mnemonics are in upper case. -/
  uppercaseMnemonics : Bool
  /-- The name of an address, if it has one. -/
  nameOf : UInt64 → Option String

namespace Style

/-- Hexadecimal digits behind a mark. -/
def marked (mark : String) (digits : List Char) : String :=
  match digits with
  | c :: _ =>
    if mark.isEmpty && !c.isDigit then String.ofList ('0' :: digits)
    else mark ++ String.ofList digits
  | [] => mark

variable (style : Style)

/-- A number, with at least so many digits if it is hexadecimal. -/
def number (width n : Nat) : String :=
  if n ≤ 9 then Numeral.decimal n
  else marked style.hexMark (Numeral.zeroPad width (Numeral.upperHexDigits n))

/-- The name of a number as an address, else the number. -/
def named (width : Nat) (value : UInt64) : String :=
  (style.nameOf value).getD (style.number width value.toNat)

/-- A displacement from a register: a name, else a signed number, else nothing for zero. -/
def displacement (mode : Mode) (d : Int) : String :=
  match style.nameOf (mode.width.word d) with
  | some name => "+" ++ name
  | none =>
    if d = 0 then ""
    else if d < 0 then "-" ++ style.number 0 d.natAbs
    else "+" ++ style.number 0 d.natAbs

/-- The segment and the address of a place in memory; `next` is where the next instruction
stands. -/
def address (mode : Mode) (next : UInt64) : Address → String
  | .absolute a => "ds:[" ++ style.named 0 a ++ "]"
  | .relative d => "ds:[" ++ style.named 0 (mode.width.word (next.toNat + d)) ++ "]"
  | .based base d =>
    (if base.isFrame then "ss:[" else "ds:[") ++ base.text ++ style.displacement mode d ++ "]"

/-- The number of digits of a place in the code. -/
def targetWidth : Mode → Nat
  | .bits32 => 8
  | .bits64 => 16

/-- An operand; `next` is where the next instruction stands. -/
def operand (mode : Mode) (next : UInt64) : Operand → String
  | .register r => r.text
  | .immediate value => style.named 0 value
  | .memory width a =>
    (match width with | some w => w.keyword | none => "") ++ style.address mode next a
  | .target d short =>
    (if short then "short " else "") ++
      style.named (targetWidth mode) (mode.width.word (next.toNat + d))

/-- The name of an operation in the chosen case. -/
def mnemonic (m : Mnemonic) : String :=
  if style.uppercaseMnemonics then String.ofList (m.text.toList.map Char.toUpper) else m.text

/-- An instruction; `next` is where the next one stands. -/
def instruction (mode : Mode) (next : UInt64) (i : Instruction) : String :=
  match i.operands with
  | [] => style.mnemonic i.mnemonic
  | operands =>
    style.mnemonic i.mnemonic ++ " " ++
      String.intercalate ", " (operands.map (style.operand mode next))

end Style

end PeListing.X86
