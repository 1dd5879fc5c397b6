/-!
# Reading names as UTF-8

Names in an image are bytes of any kind. `Utf8.lossy` reads them as UTF-8 and never fails: every
longest run of bytes that begins a character and cannot be completed becomes one replacement
character U+FFFD, and so does every byte that begins none.

The reader is a machine over single bytes. Between characters it is idle; inside one it holds the
bits read so far, how many bytes are missing and which range the next byte must fall in. The
range of the second byte is narrower for some first bytes, which rules out overlong forms,
surrogates and values past U+10FFFF (`Partial.ofLead?`).
-/

namespace PeListing.Utf8

/-- What stands for bytes that are no character. -/
def replacement : Char := Char.ofNat 0xFFFD

/-- A character of which some bytes have been read. -/
structure Partial where
  /-- The bits read so far. -/
  bits : Nat
  /-- How many bytes follow after the next one. -/
  following : Nat
  /-- The least value of the next byte. -/
  low : UInt8
  /-- The greatest value of the next byte. -/
  high : UInt8

/-- The character that a first byte begins, if it begins one of several bytes. -/
def Partial.ofLead? (b : UInt8) : Option Partial :=
  if b < 0xC2 then none
  else if b < 0xE0 then some ⟨b.toNat - 0xC0, 0, 0x80, 0xBF⟩
  else if b = 0xE0 then some ⟨0, 1, 0xA0, 0xBF⟩
  else if b = 0xED then some ⟨0xD, 1, 0x80, 0x9F⟩
  else if b < 0xF0 then some ⟨b.toNat - 0xE0, 1, 0x80, 0xBF⟩
  else if b = 0xF0 then some ⟨0, 2, 0x90, 0xBF⟩
  else if b < 0xF4 then some ⟨b.toNat - 0xF0, 2, 0x80, 0xBF⟩
  else if b = 0xF4 then some ⟨4, 2, 0x80, 0x8F⟩
  else none

/-- Whether a byte may come next. -/
def Partial.accepts (p : Partial) (b : UInt8) : Bool := p.low ≤ b && b ≤ p.high

/-- The characters that are complete after a byte read between characters, and the one begun. -/
def start (b : UInt8) : List Char × Option Partial :=
  if b < 0x80 then ([Char.ofNat b.toNat], none)
  else match Partial.ofLead? b with
    | some p => ([], some p)
    | none => ([replacement], none)

/-- The characters that are complete after one more byte, and the one begun. A byte that does not
continue the character begun ends it as a replacement and is read afresh. -/
def step : Option Partial → UInt8 → List Char × Option Partial
  | none, b => start b
  | some p, b =>
    if p.accepts b then
      let bits := p.bits * 64 + (b.toNat - 0x80)
      match p.following with
      | 0 => ([Char.ofNat bits], none)
      | n + 1 => ([], some ⟨bits, n, 0x80, 0xBF⟩)
    else
      let (cs, next) := start b
      (replacement :: cs, next)

/-- The characters of the remaining bytes, given the character begun. -/
def resume : Option Partial → List UInt8 → List Char
  | none, [] => []
  | some _, [] => [replacement]
  | p, b :: bs => (step p b).1 ++ resume (step p b).2 bs

/-- Reading goes on byte by byte. -/
@[simp] theorem resume_cons (p : Option Partial) (b : UInt8) (bs : List UInt8) :
    resume p (b :: bs) = (step p b).1 ++ resume (step p b).2 bs := by
  cases p <;> rfl

/-- The text of some bytes, with replacement characters for what is no UTF-8. -/
def lossy (bs : List UInt8) : String := String.ofList (resume none bs)

end PeListing.Utf8
