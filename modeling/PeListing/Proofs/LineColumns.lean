import PeListing.Proofs.Numerals
import PeListing.Proofs.Rounds

/-!
# A line of a listing can be read back

The columns of a line have fixed places: the digits of the address, two blanks, room for fifteen
bytes at three characters each, and one more blank. The text starts behind them, whatever it is and
however many bytes there are. `Line.read?` reads a line by these places alone. Where a byte is
missing there are blanks, and blanks are no digits, so the number of bytes is found without a look
at the text (`bytesIn_flatMap_cell`). No two lines of one kind that say different things are printed
alike (`Line.layout_readsBack`).
-/

namespace PeListing

/-- An address has a digit at least. -/
theorem Kind.addressWidth_pos (kind : Kind) : 0 < kind.addressWidth := by
  cases kind <;> decide

/-- A displayed address has no more digits than there is room for. -/
theorem Kind.displayAddress_lt (kind : Kind) (address : UInt64) :
    kind.displayAddress address < 1 <<< (4 * kind.addressWidth) := by
  cases kind with
  | pe32 => exact Nat.mod_lt _ (by decide)
  | pe32Plus => exact address.toNat_lt

/-- A text of characters of one byte each has as many bytes as characters. -/
theorem utf8ByteSize_eq_length {s : String} (h : ∀ c ∈ s.toList, c.utf8Size = 1) :
    s.utf8ByteSize = s.length := by
  have hchars : ∀ cs : List Char, (∀ c ∈ cs, c.utf8Size = 1) →
      (String.ofList cs).utf8ByteSize = cs.length := by
    intro cs hcs
    induction cs with
    | nil => rfl
    | cons c cs ih =>
      rw [String.ofList_cons, String.utf8ByteSize_append, String.utf8ByteSize_singleton,
        hcs c List.mem_cons_self, ih fun c hc => hcs c (List.mem_cons_of_mem _ hc),
        List.length_cons, Nat.add_comm]
  rw [← String.length_toList, ← hchars s.toList h, String.ofList_toList]

namespace Line

/-! ### The column of bytes -/

/-- The characters that stand for one byte. -/
def cell (b : UInt8) : List Char := Numeral.zeroPad 2 (Numeral.upperHexDigits b.toNat) ++ [' ']

/-- A byte has two digits. -/
theorem length_digits_cell (b : UInt8) :
    (Numeral.zeroPad 2 (Numeral.upperHexDigits b.toNat)).length = 2 :=
  Numeral.length_zeroPad_upperHexDigits (by decide) b.toNat_lt

/-- A byte takes three characters. -/
theorem length_cell (b : UInt8) : (cell b).length = 3 := by
  rw [cell, List.length_append, length_digits_cell]
  rfl

/-- The characters of a byte are of ASCII. -/
theorem utf8Size_of_mem_cell {b : UInt8} {c : Char} (h : c ∈ cell b) : c.utf8Size = 1 := by
  rcases List.mem_append.mp h with hdigit | hblank
  · exact Numeral.utf8Size_of_mem_upperHex hdigit
  · rw [List.mem_singleton.mp hblank]
    rfl

/-- Bytes take three characters each. -/
theorem length_flatMap_cell (bytes : List UInt8) :
    (bytes.flatMap cell).length = 3 * bytes.length := by
  induction bytes with
  | nil => rfl
  | cons b bytes ih =>
    rw [List.flatMap_cons, List.length_append, length_cell, ih, List.length_cons]
    omega

/-- The column of bytes holds the bytes, then blanks. -/
theorem toList_byteText (bytes : List UInt8) :
    (byteText bytes).toList =
      bytes.flatMap cell ++ List.replicate (3 * (byteColumn - bytes.length)) ' ' := by
  have hblanks : ∀ count, (List.replicate count "   ").flatMap String.toList =
      List.replicate (3 * count) ' ' := by
    intro count
    have hblank : "   ".toList = List.replicate 3 ' ' := rfl
    rw [List.flatMap_replicate, hblank, List.flatten_replicate_replicate, Nat.mul_comm]
  have hcell : ∀ b : UInt8, (Numeral.upperHex 2 b.toNat ++ " ").toList = cell b := by
    intro b
    rw [String.toList_append, Numeral.upperHex, String.toList_ofList]
    rfl
  rw [byteText, String.toList_append, String.toList_join, String.toList_join, hblanks,
    List.flatMap_map]
  simp only [hcell]

/-! ### Reading -/

/-- The bytes in a column that has room for some: two digits are a byte, and the first place
without digits ends them. -/
def bytesIn : Nat → List Char → List UInt8
  | 0, _ => []
  | room + 1, cs =>
    match Numeral.ofHex? (cs.take 2) with
    | some n => UInt8.ofNat n :: bytesIn room (cs.drop 3)
    | none => []

/-- Where the text of a line starts. -/
def textColumn (kind : Kind) : Nat := kind.addressWidth + 2 + 3 * byteColumn + 1

/-- What a printed line says by the places of its characters: the displayed address, the bytes and
the text. -/
def read? (kind : Kind) (line : String) : Option (Nat × List UInt8 × String) :=
  (Numeral.ofHex? (line.toList.take kind.addressWidth)).map fun address =>
    (address, bytesIn byteColumn (line.toList.drop (kind.addressWidth + 2)),
      String.ofList (line.toList.drop (textColumn kind)))

/-- The first byte of the column is read back, then the others. -/
theorem bytesIn_cell_append (room : Nat) (b : UInt8) (rest : List Char) :
    bytesIn (room + 1) (cell b ++ rest) = b :: bytesIn room rest := by
  have htake : (cell b ++ rest).take 2 = Numeral.zeroPad 2 (Numeral.upperHexDigits b.toNat) := by
    rw [cell, List.append_assoc, List.take_left' (length_digits_cell b)]
  have hdrop : (cell b ++ rest).drop 3 = rest := List.drop_left' (length_cell b)
  rw [bytesIn, htake, Numeral.ofHex?_zeroPad_upperHexDigits, hdrop]
  simp only [UInt8.ofNat_toNat]

/-- Blanks are no digits. -/
theorem bytesIn_blanks (room : Nat) (behind : List Char) :
    bytesIn room (List.replicate (3 * room) ' ' ++ behind) = [] := by
  cases room with
  | zero => rfl
  | succ room => rfl

/-- The bytes of a column are found whatever stands behind it. -/
theorem bytesIn_flatMap_cell {room : Nat} {bytes : List UInt8} (h : bytes.length ≤ room)
    (behind : List Char) :
    bytesIn room (bytes.flatMap cell ++
      (List.replicate (3 * (room - bytes.length)) ' ' ++ behind)) = bytes := by
  induction bytes generalizing room with
  | nil => exact bytesIn_blanks room behind
  | cons b bytes ih =>
    cases room with
    | zero => exact absurd h (Nat.not_succ_le_zero _)
    | succ room =>
      rw [List.length_cons, Nat.add_sub_add_right, List.flatMap_cons, List.append_assoc,
        bytesIn_cell_append, ih (Nat.le_of_succ_le_succ h)]

variable {ι : Type} (line : Line ι) (kind : Kind)

/-- The columns are the address, two blanks, the bytes and a blank. -/
theorem toList_columns : (line.columns kind).toList =
    Numeral.zeroPad kind.addressWidth
        (Numeral.upperHexDigits (kind.displayAddress line.address)) ++
      ([' ', ' '] ++ ((byteText line.bytes).toList ++ [' '])) := by
  simp [columns, columnText, Numeral.upperHex]

/-- The address has as many digits as the layout of the image gives it. -/
theorem length_digits_columns : (Numeral.zeroPad kind.addressWidth
    (Numeral.upperHexDigits (kind.displayAddress line.address))).length = kind.addressWidth :=
  Numeral.length_zeroPad_upperHexDigits kind.addressWidth_pos (kind.displayAddress_lt line.address)

/-- The columns of a line with no more bytes than there is room for end where the text starts. -/
theorem length_columns (h : line.bytes.length ≤ byteColumn) :
    (line.columns kind).length = textColumn kind := by
  rw [← String.length_toList, toList_columns, toList_byteText]
  simp only [List.length_append, length_digits_columns, length_flatMap_cell, List.length_replicate,
    List.length_cons, List.length_nil, textColumn]
  omega

/-- The characters of the columns are of ASCII. -/
theorem utf8Size_of_mem_columns {c : Char} (h : c ∈ (line.columns kind).toList) :
    c.utf8Size = 1 := by
  have hblank : ' '.utf8Size = 1 := rfl
  rw [toList_columns, toList_byteText] at h
  simp only [List.mem_append, List.mem_cons, List.not_mem_nil, or_false, List.mem_flatMap,
    List.mem_replicate] at h
  rcases h with hdigit | (rfl | rfl) | (⟨b, -, hcell⟩ | ⟨-, rfl⟩) | rfl
  · exact Numeral.utf8Size_of_mem_upperHex hdigit
  · exact hblank
  · exact hblank
  · exact utf8Size_of_mem_cell hcell
  · exact hblank
  · exact hblank

/-- A line is read back, whatever its text is. -/
theorem read?_columns_append (h : line.bytes.length ≤ byteColumn) (text : String) :
    read? kind (line.columns kind ++ text) =
      some (kind.displayAddress line.address, line.bytes, text) := by
  have hdigits := length_digits_columns line kind
  have htext : (line.columns kind ++ text).toList.drop (textColumn kind) = text.toList := by
    rw [String.toList_append,
      List.drop_left' (String.length_toList.trans (line.length_columns kind h))]
  have haddress : Numeral.ofHex? ((line.columns kind ++ text).toList.take kind.addressWidth) =
      some (kind.displayAddress line.address) := by
    rw [String.toList_append, toList_columns, List.append_assoc, List.take_left' hdigits]
    exact Numeral.ofHex?_zeroPad_upperHexDigits _ _
  have hbytes : bytesIn byteColumn
      ((line.columns kind ++ text).toList.drop (kind.addressWidth + 2)) = line.bytes := by
    rw [String.toList_append, toList_columns, ← List.drop_drop, List.append_assoc,
      List.drop_left' hdigits]
    change bytesIn byteColumn ((byteText line.bytes).toList ++ [' '] ++ text.toList) = line.bytes
    rw [toList_byteText, List.append_assoc, List.append_assoc]
    exact bytesIn_flatMap_cell h _
  rw [read?, haddress, hbytes, htext, String.ofList_toList]
  rfl

/-- Lines that are printed alike say the same. -/
theorem eq_of_columns_append_eq {line' : Line ι} {text text' : String}
    (h : line.bytes.length ≤ byteColumn) (h' : line'.bytes.length ≤ byteColumn)
    (heq : line'.columns kind ++ text' = line.columns kind ++ text) :
    kind.displayAddress line'.address = kind.displayAddress line.address ∧
      line'.bytes = line.bytes ∧ text' = text := by
  have hread := read?_columns_append line' kind h' text'
  rw [heq, read?_columns_append line kind h text] at hread
  simpa [eq_comm] using hread

/-- The address of an image has a width that can be printed. -/
theorem layoutWithin_eq {ε : Type} (text : String) :
    (layoutWithin kind.addressWidth (kind.displayAddress line.address) line.bytes text :
      Except (Fault ε) String) = .ok (line.columns kind ++ text) :=
  layoutWithin_addressWidth kind _ _ text

end Line

/-- **A line of a listing can be read back.** For both kinds of images, all addresses, up to fifteen
bytes and all texts, a line is printed, and its text starts at one place, counted in characters as
well as in bytes. The line says by the places of its characters alone which address is displayed,
which bytes there are and what the text is. So no line of the same kind with other contents is
printed alike. -/
theorem Line.layout_readsBack {ε : Type} (kind : Kind) (address : UInt64) (bytes : List UInt8)
    (text : String) (h : bytes.length ≤ 15) :
    ∃ columns : String,
      (layoutWithin kind.addressWidth (kind.displayAddress address) bytes text :
        Except (Fault ε) String) = .ok (columns ++ text) ∧
      columns.length = kind.addressWidth + 2 + 45 + 1 ∧
      columns.utf8ByteSize = kind.addressWidth + 2 + 45 + 1 ∧
      read? kind (columns ++ text) = some (kind.displayAddress address, bytes, text) ∧
      ∀ (address' : UInt64) (bytes' : List UInt8) (text' : String), bytes'.length ≤ 15 →
        (layoutWithin kind.addressWidth (kind.displayAddress address') bytes' text' :
          Except (Fault ε) String) = .ok (columns ++ text) →
        kind.displayAddress address' = kind.displayAddress address ∧ bytes' = bytes ∧
          text' = text := by
  -- The columns do not depend on the instruction, so a line without one will do.
  let line : Line Empty := ⟨address, bytes, none⟩
  have hlength : (line.columns kind).length = textColumn kind := line.length_columns kind h
  refine ⟨line.columns kind, line.layoutWithin_eq kind text, hlength, ?_,
    line.read?_columns_append kind h text, ?_⟩
  · rw [utf8ByteSize_eq_length fun c => line.utf8Size_of_mem_columns kind, hlength]
    rfl
  · intro address' bytes' text' h' hprinted
    let line' : Line Empty := ⟨address', bytes', none⟩
    have hequal := (line'.layoutWithin_eq kind text').symm.trans hprinted
    exact line.eq_of_columns_append_eq kind h h' (Except.ok.inj hequal)

/-- Digits at the start of a text are not taken for one more byte. -/
theorem Line.layout_readsBack_lookalike :
    [(0x55 : UInt8)].length ≤ 15 ∧ ∃ columns : String,
      (layoutWithin 8 0x1000 [0x55] "AA" : Except (Fault Defect) String) = .ok (columns ++ "AA") ∧
      columns.length = 56 ∧ read? .pe32 (columns ++ "AA") = some (0x1000, [0x55], "AA") ∧
      (layoutWithin 8 0x1000 [0x55, 0xAA] "" : Except (Fault Defect) String) ≠
        .ok (columns ++ "AA") := by
  have hlength : [(0x55 : UInt8)].length ≤ 15 := by decide
  obtain ⟨columns, hprinted, hcolumns, -, hread, hunique⟩ :=
    Line.layout_readsBack .pe32 0x100001000 [0x55] "AA" hlength
  refine ⟨hlength, columns, hprinted, hcolumns, hread, fun hequal => ?_⟩
  obtain ⟨-, hbytes, -⟩ := hunique 0x1000 [0x55, 0xAA] "" (by decide) hequal
  cases hbytes

end PeListing
