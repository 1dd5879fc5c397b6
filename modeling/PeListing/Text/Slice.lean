/-!
# Slices by bytes

A slice of a text lies between two positions that count bytes of UTF-8. A position inside a
character cuts nothing: there is no slice then. Positions that are found by measuring a beginning of
the text always cut (`slice?_append`).
-/

namespace PeListing.Text

/-- How many bytes of UTF-8 characters take. -/
def byteLength : List Char → Nat
  | [] => 0
  | c :: cs => c.utf8Size + byteLength cs

/-- What stands behind a number of bytes. -/
def dropBytes? : Nat → List Char → Option (List Char)
  | 0, cs => some cs
  | _ + 1, [] => none
  | n + 1, c :: cs => if c.utf8Size ≤ n + 1 then dropBytes? (n + 1 - c.utf8Size) cs else none

/-- What the first bytes are, of a given number. -/
def takeBytes? : Nat → List Char → Option (List Char)
  | 0, _ => some []
  | _ + 1, [] => none
  | n + 1, c :: cs =>
    if c.utf8Size ≤ n + 1 then (takeBytes? (n + 1 - c.utf8Size) cs).map (c :: ·) else none

/-- What stands between two positions. -/
def slice? (cs : List Char) (start stop : Nat) : Option (List Char) :=
  (dropBytes? start cs).bind (takeBytes? (stop - start))

/-- The position of the last occurrence of a character. -/
def lastPosition? (c : Char) : List Char → Option Nat
  | [] => none
  | first :: cs =>
    match lastPosition? c cs with
    | some position => some (first.utf8Size + position)
    | none => if first = c then some 0 else none

/-- What is dropped is a beginning of the text, if it has that many bytes. -/
theorem dropBytes?_append (before cs : List Char) :
    dropBytes? (byteLength before) (before ++ cs) = some cs := by
  induction before with
  | nil => cases cs <;> rfl
  | cons c before ih =>
    have := c.utf8Size_pos
    obtain ⟨n, hn⟩ : ∃ n, byteLength (c :: before) = n + 1 :=
      ⟨byteLength (c :: before) - 1, by simp only [byteLength]; omega⟩
    rw [hn, List.cons_append, dropBytes?, ← hn]
    simp [byteLength, ih]

/-- What is taken is a beginning of the text, if it has that many bytes. -/
theorem takeBytes?_append (between cs : List Char) :
    takeBytes? (byteLength between) (between ++ cs) = some between := by
  induction between with
  | nil => cases cs <;> rfl
  | cons c between ih =>
    have := c.utf8Size_pos
    obtain ⟨n, hn⟩ : ∃ n, byteLength (c :: between) = n + 1 :=
      ⟨byteLength (c :: between) - 1, by simp only [byteLength]; omega⟩
    rw [hn, List.cons_append, takeBytes?, ← hn]
    simp [byteLength, ih]

/-- What stands between two measured beginnings of a text is its slice between their lengths. -/
theorem slice?_append (before between cs : List Char) :
    slice? (before ++ (between ++ cs)) (byteLength before)
      (byteLength before + byteLength between) = some between := by
  simp [slice?, dropBytes?_append, takeBytes?_append]

/-- A character that does not occur has no last position. -/
theorem lastPosition?_of_not_mem {c : Char} {cs : List Char} (h : c ∉ cs) :
    lastPosition? c cs = none := by
  induction cs with
  | nil => rfl
  | cons first cs ih =>
    rw [List.mem_cons, not_or] at h
    simp [lastPosition?, ih h.2, Ne.symm h.1]

/-- The last position of a character is the length of what stands before its last occurrence. -/
theorem lastPosition?_append {c : Char} (before : List Char) {behind : List Char} (h : c ∉ behind) :
    lastPosition? c (before ++ c :: behind) = some (byteLength before) := by
  induction before with
  | nil => simp [lastPosition?, lastPosition?_of_not_mem h, byteLength]
  | cons first before ih => simp [lastPosition?, ih, byteLength]

end PeListing.Text
