import PeListing.Text.Numeral

/-!
# Hexadecimal digits are read back

A number is written with hexadecimal digits of either case, behind zeros where it has a least
width. Neither the case of the letters nor the zeros in front change what is read, so the number
comes back, and a number that fits into the width takes exactly as many digits.
-/

namespace PeListing.Numeral

/-! ### Single digits -/

/-- A digit has its value. -/
theorem hexValue?_digitChar : ∀ d, d < 16 → hexValue? d.digitChar = some d := by decide

/-- A capital digit has its value. -/
theorem hexValue?_toUpper_digitChar : ∀ d, d < 16 → hexValue? d.digitChar.toUpper = some d := by
  decide

/-- A capital digit is of ASCII. -/
theorem utf8Size_toUpper_digitChar : ∀ d, d < 16 → d.digitChar.toUpper.utf8Size = 1 := by decide

/-- The digits of a number are those of numbers below sixteen. -/
theorem exists_digitChar_of_mem_hexDigits {n : Nat} {c : Char} (h : c ∈ hexDigits n) :
    ∃ d, d < 16 ∧ c = d.digitChar := by
  unfold hexDigits at h
  induction n using Nat.strongRecOn with
  | ind n ih =>
    rcases Nat.lt_or_ge n 16 with hlt | hge
    · rw [Nat.toDigits_of_lt_base hlt, List.mem_singleton] at h
      exact ⟨n, hlt, h⟩
    · rw [Nat.toDigits_of_base_le (by decide) hge, List.mem_append, List.mem_singleton] at h
      rcases h with h | h
      · exact ih (n / 16) (by omega) h
      · exact ⟨n % 16, Nat.mod_lt _ (by decide), h⟩

/-! ### Reading -/

/-- A digit more multiplies the value by sixteen. -/
theorem ofHex?_concat (digits : List Char) (c : Char) :
    ofHex? (digits ++ [c]) = (ofHex? digits).bind fun n => (hexValue? c).map (16 * n + ·) := by
  simp [ofHex?, List.foldlM_append]

/-- The digits of a number are read as that number, in any way of writing them that keeps their
values. -/
theorem ofHex?_map_hexDigits {write : Char → Char}
    (hwrite : ∀ d, d < 16 → hexValue? (write d.digitChar) = some d) (n : Nat) :
    ofHex? ((hexDigits n).map write) = some n := by
  unfold hexDigits
  -- The last digit is the remainder, and the digits before it are those of the quotient.
  induction n using Nat.strongRecOn with
  | ind n ih =>
    rcases Nat.lt_or_ge n 16 with hlt | hge
    · simp [Nat.toDigits_of_lt_base hlt, ofHex?, hwrite n hlt]
    · have hlast := hwrite (n % 16) (Nat.mod_lt _ (by decide))
      rw [Nat.toDigits_of_base_le (by decide) hge, List.map_append, List.map_singleton,
        ofHex?_concat, ih (n / 16) (by omega), hlast]
      simp [Nat.div_add_mod]

/-- Zeros in front do not change the value. -/
theorem ofHex?_zeroPad (width : Nat) (digits : List Char) :
    ofHex? (zeroPad width digits) = ofHex? digits := by
  unfold zeroPad
  induction width - digits.length with
  | zero => rfl
  | succ count ih => simpa [List.replicate_succ, ofHex?, hexValue?] using ih

/-- A padded numeral has its value. -/
theorem ofHex?_zeroPad_hexDigits (width n : Nat) :
    ofHex? (zeroPad width (hexDigits n)) = some n := by
  have hread := @ofHex?_map_hexDigits id hexValue?_digitChar n
  rwa [List.map_id, ← ofHex?_zeroPad width] at hread

/-- A padded numeral in capitals has its value. -/
theorem ofHex?_zeroPad_upperHexDigits (width n : Nat) :
    ofHex? (zeroPad width (upperHexDigits n)) = some n := by
  rw [ofHex?_zeroPad]
  exact ofHex?_map_hexDigits hexValue?_toUpper_digitChar n

/-! ### Numbers of a fixed width -/

/-- A number that fits has no more digits than the width. -/
theorem length_hexDigits_le {width n : Nat} (hpos : 0 < width) (h : n < 1 <<< (4 * width)) :
    (hexDigits n).length ≤ width := by
  rw [Nat.one_shiftLeft, Nat.pow_mul] at h
  exact (Nat.length_toDigits_le_iff (by decide) hpos).mpr h

/-- A number that fits is padded to the width. -/
theorem length_zeroPad_hexDigits {width n : Nat} (hpos : 0 < width) (h : n < 1 <<< (4 * width)) :
    (zeroPad width (hexDigits n)).length = width := by
  rw [length_zeroPad, Nat.max_eq_left (length_hexDigits_le hpos h)]

/-- A number that fits is padded to the width in capitals. -/
theorem length_zeroPad_upperHexDigits {width n : Nat} (hpos : 0 < width)
    (h : n < 1 <<< (4 * width)) : (zeroPad width (upperHexDigits n)).length = width := by
  rw [length_zeroPad, upperHexDigits, List.length_map, Nat.max_eq_left (length_hexDigits_le hpos h)]

/-- The digits of a numeral in capitals are of ASCII. -/
theorem utf8Size_of_mem_upperHex {width n : Nat} {c : Char}
    (h : c ∈ zeroPad width (upperHexDigits n)) : c.utf8Size = 1 := by
  rcases List.mem_append.mp h with hzero | hdigit
  · rw [List.eq_of_mem_replicate hzero]
    rfl
  · obtain ⟨lower, hlower, rfl⟩ := List.mem_map.mp hdigit
    obtain ⟨d, hd, rfl⟩ := exists_digitChar_of_mem_hexDigits hlower
    exact utf8Size_toUpper_digitChar d hd

end PeListing.Numeral
