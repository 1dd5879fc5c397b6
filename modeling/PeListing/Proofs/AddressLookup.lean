import PeListing.Image.Basic

/-!
# Lookups of addresses

A section takes up a *span* of addresses from its own on: its extent, rounded up to the file alignment.
Sections may overlap, and then the first one of the table has an address (`SectionTable.holder?`).

The lookups compute this with sums, products and differences of words. Every number in them comes from
a field of 32 bits, so none leaves its range, and each lookup is equal to a plain function of the first
section whose span holds the address: `SectionTable.sectionFor_eq`, `Image.resolve_eq` and
`Image.offsetFor_eq_toOption`.
-/

namespace PeListing

variable {ε : Type}

/-- A word of 32 bits is below its limit. -/
theorem lt_two_pow_32 (n : UInt32) : n.toNat < 0x100000000 := n.toNat_lt

/-! ### Rounding up -/

/-- A value rounded up to an alignment, as unbounded numbers. -/
def roundUp (value alignment : Nat) : Nat :=
  if alignment = 0 then value else (value + alignment - 1) / alignment * alignment

/-- Without an alignment a value stays as it is. -/
theorem roundUp_zero (value : Nat) : roundUp value 0 = value := rfl

/-- Rounding up makes no value smaller. -/
theorem le_roundUp (value alignment : Nat) : value ≤ roundUp value alignment := by
  unfold roundUp
  split
  · exact Nat.le_refl value
  · next hne =>
    have hdiv := Nat.div_add_mod (value + alignment - 1) alignment
    have hmod := Nat.mod_lt (value + alignment - 1) (Nat.pos_of_ne_zero hne)
    rw [Nat.mul_comm] at hdiv
    omega

/-- A value of 32 bits stays below `2 ^ 33` when it is rounded up. -/
theorem roundUp_lt {value alignment : Nat} (hvalue : value < 0x100000000)
    (halignment : alignment < 0x100000000) : roundUp value alignment < 0x200000000 := by
  unfold roundUp
  split
  · omega
  · have hle := Nat.div_mul_le_self (value + alignment - 1) alignment
    omega

/-- A value that can be rounded up within a word is rounded up. -/
theorem alignUp_eq {value alignment : Nat} (h : roundUp value alignment < Word.limit) :
    (alignUp value alignment : Except (Fault ε) Nat) = .ok (roundUp value alignment) := by
  unfold roundUp at h ⊢
  unfold alignUp
  split
  · rfl
  · next hne =>
    rw [if_neg hne] at h
    exact Word.mul_of_lt h

/-! ### Sections -/

namespace Section

variable (s : Section) (alignment : UInt32) (rva : Nat)

/-- The extent of a section fits into 32 bits. -/
theorem extent_lt : s.extent < 0x100000000 := by
  have hraw := lt_two_pow_32 s.rawSize
  unfold extent
  split <;> omega

/-- How many addresses a section takes up. -/
def span : Nat := roundUp s.extent alignment.toNat

/-- The span of a section stays below `2 ^ 33`. -/
theorem span_lt : s.span alignment < 0x200000000 :=
  roundUp_lt s.extent_lt (lt_two_pow_32 alignment)

/-- An address lies in the span of a section. -/
def Holds : Prop :=
  s.virtualAddress.toNat ≤ rva ∧ rva < s.virtualAddress.toNat + s.span alignment

instance : Decidable (s.Holds alignment rva) := inferInstanceAs (Decidable (_ ∧ _))

/-- Whether a section covers an address is decided without an overflow. -/
theorem covers_eq : (s.covers alignment rva : Except (Fault ε) Bool) =
    .ok (decide (s.Holds alignment rva)) := by
  have hlimit : Word.limit = 0x10000000000000000 := rfl
  have haddress := lt_two_pow_32 s.virtualAddress
  have hspan := s.span_lt alignment
  have hrounded : (s.roundedExtent alignment : Except (Fault ε) Nat) = .ok (s.span alignment) := by
    rw [s.roundedExtent_eq]
    exact alignUp_eq (Nat.lt_trans hspan (by decide))
  unfold covers Holds
  by_cases hle : s.virtualAddress.toNat ≤ rva
  · rw [if_pos hle, hrounded]
    change (Word.add _ _ >>= fun stop => _) = _
    rw [Word.add_of_lt (by omega)]
    simp only [hle, true_and]
    rfl
  · simp only [hle, if_false, false_and, decide_false]
    rfl

/-- The file offset of an address in a section, whether or not the file reaches that far. -/
def offsetOf : Nat := s.rawOffset.toNat + (rva - s.virtualAddress.toNat)

end Section

namespace SectionTable

variable (t : SectionTable) (rva : Nat)

/-- The first section whose span holds an address. -/
def holder? : Option Section := t.sections.find? fun s => s.Holds t.alignment rva

/-- The section that is found holds the address. -/
theorem holds_of_holder? {t : SectionTable} {rva : Nat} {s : Section}
    (h : t.holder? rva = some s) : s.Holds t.alignment rva := by
  have hdecided := List.find?_some h
  exact of_decide_eq_true hdecided

/-- The search for a section finds the first that holds the address. -/
theorem sectionFor_eq : (t.sectionFor rva : Except (Fault ε) (Option Section)) =
    .ok (t.holder? rva) := by
  unfold sectionFor holder?
  simp only [Section.covers_eq]
  exact List.findM?_pure _ _

/-- The offset of an address is taken from the first section that holds it. -/
theorem offsetFor_eq : (t.offsetFor rva : Except (Fault ε) (Option Nat)) =
    .ok ((t.holder? rva).map fun s => s.offsetOf rva) := by
  have hlimit : Word.limit = 0x10000000000000000 := rfl
  unfold offsetFor
  rw [sectionFor_eq]
  cases hfound : t.holder? rva with
  | none => rfl
  | some s =>
    obtain ⟨hle, hlt⟩ := holds_of_holder? hfound
    have hspan := s.span_lt t.alignment
    have haddress := lt_two_pow_32 s.virtualAddress
    have hraw := lt_two_pow_32 s.rawOffset
    change (Word.sub _ _ >>= fun inside => _) = _
    rw [Word.sub_of_le hle]
    change (Word.add _ _ >>= fun offset => _) = _
    rw [Word.add_of_lt (by omega)]
    rfl

end SectionTable

/-! ### Images -/

/-- One byte lies inside a buffer just when its position does. -/
theorem Buffer.checkBounds_one (b : Buffer) (offset : Nat) :
    checkBounds offset 1 b.size =
      if offset < b.size then .ok () else .error (.outOfBounds offset b.size) := by
  have hlimit : Word.limit = 0x10000000000000000 := rfl
  have hsize : b.size < 0x8000000000000000 := b.size_lt
  unfold checkBounds Word.add?
  by_cases hlt : offset < b.size
  · have hfits : offset + 1 < Word.limit := by omega
    simp [hlt, hfits, Nat.succ_le_of_lt hlt]
  · by_cases hfits : offset + 1 < Word.limit
    · have hnot : ¬ offset + 1 ≤ b.size := by omega
      simp [hlt, hfits, hnot]
    · simp [hlt, hfits]

namespace Image

variable (image : Image) (rva : Nat)

/-- An address is resolved through the first section that holds it, as far as the buffer reaches. -/
theorem resolve_eq : image.resolve rva =
    match image.sectionTable.holder? rva with
    | none => .error (.defect (.unresolvedRva rva))
    | some s =>
      if s.offsetOf rva < image.buffer.size then .ok (s.offsetOf rva)
      else .error (.defect (.outOfBounds (s.offsetOf rva) image.buffer.size)) := by
  unfold resolve
  rw [SectionTable.offsetFor_eq]
  cases image.sectionTable.holder? rva with
  | none => rfl
  | some s =>
    change ((liftM (checkBounds (s.offsetOf rva) 1 image.buffer.size) : Except (Fault Defect) Unit)
      >>= fun _ => _) = _
    rw [image.buffer.checkBounds_one]
    dsimp only
    split <;> rfl

/-- An address has a file offset exactly if it resolves. -/
theorem offsetFor_eq_toOption : (image.offsetFor rva : Except (Fault ε) (Option Nat)) =
    .ok (image.resolve rva).toOption := by
  unfold offsetFor
  rw [SectionTable.offsetFor_eq, resolve_eq]
  cases image.sectionTable.holder? rva with
  | none => rfl
  | some s =>
    change Except.ok ((some (s.offsetOf rva)).filter _) = _
    dsimp only
    by_cases hlt : s.offsetOf rva < image.buffer.size
    · simp [hlt, Except.toOption]
    · simp [hlt, Except.toOption, Nat.le_of_not_lt hlt]

end Image

end PeListing
