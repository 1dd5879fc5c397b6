import Mathlib.Order.Bounds.Basic
import PeListing.Proofs.InRange

/-!
# From an address to a file offset

The lookups of an image are functions of the first section whose span holds an address. Here the span
is tied to what it is meant to be: the least multiple of the file alignment that is not below the
smaller of the two sizes of a section, for every alignment (`Section.isSpan_iff`).
`Image.translation_exact` then says what the three lookups give without the arithmetic that they do.
-/

namespace PeListing

/-- Rounding up gives the least multiple that is not below the value. -/
theorem isLeast_roundUp (value : Nat) {alignment : Nat} (h : 0 < alignment) :
    IsLeast {m | value ≤ m ∧ alignment ∣ m} (roundUp value alignment) := by
  constructor
  · refine ⟨le_roundUp value alignment, ?_⟩
    rw [roundUp, if_neg (Nat.ne_of_gt h)]
    exact Nat.dvd_mul_left _ _
  · rintro m ⟨hle, k, rfl⟩
    have hquotient : (value + alignment - 1) / alignment < k + 1 := by
      apply Nat.div_lt_of_lt_mul
      rw [Nat.mul_add]
      omega
    rw [roundUp, if_neg (Nat.ne_of_gt h), Nat.mul_comm alignment k]
    exact Nat.mul_le_mul_right alignment (Nat.le_of_lt_succ hquotient)

namespace Section

variable (s : Section) (alignment : UInt32)

/-- The span is the least multiple of the file alignment that is not below the smaller of the two
sizes, and that size itself if the alignment is zero. A size of zero in memory counts for nothing. -/
def IsSpan (n : Nat) : Prop :=
  let size := if s.virtualSize = 0 then s.rawSize.toNat
    else min s.rawSize.toNat s.virtualSize.toNat
  if alignment = 0 then n = size else IsLeast {m | size ≤ m ∧ alignment.toNat ∣ m} n

/-- The extent of a section by its two sizes. -/
theorem extent_eq : s.extent =
    if s.virtualSize = 0 then s.rawSize.toNat else min s.rawSize.toNat s.virtualSize.toNat := by
  have hzero : s.virtualSize = 0 ↔ ¬ 0 < s.virtualSize.toNat := by
    rw [← UInt32.toNat_inj]
    simp
  unfold extent
  split <;> simp_all

/-- A section has one span, the one that is computed. -/
theorem isSpan_iff {n : Nat} : s.IsSpan alignment n ↔ n = s.span alignment := by
  unfold IsSpan span
  rw [← extent_eq]
  dsimp only
  split
  · next hzero => rw [hzero, UInt32.toNat_zero, roundUp_zero]
  · next hne =>
    have hpos : 0 < alignment.toNat := by
      rw [Nat.pos_iff_ne_zero]
      exact fun hzero => hne (UInt32.toNat_inj.mp hzero)
    have hleast := isLeast_roundUp s.extent hpos
    constructor
    · intro h
      exact h.unique hleast
    · rintro rfl
      exact hleast

end Section

/-- The section table of an image has the alignment that its headers give. -/
theorem Image.alignment_of_read {b : Buffer} {image : Image} (h : Image.read b = .ok image) :
    image.sectionTable.alignment = image.nt.optional.fileAlignment := by
  unfold Image.read at h
  obtain ⟨dos, -, h⟩ := exists_ok_of_bind h
  obtain ⟨nt, -, h⟩ := exists_ok_of_bind h
  obtain ⟨headerSize, -, h⟩ := exists_ok_of_bind h
  split at h
  · obtain ⟨sections, -, h⟩ := exists_ok_of_bind h
    cases h
    rfl
  · cases h

/-- What the search for an element with some property comes to: the first one in the list, or nothing
if there is none. -/
def IsFirst {α : Type} (p : α → Prop) (l : List α) : Option α → Prop
  | some a => p a ∧ ∃ before behind, l = before ++ a :: behind ∧ ∀ x ∈ before, ¬ p x
  | none => ∀ x ∈ l, ¬ p x

/-- A search finds the first element of a kind. -/
theorem isFirst_find? {α : Type} {p q : α → Prop} [DecidablePred p] (h : ∀ a, p a ↔ q a)
    (l : List α) : IsFirst q l (l.find? fun a => p a) := by
  cases hfind : l.find? fun a => decide (p a) with
  | none =>
    intro x hx
    simpa [h] using List.find?_eq_none.mp hfind x hx
  | some a =>
    obtain ⟨ha, before, behind, hl, hbefore⟩ := List.find?_eq_some_iff_append.mp hfind
    refine ⟨(h a).mp (of_decide_eq_true ha), before, behind, hl, fun x hx => ?_⟩
    simpa [h] using hbefore x hx

/-- **Addresses are translated exactly.** Consider the first section in the order of the table that has
an address in its span, as unbounded numbers. The lookup of sections gives this section. The address
resolves to the offset that is as far behind the section's data as the address is behind the section's,
if the file reaches that far. If it does not, the offset is out of bounds, and if no section has the
address, it is unresolved. The lookup of offsets finds an offset exactly where the address resolves,
and the same one. -/
theorem Image.translation_exact {b : Buffer} {image : Image} (hread : Image.read b = .ok image)
    (rva : UInt64) :
    ∃ found : Option Section,
      IsFirst (fun s => ∃ span, s.IsSpan image.nt.optional.fileAlignment span ∧
        s.virtualAddress.toNat ≤ rva.toNat ∧ rva.toNat < s.virtualAddress.toNat + span)
        image.sections found ∧
      (image.sectionFor rva.toNat : Except (Fault Defect) (Option Section)) = .ok found ∧
      image.resolve rva.toNat = (match found with
        | none => .error (.defect (.unresolvedRva rva.toNat))
        | some s =>
          let offset := s.rawOffset.toNat + (rva.toNat - s.virtualAddress.toNat)
          if offset < b.size then .ok offset else .error (.defect (.outOfBounds offset b.size))) ∧
      (image.offsetFor rva.toNat : Except (Fault Defect) (Option Nat)) =
        .ok (image.resolve rva.toNat).toOption := by
  obtain ⟨rfl, -⟩ := (Image.read_yields b).of_ok hread
  refine ⟨image.sectionTable.holder? rva.toNat, ?_, image.sectionTable.sectionFor_eq rva.toNat,
    image.resolve_eq rva.toNat, image.offsetFor_eq_toOption rva.toNat⟩
  rw [← Image.alignment_of_read hread]
  refine isFirst_find? (fun s => ?_) image.sections
  simp [Section.isSpan_iff, Section.Holds]

namespace Sample

/-- A file with three sections and an alignment of 24. The first section is empty. The second has 10
bytes at 0x1010, which make a span of 24, and the third 48 bytes at 0x1000, of which the file has 20.
The first and the third hold code, one instruction for each byte. -/
def overlappedBuffer : Buffer where
  bytes := ⟨List.toArray (start 0x14C 3 96 ++
    -- the optional header
    word 2 0x10B ++ gap 34 ++ word 4 24 ++ gap 56 ++
    -- the section table and the bytes of the last two sections
    record 0 0x1000 0 304 0x20 ++ record 10 0x1010 20 304 0 ++ record 0 0x1000 48 308 0x20 ++
    (List.range' 0x48 24).map UInt8.ofNat)⟩
  size_lt := by decide +kernel

end Sample

/-- The second section has the addresses that it shares with the third, also those behind its own
bytes. -/
theorem Image.translation_exact_overlapped :
    ∃ image : Image, Image.read Sample.overlappedBuffer = .ok image ∧
      image.resolve 0x1027 = .ok 327 ∧
      (image.offsetFor 0x1027 : Except (Fault Defect) (Option Nat)) = .ok (some 327) := by
  have hfacts : (Image.read Sample.overlappedBuffer).toOption.map
      (fun image => image.resolve 0x1027) = some (.ok 327) := by decide +kernel
  obtain ⟨image, hread, hresolve⟩ := Sample.exists_read_of_map hfacts
  obtain ⟨-, -, -, -, hoffset⟩ := Image.translation_exact hread 0x1027
  refine ⟨image, hread, hresolve, hoffset.trans ?_⟩
  change Except.ok (image.resolve 0x1027).toOption = _
  rw [hresolve]
  rfl

end PeListing
