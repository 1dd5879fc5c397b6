import Mathlib.Tactic.Common
import PeListing.Text.Utf8

/-!
# What is read from UTF-8

The reader of `Utf8.lossy` holds a character of which it has read some bytes. The bytes that it would
take next leave a range of values open for that character, from `Partial.least` up to but not including
`Partial.bound`, and each byte cuts this range into 64 parts of one size. This one picture gives both
halves of what the reader does.

* Whatever the bytes are, the ranges hold neither zero nor a surrogate nor anything that is no character
  (`Partial.Sound`). So a NUL is read only from a zero byte, and there are never more characters than
  bytes (`nul_not_mem_lossy`, `length_lossy_le`).
* The bytes of a character lead from its first byte to ranges that all hold its value
  (`resume_trail`), so encoded text is read back as it was (`lossy_toUTF8`).
-/

namespace PeListing.Utf8

/-- How many values are told apart by some bytes behind the first one. -/
def spread : Nat → Nat
  | 0 => 1
  | n + 1 => 64 * spread n

/-- Only the code point zero is the NUL. -/
theorem charOfNat_ne_nul {v : Nat} (h0 : v ≠ 0) (hv : v.isValidChar) : Char.ofNat v ≠ '\x00' := by
  intro h
  rw [Char.ofNat, dif_pos hv] at h
  exact h0 (congrArg Char.toNat h)

namespace Partial

variable (p : Partial)

/-- The least value that a character which has been begun can have. -/
def least : Nat := (p.bits * 64 + (p.low.toNat - 0x80)) * spread p.following

/-- All values that a character which has been begun can have are below this one. -/
def bound : Nat := (p.bits * 64 + (p.high.toNat - 0x80) + 1) * spread p.following

/-- A character that has been begun can only be completed to a character other than NUL. -/
structure Sound : Prop where
  /-- The next byte continues a character. -/
  low_ge : 0x80 ≤ p.low.toNat
  /-- There is a next byte. -/
  low_le_high : p.low.toNat ≤ p.high.toNat
  /-- The next byte continues a character. -/
  high_le : p.high.toNat ≤ 0xBF
  /-- No value is zero. -/
  least_pos : 0 < p.least
  /-- The values lie on one side of the surrogates. -/
  scalar : p.bound ≤ 0xD800 ∨ 0xE000 ≤ p.least ∧ p.bound ≤ 0x110000

variable {p}

/-- A byte is accepted between the two limits. -/
theorem accepts_iff {b : UInt8} :
    p.accepts b = true ↔ p.low.toNat ≤ b.toNat ∧ b.toNat ≤ p.high.toNat := by
  rw [accepts, Bool.and_eq_true, decide_eq_true_eq, decide_eq_true_eq, UInt8.le_iff_toNat_le,
    UInt8.le_iff_toNat_le]

/-- What a first byte begins, by its number. -/
theorem ofLead?_eq (b : UInt8) : ofLead? b =
    if b.toNat < 0xC2 then none
    else if b.toNat < 0xE0 then some ⟨b.toNat - 0xC0, 0, 0x80, 0xBF⟩
    else if b.toNat = 0xE0 then some ⟨0, 1, 0xA0, 0xBF⟩
    else if b.toNat = 0xED then some ⟨0xD, 1, 0x80, 0x9F⟩
    else if b.toNat < 0xF0 then some ⟨b.toNat - 0xE0, 1, 0x80, 0xBF⟩
    else if b.toNat = 0xF0 then some ⟨0, 2, 0x90, 0xBF⟩
    else if b.toNat < 0xF4 then some ⟨b.toNat - 0xF0, 2, 0x80, 0xBF⟩
    else if b.toNat = 0xF4 then some ⟨4, 2, 0x80, 0x8F⟩
    else none := by
  have hinj : ∀ c : UInt8, (b = c) = (b.toNat = c.toNat) := fun c => propext UInt8.toNat_inj.symm
  unfold ofLead?
  simp only [UInt8.lt_iff_toNat_lt, hinj]
  rfl

/-- Every first byte begins a character other than NUL. -/
theorem sound_of_ofLead? {b : UInt8} (h : ofLead? b = some p) : p.Sound := by
  rw [ofLead?_eq] at h
  split_ifs at h
  -- The ranges of the first bytes E0, ED, F0 and F4 are cut where the general ones would take in an
  -- overlong form, a surrogate or a number that is too great.
  all_goals
    simp only [Option.some.injEq] at h
    subst h
    constructor <;> simp [least, bound, spread] <;> omega

/-- Where any following byte may come, the least code point has zeros behind the bits. -/
theorem least_following (x n : Nat) : least ⟨x, n, 0x80, 0xBF⟩ = x * spread (n + 1) := by
  simp [least, spread, Nat.mul_assoc]

/-- Where any following byte may come, the code points end where the next bits begin. -/
theorem bound_following (x n : Nat) : bound ⟨x, n, 0x80, 0xBF⟩ = (x + 1) * spread (n + 1) := by
  have h : x * 64 + 63 + 1 = (x + 1) * 64 := by omega
  simp [bound, spread, h, Nat.mul_assoc]

/-- A byte that may come next leaves one part of the range open. -/
theorem Sound.part_of_accepts (h : p.Sound) {b : UInt8} (hb : p.accepts b = true) :
    p.least ≤ (p.bits * 64 + (b.toNat - 0x80)) * spread p.following ∧
      (p.bits * 64 + (b.toNat - 0x80) + 1) * spread p.following ≤ p.bound := by
  obtain ⟨hlow, hhigh⟩ := accepts_iff.mp hb
  have := h.low_ge
  exact ⟨Nat.mul_le_mul_right _ (by omega), Nat.mul_le_mul_right _ (by omega)⟩

/-- What has been begun stays sound while bytes are missing. -/
theorem Sound.following_sound (h : p.Sound) {n : Nat} (hn : p.following = n + 1) {b : UInt8}
    (hb : p.accepts b = true) : Sound ⟨p.bits * 64 + (b.toNat - 0x80), n, 0x80, 0xBF⟩ := by
  obtain ⟨hleast, hbound⟩ := h.part_of_accepts hb
  rw [hn] at hleast hbound
  have hpos := h.least_pos
  have hscalar := h.scalar
  refine ⟨by simp, by simp, by simp, ?_, ?_⟩
  · rw [least_following]
    omega
  · rw [least_following, bound_following]
    omega

/-- The last byte completes a character other than NUL. -/
theorem Sound.char_ne_nul (h : p.Sound) (hn : p.following = 0) {b : UInt8}
    (hb : p.accepts b = true) : Char.ofNat (p.bits * 64 + (b.toNat - 0x80)) ≠ '\x00' := by
  obtain ⟨hleast, hbound⟩ := h.part_of_accepts hb
  rw [hn, spread, Nat.mul_one] at hleast hbound
  have hpos := h.least_pos
  have hscalar := h.scalar
  exact charOfNat_ne_nul (by omega) (by omega)

end Partial

/-! ### Any bytes -/

section

variable {p : Partial} {b : UInt8}

/-- The last byte completes a character. -/
theorem step_last (hn : p.following = 0) (hb : p.accepts b = true) :
    step (some p) b = ([Char.ofNat (p.bits * 64 + (b.toNat - 0x80))], none) := by
  simp [step, hb, hn]

/-- A byte that is not the last adds its bits. -/
theorem step_following {n : Nat} (hn : p.following = n + 1) (hb : p.accepts b = true) :
    step (some p) b = ([], some ⟨p.bits * 64 + (b.toNat - 0x80), n, 0x80, 0xBF⟩) := by
  simp [step, hb, hn]

/-- A byte that does not fit ends the character with a replacement, and reading starts anew. -/
theorem step_rejected (hb : ¬p.accepts b = true) :
    step (some p) b = (replacement :: (start b).1, (start b).2) := by
  simp [step, hb]

end

/-- The replacement character is not the NUL. -/
theorem replacement_ne_nul : replacement ≠ '\x00' := by decide

/-- A byte starts a character or is one. -/
theorem length_start (b : UInt8) : (start b).1.length + (start b).2.toList.length = 1 := by
  unfold start
  split
  · rfl
  · split <;> rfl

/-- A byte completes no more characters than it begins or finds begun. -/
theorem length_step_le (pending : Option Partial) (b : UInt8) :
    (step pending b).1.length + (step pending b).2.toList.length ≤ pending.toList.length + 1 := by
  cases pending with
  | none => exact Nat.le_of_eq (length_start b)
  | some p =>
    by_cases hacc : p.accepts b = true
    · cases hn : p.following with
      | zero => simp [step_last hn hacc]
      | succ n => simp [step_following hn hacc]
    · have hstart := length_start b
      simp only [step_rejected hacc, List.length_cons, Option.toList_some, List.length_nil]
      omega

/-- Reading gives no more characters than there are bytes. -/
theorem length_resume_le (pending : Option Partial) (bs : List UInt8) :
    (resume pending bs).length ≤ pending.toList.length + bs.length := by
  induction bs generalizing pending with
  | nil => cases pending <;> simp [resume]
  | cons b bs ih =>
    have hstep := length_step_le pending b
    have htail := ih (step pending b).2
    simp only [resume_cons, List.length_append, List.length_cons]
    omega

/-- There are at most as many characters as bytes. -/
theorem length_lossy_le (bs : List UInt8) : (lossy bs).length ≤ bs.length := by
  simpa [lossy] using length_resume_le none bs

/-- A byte that is not zero neither is the NUL nor starts it. -/
theorem start_sound {b : UInt8} (hb : b ≠ 0) :
    '\x00' ∉ (start b).1 ∧ ∀ p ∈ (start b).2, p.Sound := by
  unfold start
  split
  case isTrue h =>
    have hpos : b.toNat ≠ 0 := fun h0 => hb (UInt8.toNat_inj.mp h0)
    have hlt := UInt8.lt_iff_toNat_lt.mp h
    have hne : Char.ofNat b.toNat ≠ '\x00' := charOfNat_ne_nul hpos (.inl (by simp at hlt; omega))
    simpa using hne.symm
  case isFalse h =>
    split
    case h_1 p hp => simpa using Partial.sound_of_ofLead? hp
    case h_2 => simpa using replacement_ne_nul.symm

/-- A byte other than zero completes no NUL. -/
theorem step_sound {pending : Option Partial} (h : ∀ p ∈ pending, p.Sound) {b : UInt8}
    (hb : b ≠ 0) :
    '\x00' ∉ (step pending b).1 ∧ ∀ p ∈ (step pending b).2, p.Sound := by
  obtain ⟨hchars, hnext⟩ := start_sound hb
  cases pending with
  | none => exact ⟨hchars, hnext⟩
  | some p =>
    have hp := h p rfl
    by_cases hacc : p.accepts b = true
    · cases hn : p.following with
      | zero => simpa [step_last hn hacc] using (hp.char_ne_nul hn hacc).symm
      | succ n => simpa [step_following hn hacc] using hp.following_sound hn hacc
    · rw [step_rejected hacc]
      refine ⟨?_, hnext⟩
      simpa [hchars] using replacement_ne_nul.symm

/-- Where no byte is zero, no character is the NUL. -/
theorem nul_not_mem_resume {pending : Option Partial} (h : ∀ p ∈ pending, p.Sound) {bs : List UInt8}
    (hbs : 0 ∉ bs) : '\x00' ∉ resume pending bs := by
  induction bs generalizing pending with
  | nil =>
    cases pending with
    | none => simp [resume]
    | some p => simpa [resume] using replacement_ne_nul.symm
  | cons b bs ih =>
    obtain ⟨hb, hbs⟩ := List.ne_and_not_mem_of_not_mem_cons hbs
    obtain ⟨hchars, hnext⟩ := step_sound h hb.symm
    rw [resume_cons, List.mem_append, not_or]
    exact ⟨hchars, ih hnext hbs⟩

/-- A NUL is read from a zero byte only. -/
theorem nul_not_mem_lossy {bs : List UInt8} (h : 0 ∉ bs) : '\x00' ∉ (lossy bs).toList := by
  rw [lossy, String.toList_ofList]
  exact nul_not_mem_resume (by simp) h

/-! ### Encoded text -/

/-- Some code points are left for any number of following bytes. -/
theorem spread_pos (n : Nat) : 0 < spread n := by
  induction n with
  | zero => decide
  | succ n ih =>
    rw [spread]
    omega

/-- The last bytes of a character, six bits of its value in each. -/
def trail : Nat → Nat → List UInt8
  | 0, _ => []
  | n + 1, v => UInt8.ofNat (v / spread n % 64 + 0x80) :: trail n v

/-- The next byte of a character whose value is in the range left open picks the part of that range
which holds the value. -/
theorem Partial.Sound.accepts_digit {p : Partial} (h : p.Sound) {v : Nat} (hleast : p.least ≤ v)
    (hbound : v < p.bound) :
    p.accepts (UInt8.ofNat (v / spread p.following % 64 + 0x80)) = true ∧
      p.bits * 64 + ((UInt8.ofNat (v / spread p.following % 64 + 0x80)).toNat - 0x80) =
        v / spread p.following := by
  have hlow := h.low_ge
  have hmid := h.low_le_high
  have hhigh := h.high_le
  have hfrom : p.bits * 64 + (p.low.toNat - 0x80) ≤ v / spread p.following :=
    (Nat.le_div_iff_mul_le (spread_pos _)).mpr hleast
  have hto : v / spread p.following < p.bits * 64 + (p.high.toNat - 0x80) + 1 :=
    (Nat.div_lt_iff_lt_mul (spread_pos _)).mpr hbound
  have hbyte : (UInt8.ofNat (v / spread p.following % 64 + 0x80)).toNat =
      v / spread p.following - p.bits * 64 + 0x80 := by
    rw [UInt8.toNat_ofNat']
    omega
  rw [accepts_iff, hbyte]
  omega

/-- The last bytes of a character whose value is in the range left open complete that character. -/
theorem resume_trail {p : Partial} {n v : Nat} (hn : p.following = n) (h : p.Sound)
    (hleast : p.least ≤ v) (hbound : v < p.bound) (bs : List UInt8) :
    resume (some p) (trail (n + 1) v ++ bs) = Char.ofNat v :: resume none bs := by
  -- On how many bytes are missing: the part that a byte picks is the range of the next state.
  induction n generalizing p with
  | zero =>
    obtain ⟨hacc, hbits⟩ := h.accepts_digit hleast hbound
    rw [hn] at hacc hbits
    rw [trail, trail, List.cons_append, resume_cons, step_last hn hacc, hbits, spread, Nat.div_one]
    rfl
  | succ n ih =>
    obtain ⟨hacc, hbits⟩ := h.accepts_digit hleast hbound
    rw [hn] at hacc hbits
    have hnext := h.following_sound hn hacc
    rw [trail, List.cons_append, resume_cons, step_following hn hacc, List.nil_append]
    rw [hbits] at hnext ⊢
    refine ih rfl hnext ?_ ?_
    · rw [Partial.least_following]
      exact Nat.div_mul_le_self v _
    · rw [Partial.bound_following]
      exact Nat.mul_comm _ _ ▸ Nat.lt_mul_div_succ v (spread_pos _)

/-- The first byte of a character that takes several begins a character whose range holds its value,
by the number of bytes. -/
theorem exists_ofLead?_of_lt_0x800 {v : Nat} {b : UInt8} (hv : 0x80 ≤ v) (hlt : v < 0x800)
    (hb : b.toNat = v / 64 + 0xC0) :
    ∃ p, Partial.ofLead? b = some p ∧ p.following = 0 ∧ p.least ≤ v ∧ v < p.bound := by
  refine ⟨⟨v / 64, 0, 0x80, 0xBF⟩, ?_, rfl, ?_, ?_⟩
  · rw [Partial.ofLead?_eq, hb]
    simp (disch := omega) only [if_pos, if_neg, Nat.add_sub_cancel]
  · simp only [Partial.least_following, spread]
    omega
  · simp only [Partial.bound_following, spread]
    omega

/-- The first of three bytes tells its code points. -/
theorem exists_ofLead?_of_lt_0x10000 {v : Nat} {b : UInt8} (hv : 0x800 ≤ v)
    (hlt : v < 0xD800 ∨ 0xDFFF < v ∧ v < 0x10000) (hb : b.toNat = v / 4096 + 0xE0) :
    ∃ p, Partial.ofLead? b = some p ∧ p.following = 1 ∧ p.least ≤ v ∧ v < p.bound := by
  rw [Partial.ofLead?_eq, hb]
  -- Behind E0 an overlong form is ruled out, and behind ED a surrogate.
  obtain h | h | ⟨h, h'⟩ : v / 4096 = 0 ∨ v / 4096 = 0xD ∨ v / 4096 ≠ 0 ∧ v / 4096 ≠ 0xD := by omega
  all_goals
    simp (disch := omega) only [if_pos, if_neg, Nat.add_sub_cancel]
    refine ⟨_, rfl, rfl, ?_, ?_⟩
    · simp [Partial.least, spread]
      omega
    · simp [Partial.bound, spread]
      omega

/-- The first of four bytes tells its code points. -/
theorem exists_ofLead?_of_ge_0x10000 {v : Nat} {b : UInt8} (hv : 0x10000 ≤ v) (hlt : v < 0x110000)
    (hb : b.toNat = v / 262144 + 0xF0) :
    ∃ p, Partial.ofLead? b = some p ∧ p.following = 2 ∧ p.least ≤ v ∧ v < p.bound := by
  rw [Partial.ofLead?_eq, hb]
  -- Behind F0 an overlong form is ruled out, and behind F4 what is past the last character.
  obtain h | h | ⟨h, h'⟩ : v / 262144 = 0 ∨ v / 262144 = 4 ∨ v / 262144 ≠ 0 ∧ v / 262144 ≠ 4 := by
    omega
  all_goals
    simp (disch := omega) only [if_pos, if_neg, Nat.add_sub_cancel]
    refine ⟨_, rfl, rfl, ?_, ?_⟩
    · simp [Partial.least, spread]
      omega
    · simp [Partial.bound, spread]
      omega

/-- A byte below 128 is a character. -/
theorem start_of_lt {b : UInt8} (hb : b.toNat < 0x80) : start b = ([Char.ofNat b.toNat], none) := by
  rw [start, if_pos (UInt8.lt_iff_toNat_lt.mpr hb)]

/-- A byte that leads leaves the character unfinished. -/
theorem start_of_ofLead? {b : UInt8} {p : Partial} (hp : Partial.ofLead? b = some p) :
    start b = ([], some p) := by
  have hb : ¬b < 0x80 := by
    intro h
    rw [Partial.ofLead?, if_pos (UInt8.lt_trans h (by decide))] at hp
    cases hp
  rw [start, if_neg hb, hp]

/-- The bytes of a character that takes several are read as that character. -/
theorem resume_lead {b : UInt8} {n v : Nat}
    (h : ∃ p, Partial.ofLead? b = some p ∧ p.following = n ∧ p.least ≤ v ∧ v < p.bound)
    (bs : List UInt8) :
    resume none (b :: (trail (n + 1) v ++ bs)) = Char.ofNat v :: resume none bs := by
  obtain ⟨p, hp, hn, hleast, hbound⟩ := h
  rw [resume_cons, step, start_of_ofLead? hp, List.nil_append]
  exact resume_trail hn (Partial.sound_of_ofLead? hp) hleast hbound bs

/-- The bytes of a character are read as that character. -/
theorem resume_utf8EncodeChar (c : Char) (bs : List UInt8) :
    resume none (String.utf8EncodeChar c ++ bs) = c :: resume none bs := by
  have hval : c.val.toNat = c.toNat := rfl
  have hvalid : c.toNat < 0xD800 ∨ 0xDFFF < c.toNat ∧ c.toNat < 0x110000 := c.valid
  conv_rhs => rw [← Char.ofNat_toNat c]
  unfold String.utf8EncodeChar
  simp only [hval]
  generalize c.toNat = v at hvalid ⊢
  -- One case for each number of bytes. The first byte is read as what begins such a character, and the
  -- others are its trail.
  split_ifs with h1 h2 h3
  · have hb : (UInt8.ofNat v).toNat = v := by
      rw [UInt8.toNat_ofNat']
      omega
    rw [List.cons_append, resume_cons, step, start_of_lt (by omega), hb]
    rfl
  · have hb : (UInt8.ofNat (v / 64 % 0x20 + 0xC0)).toNat = v / 64 + 0xC0 := by
      rw [UInt8.toNat_ofNat']
      omega
    simpa [trail, spread] using
      resume_lead (exists_ofLead?_of_lt_0x800 (by omega) (by omega) hb) bs
  · have hb : (UInt8.ofNat (v / 4096 % 0x10 + 0xE0)).toNat = v / 4096 + 0xE0 := by
      rw [UInt8.toNat_ofNat']
      omega
    simpa [trail, spread] using
      resume_lead (exists_ofLead?_of_lt_0x10000 (by omega) (by omega) hb) bs
  · have hb : (UInt8.ofNat (v / 262144 % 0x08 + 0xF0)).toNat = v / 262144 + 0xF0 := by
      rw [UInt8.toNat_ofNat']
      omega
    simpa [trail, spread] using
      resume_lead (exists_ofLead?_of_ge_0x10000 (by omega) (by omega) hb) bs

/-- The bytes of a text are read back as the text. -/
theorem resume_flatMap_utf8EncodeChar (cs : List Char) :
    resume none (cs.flatMap String.utf8EncodeChar) = cs := by
  induction cs with
  | nil => rfl
  | cons c cs ih => rw [List.flatMap_cons, resume_utf8EncodeChar, ih]

/-- Encoded text is read back as it was. -/
theorem lossy_toUTF8 (s : String) : lossy s.toUTF8.data.toList = s := by
  obtain ⟨cs, rfl⟩ : ∃ cs, s = String.ofList cs := ⟨s.toList, (String.ofList_toList).symm⟩
  rw [String.toUTF8_eq_toByteArray, String.toByteArray_ofList, List.utf8Encode,
    List.toList_data_toByteArray, lossy, resume_flatMap_utf8EncodeChar]

end PeListing.Utf8
