/-!
# Sixty-four-bit arithmetic

Offsets, sizes and relative virtual addresses are natural numbers below `2 ^ 64`. This file says
what becomes of a sum, a product or a difference that leaves that range.

* `Word.add?` and `Word.mul?` give no value.
* `Word.add`, `Word.mul` and `Word.sub` stop the computation with `Fault.overflow`, and so does
  `Word.add32` for words of 32 bits. A position that lies outside what it selects from stops it with
  `Fault.outOfRange`. Both stand apart from a defect of the input: no error policy may swallow them.
* `Word.satAdd` stays at the largest word.
-/

namespace PeListing

/-- Why a computation ends without an answer: its input has a defect, or a number on the way left
the range that it must stay in. -/
inductive Fault (ε : Type) where
  /-- The input is defective. -/
  | defect (cause : ε)
  /-- A number does not fit into the word that must hold it. -/
  | overflow
  /-- A position lies outside what it selects from. -/
  | outOfRange
  deriving DecidableEq, Repr

/-- A computation that can only fail for a defect of its input is one that may also overflow. -/
def Fault.lift {ε α : Type} : Except ε α → Except (Fault ε) α
  | .ok a => .ok a
  | .error e => .error (.defect e)

@[simp] theorem Fault.lift_ok {ε α : Type} (a : α) :
    Fault.lift (.ok a : Except ε α) = .ok a := rfl

/-- A defect is lifted to the fault of that defect. -/
@[simp] theorem Fault.lift_error {ε α : Type} (e : ε) :
    Fault.lift (.error e : Except ε α) = .error (.defect e) := rfl

instance {ε : Type} : MonadLift (Except ε) (Except (Fault ε)) := ⟨Fault.lift⟩

/-- A computation in sequence that ends in a value: so does its first step, and the second goes on from
that value. -/
theorem exists_ok_of_bind {ε α β : Type} {x : Except ε α} {f : α → Except ε β} {b : β}
    (h : x >>= f = .ok b) : ∃ a, x = .ok a ∧ f a = .ok b := by
  cases x with
  | error cause => cases h
  | ok a => exact ⟨a, rfl, h⟩

namespace Word

/-- Words are the natural numbers below this bound. -/
def limit : Nat := 0x10000000000000000

/-- The sum of two words, if it is a word. -/
def add? (a b : Nat) : Option Nat := if a + b < limit then some (a + b) else none

/-- The product of two words, if it is a word. -/
def mul? (a b : Nat) : Option Nat := if a * b < limit then some (a * b) else none

/-- A sum is there just when it fits into a word. -/
theorem add?_eq_some_iff {a b c : Nat} : add? a b = some c ↔ a + b < limit ∧ a + b = c := by
  simp [add?]

/-- A product is there just when it fits into a word. -/
theorem mul?_eq_some_iff {a b c : Nat} : mul? a b = some c ↔ a * b < limit ∧ a * b = c := by
  simp [mul?]

/-- The value, or a stop with `overflow` where there is none. -/
def checked {ε : Type} : Option Nat → Except (Fault ε) Nat
  | some a => .ok a
  | none => .error .overflow

/-- The sum of two words; leaving the range stops the computation. -/
def add {ε : Type} (a b : Nat) : Except (Fault ε) Nat := checked (add? a b)

/-- The product of two words; leaving the range stops the computation. -/
def mul {ε : Type} (a b : Nat) : Except (Fault ε) Nat := checked (mul? a b)

/-- The difference of two words; a negative one stops the computation. -/
def sub {ε : Type} (a b : Nat) : Except (Fault ε) Nat :=
  if b ≤ a then .ok (a - b) else .error .overflow

/-- The sum of two words of 32 bits; leaving the range stops the computation. -/
def add32 {ε : Type} (a b : Nat) : Except (Fault ε) Nat :=
  if a + b < 0x100000000 then .ok (a + b) else .error .overflow

/-- A sum that fits into a word is computed. -/
theorem add_of_lt {ε : Type} {a b : Nat} (h : a + b < limit) :
    (add a b : Except (Fault ε) Nat) = .ok (a + b) := by
  simp [add, add?, h, checked]

/-- A sum is computed just when it fits into a word. -/
theorem add_eq_ok_iff {ε : Type} {a b c : Nat} :
    (add a b : Except (Fault ε) Nat) = .ok c ↔ a + b < limit ∧ c = a + b := by
  by_cases h : a + b < limit <;> simp [add, add?, h, checked, eq_comm]

/-- A sum fails for no defect of the input. -/
theorem add_ne_defect {ε : Type} {a b : Nat} {cause : ε} :
    (add a b : Except (Fault ε) Nat) ≠ .error (.defect cause) := by
  unfold add
  cases add? a b <;> nofun

/-- A product that fits into a word is computed. -/
theorem mul_of_lt {ε : Type} {a b : Nat} (h : a * b < limit) :
    (mul a b : Except (Fault ε) Nat) = .ok (a * b) := by
  simp [mul, mul?, h, checked]

/-- A product fails for no defect of the input. -/
theorem mul_ne_defect {ε : Type} {a b : Nat} {cause : ε} :
    (mul a b : Except (Fault ε) Nat) ≠ .error (.defect cause) := by
  unfold mul
  cases mul? a b <;> nofun

/-- A sum that fits into 32 bits is computed. -/
theorem add32_of_lt {ε : Type} {a b : Nat} (h : a + b < 0x100000000) :
    (add32 a b : Except (Fault ε) Nat) = .ok (a + b) := by
  simp only [add32, h, if_true]

/-- A difference is computed where it is not negative. -/
theorem sub_of_le {ε : Type} {a b : Nat} (h : b ≤ a) :
    (sub a b : Except (Fault ε) Nat) = .ok (a - b) := by
  simp [sub, h]

/-- The sum of two words, or the largest word where the sum is none. -/
def satAdd (a b : Nat) : Nat := min (a + b) (limit - 1)

/-- A sum that fits into a word is not cut. -/
theorem satAdd_of_lt {a b : Nat} (h : a + b < limit) : satAdd a b = a + b :=
  Nat.min_eq_left (Nat.le_sub_one_of_lt h)

end Word

/-- The least multiple of `alignment` that is not below `value`; an alignment of zero keeps the
value. The rounded value may leave the 64-bit range. -/
def alignUp {ε : Type} (value alignment : Nat) : Except (Fault ε) Nat :=
  if alignment = 0 then .ok value
  else Word.mul ((value + alignment - 1) / alignment) alignment

end PeListing
