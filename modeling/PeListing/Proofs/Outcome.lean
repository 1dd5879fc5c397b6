import Mathlib.Tactic.Common
import PeListing.Bytes.Buffer

/-!
# How a computation ends

A computation that may fault ends in a value, in a defect of its input, or because a number left
its range. `Yields x good bad` rules out the last and says what is true of the value and of the
defect in the other two cases. It passes through sequences of steps (`Yields.bind`), so each
function needs one such statement and its callers need no more.

`InRange x` is the part that no number leaves its range.
-/

namespace PeListing

variable {ε α β : Type}

section Sequence

variable {σ : Type} {x : ExceptT ε (StateM σ) α} {f : α → ExceptT ε (StateM σ) β} {s s' : σ}

/-- Of two computations on a state in sequence, the second one goes on from the value and the state
that the first one ends in. -/
theorem run_run_bind_of_ok {a : α} (h : x.run.run s = (.ok a, s')) :
    (x >>= f).run.run s = (f a).run.run s' := by
  change (match x.run.run s with | (r, s') => (ExceptT.bindCont f r).run s') = _
  rw [h]
  rfl

/-- A failure of the first computation ends both. -/
theorem run_run_bind_of_error {cause : ε} (h : x.run.run s = (.error cause, s')) :
    (x >>= f).run.run s = (.error cause, s') := by
  change (match x.run.run s with | (r, s') => (ExceptT.bindCont f r).run s') = _
  rw [h]
  rfl

end Sequence

/-- No number leaves its range in a computation. -/
def InRange (x : Except (Fault ε) α) : Prop := x ≠ .error .overflow ∧ x ≠ .error .outOfRange

/-- A computation ends in a value with one property or in a defect with another. -/
def Yields (x : Except (Fault ε) α) (good : α → Prop) (bad : ε → Prop) : Prop :=
  match x with
  | .ok a => good a
  | .error (.defect cause) => bad cause
  | .error _ => False

variable {x : Except (Fault ε) α} {good good' : α → Prop} {bad bad' : ε → Prop}

/-- A computation that yields something stays in range. -/
theorem Yields.inRange (h : Yields x good bad) : InRange x := by
  constructor <;> rintro rfl <;> exact h

/-- What a computation yields is true of its value. -/
theorem Yields.of_ok (h : Yields x good bad) {a : α} (hx : x = .ok a) : good a := by
  subst hx
  exact h

/-- A computation without defects ends in a value. -/
theorem Yields.exists_ok (h : Yields x good fun _ => False) : ∃ a, x = .ok a ∧ good a := by
  match x, h with
  | .ok a, h => exact ⟨a, rfl, h⟩

/-- A computation that ends otherwise than in a value ends in a defect. -/
theorem Yields.exists_defect (h : Yields x good bad) {fault : Fault ε} (hx : x = .error fault) :
    ∃ cause, fault = .defect cause ∧ bad cause := by
  subst hx
  cases fault with
  | defect cause => exact ⟨cause, rfl, h⟩
  | overflow | outOfRange => exact h.elim

namespace Yields

/-- A value yields itself. -/
theorem pure {a : α} (h : good a) : Yields (Pure.pure a : Except (Fault ε) α) good bad := h

/-- A failure yields its defect. -/
theorem throw {cause : ε} (h : bad cause) :
    Yields (throw (.defect cause) : Except (Fault ε) α) good bad := h

/-- What comes behind a failure does not matter. -/
theorem throw_bind {cause : ε} {f : α → Except (Fault ε) β} {good' : β → Prop} (h : bad cause) :
    Yields ((MonadExcept.throw (.defect cause) : Except (Fault ε) α) >>= f) good' bad := h

/-- What is known of the value and of the defect may be weakened. -/
theorem mono (h : Yields x good bad) (hgood : ∀ a, good a → good' a)
    (hbad : ∀ cause, bad cause → bad' cause) : Yields x good' bad' := by
  match x, h with
  | .ok a, h => exact hgood a h
  | .error (.defect cause), h => exact hbad cause h

/-- What is known of the value may be weakened. -/
theorem weaken (h : Yields x good bad) (hgood : ∀ a, good a → good' a) : Yields x good' bad :=
  h.mono hgood fun _ => id

/-- A computation in sequence: what the first step ends in, the second may rely on. -/
theorem bind {f : α → Except (Fault ε) β} {good' : β → Prop} (hx : Yields x good bad)
    (hf : ∀ a, good a → Yields (f a) good' bad) : Yields (x >>= f) good' bad := by
  match x, hx with
  | .ok a, h => exact hf a h
  | .error (.defect _), h => exact h

/-- A function of the value that cannot fail. -/
theorem map {f : α → β} {good' : β → Prop} (hx : Yields x good bad)
    (hf : ∀ a, good a → good' (f a)) : Yields (do return f (← x)) good' bad :=
  hx.bind fun a ha => .pure (hf a ha)

/-- A computation that can only end in a value or a defect. -/
theorem lift {y : Except ε α} (hgood : ∀ a, y = .ok a → good a)
    (hbad : ∀ cause, y = .error cause → bad cause) :
    Yields (liftM y : Except (Fault ε) α) good bad := by
  match y with
  | .ok a => exact hgood a rfl
  | .error cause => exact hbad cause rfl

/-- A sequence whose steps are lifted together. -/
theorem lift_bind {y : Except ε α} {f : α → Except ε β} {good' : β → Prop}
    (hy : Yields (liftM y : Except (Fault ε) α) good bad)
    (hf : ∀ a, good a → Yields (liftM (f a) : Except (Fault ε) β) good' bad) :
    Yields (liftM (y >>= f) : Except (Fault ε) β) good' bad := by
  match y, hy with
  | .ok a, h => exact hf a h
  | .error _, h => exact h

/-! ### Arithmetic and selection -/

/-- A sum that fits into a word. -/
theorem add {a b : Nat} (h : a + b < Word.limit) :
    Yields (Word.add a b : Except (Fault ε) Nat) (· = a + b) bad := by
  rw [Word.add_of_lt h]
  exact .pure rfl

/-- A product that fits into a word. -/
theorem mul {a b : Nat} (h : a * b < Word.limit) :
    Yields (Word.mul a b : Except (Fault ε) Nat) (· = a * b) bad := by
  rw [Word.mul_of_lt h]
  exact .pure rfl

/-- A difference that is not negative. -/
theorem sub {a b : Nat} (h : b ≤ a) :
    Yields (Word.sub a b : Except (Fault ε) Nat) (· = a - b) bad := by
  rw [Word.sub_of_le h]
  exact .pure rfl

/-- A range inside a list. -/
theorem range {xs : List α} {start stop : Nat} (h : start ≤ stop) (h' : stop ≤ xs.length) :
    Yields (Select.range xs start stop : Except (Fault ε) (List α))
      (· = (xs.drop start).take (stop - start)) bad := by
  rw [Select.range_of_le h h']
  exact .pure rfl

/-- A span inside an array. -/
theorem span {xs : Array α} {start stop : Nat} (h : start ≤ stop) (h' : stop ≤ xs.size) :
    Yields (Select.span xs start stop : Except (Fault ε) (List α))
      (· = (xs.extract start stop).toList) bad := by
  rw [Select.span_of_le h h']
  exact .pure rfl

/-- A range inside a buffer. -/
theorem bufferRange {b : Buffer} {start stop : Nat} (h : start ≤ stop) (h' : stop ≤ b.size) :
    Yields (b.range start stop : Except (Fault ε) (List UInt8))
      (· = (b.toList.drop start).take (stop - start)) bad := by
  rw [Buffer.range_of_le h h']
  exact .pure rfl

end Yields

end PeListing
