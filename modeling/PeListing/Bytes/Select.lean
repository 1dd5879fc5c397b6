import PeListing.Word

/-!
# Selecting by position

Parts of a list or an array picked out by their positions. A position outside stops the computation
with `Fault.outOfRange`; one inside gives what stands there.
-/

namespace PeListing.Select

variable {ε α : Type}

/-- The elements from `start` up to `stop`. -/
def range (xs : List α) (start stop : Nat) : Except (Fault ε) (List α) :=
  if start ≤ stop ∧ stop ≤ xs.length then .ok ((xs.drop start).take (stop - start))
  else .error .outOfRange

/-- The elements of an array from `start` up to `stop`. -/
def span (xs : Array α) (start stop : Nat) : Except (Fault ε) (List α) :=
  if start ≤ stop ∧ stop ≤ xs.size then .ok (xs.extract start stop).toList
  else .error .outOfRange

/-- The element at a position. -/
def element (xs : List α) (position : Nat) : Except (Fault ε) α :=
  match xs[position]? with
  | some a => .ok a
  | none => .error .outOfRange

/-- A list as a vector, which must have its length. -/
def vector (size : Nat) (xs : List α) : Except (Fault ε) (Vector α size) :=
  if h : xs.length = size then .ok ⟨xs.toArray, by simpa using h⟩ else .error .outOfRange

/-- An array with another element at a position. -/
def replace (xs : Array α) (position : Nat) (a : α) : Except (Fault ε) (Array α) :=
  if h : position < xs.size then .ok (xs.set position a h) else .error .outOfRange

/-- A range inside the list is selected. -/
theorem range_of_le {xs : List α} {start stop : Nat} (h : start ≤ stop) (h' : stop ≤ xs.length) :
    (range xs start stop : Except (Fault ε) (List α)) =
      .ok ((xs.drop start).take (stop - start)) := by
  simp only [range, h, h', and_self, if_true]

/-- A span inside the array is selected. -/
theorem span_of_le {xs : Array α} {start stop : Nat} (h : start ≤ stop) (h' : stop ≤ xs.size) :
    (span xs start stop : Except (Fault ε) (List α)) = .ok (xs.extract start stop).toList := by
  simp only [span, h, h', and_self, if_true]

/-- A list of the right length becomes a vector. -/
theorem vector_of_length {size : Nat} {xs : List α} (h : xs.length = size) :
    (vector size xs : Except (Fault ε) (Vector α size)) = .ok ⟨xs.toArray, by simpa using h⟩ := by
  simp only [vector, h, dif_pos]

/-- An element inside the array is replaced. -/
theorem replace_of_lt {xs : Array α} {position : Nat} (h : position < xs.size) (a : α) :
    (replace xs position a : Except (Fault ε) (Array α)) = .ok (xs.set position a h) := by
  simp only [replace, h, dif_pos]

/-- A replacement fails for no defect of the input. -/
theorem replace_ne_defect {xs : Array α} {position : Nat} {a : α} {cause : ε} :
    (replace xs position a : Except (Fault ε) (Array α)) ≠ .error (.defect cause) := by
  unfold replace
  split <;> nofun

end PeListing.Select
