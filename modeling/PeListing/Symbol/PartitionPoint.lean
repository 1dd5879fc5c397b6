/-!
# Binary search for a partition point

In an array whose elements with a property all come before those without it, the *partition
point* is the number of the former. `partitionPoint` finds it by halving; `partitionPoint_spec`
says that it does.
-/

namespace PeListing

/-- Halves the window from `low` to `high` until it is empty. Everything before the window has the
property and nothing behind it does. -/
def partitionIn {α : Type} (p : α → Bool) (xs : Array α) (low high : Nat) (h : high ≤ xs.size) :
    Nat :=
  if hlt : low < high then
    let middle := low + (high - low) / 2
    if p (xs[middle]) then partitionIn p xs (middle + 1) high h
    else partitionIn p xs low middle (by omega)
  else low
termination_by high - low

/-- The number of elements that come before the first one without the property. -/
def partitionPoint {α : Type} (p : α → Bool) (xs : Array α) : Nat :=
  partitionIn p xs 0 xs.size (Nat.le_refl _)

variable {α : Type} {p : α → Bool} {xs : Array α}

/-- The search by halving keeps its invariant: what is before the range satisfies the predicate, and
what is behind it does not. -/
theorem partitionIn_spec
    (mono : ∀ i j, (hj : j < xs.size) → (hij : i ≤ j) → p (xs[j]) = true → p (xs[i]) = true)
    (low high : Nat) (h : high ≤ xs.size) (hle : low ≤ high)
    (before : ∀ i, (hi : i < xs.size) → i < low → p (xs[i]) = true)
    (behind : ∀ i, (hi : i < xs.size) → high ≤ i → p (xs[i]) = false) :
    partitionIn p xs low high h ≤ xs.size ∧
      (∀ i, (hi : i < xs.size) → i < partitionIn p xs low high h → p (xs[i]) = true) ∧
      (∀ i, (hi : i < xs.size) → partitionIn p xs low high h ≤ i → p (xs[i]) = false) := by
  fun_induction partitionIn p xs low high h with
  | case1 low high h hlt middle hp ih =>
    refine ih (by omega) (fun i hi hlow => ?_) behind
    exact mono i middle (by omega) (by omega) hp
  | case2 low high h hlt middle hp ih =>
    refine ih (by omega) before (fun i hi hmid => ?_)
    rw [Bool.eq_false_iff]
    intro hpi
    exact hp (mono middle i hi hmid hpi)
  | case3 low high h hlt =>
    exact ⟨by omega, before, fun i hi hlow => behind i hi (by omega)⟩

/-- Everything before the partition point has the property, and nothing from it on does. -/
theorem partitionPoint_spec (p : α → Bool) (xs : Array α)
    (mono : ∀ i j, (hj : j < xs.size) → (hij : i ≤ j) → p (xs[j]) = true → p (xs[i]) = true) :
    partitionPoint p xs ≤ xs.size ∧
      (∀ i, (hi : i < xs.size) → i < partitionPoint p xs → p (xs[i]) = true) ∧
      (∀ i, (hi : i < xs.size) → partitionPoint p xs ≤ i → p (xs[i]) = false) :=
  partitionIn_spec mono 0 xs.size (Nat.le_refl _) (Nat.zero_le _)
    (fun _ _ h => absurd h (Nat.not_lt_zero _)) (fun _ hi h => absurd hi (Nat.not_lt.mpr h))

/-- The partition point never lies past the end. -/
theorem partitionIn_le (low high : Nat) (h : high ≤ xs.size) (hle : low ≤ high) :
    partitionIn p xs low high h ≤ xs.size := by
  fun_induction partitionIn p xs low high h with
  | case1 low high h hlt middle hp ih => exact ih (by omega)
  | case2 low high h hlt middle hp ih => exact ih (by omega)
  | case3 low high h hlt => omega

/-- The partition point lies inside the array or at its end. -/
theorem partitionPoint_le : partitionPoint p xs ≤ xs.size :=
  partitionIn_le 0 xs.size (Nat.le_refl _) (Nat.zero_le _)

end PeListing
