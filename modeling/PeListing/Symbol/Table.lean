import PeListing.Symbol.Basic
import PeListing.Symbol.PartitionPoint
import PeListing.Word

/-!
# Symbol tables

A symbol table holds symbols in the order of their addresses; symbols of one address stay in the
order in which they came. It also counts the entries that were passed over while it was filled.

Lookups go by binary search, which the order of the table makes right: `lowerBound` is the number
of symbols below an address and `upperBound` the number of those at or below it
(`lt_lowerBound_iff`, `lt_upperBound_iff`).
-/

namespace PeListing

/-- Symbols in the order of their addresses. -/
structure SymbolTable where
  /-- The symbols. -/
  symbols : Array Symbol
  /-- How many entries were passed over. -/
  skipped : Nat
  /-- Addresses do not decrease. -/
  ordered : symbols.toList.Pairwise fun a b => a.address ≤ b.address

namespace SymbolTable

/-- The table without symbols. -/
def empty : SymbolTable := ⟨#[], 0, .nil⟩

/-- The number of symbols. -/
def size (t : SymbolTable) : Nat := t.symbols.size

/-- The symbols in the order of the table. -/
def toList (t : SymbolTable) : List Symbol := t.symbols.toList

/-- The index of the first symbol at or above an address. -/
def lowerBound (t : SymbolTable) (address : UInt64) : Nat :=
  partitionPoint (fun s => s.address < address) t.symbols

/-- The index of the first symbol above an address. -/
def upperBound (t : SymbolTable) (address : UInt64) : Nat :=
  partitionPoint (fun s => s.address ≤ address) t.symbols

/-- The addresses of a table ascend. -/
theorem address_le_of_le (t : SymbolTable) {i j : Nat} (hj : j < t.symbols.size) (hij : i ≤ j) :
    (t.symbols[i]).address ≤ (t.symbols[j]).address := by
  rcases Nat.eq_or_lt_of_le hij with rfl | hlt
  · exact UInt64.le_refl _
  · have h := List.pairwise_iff_getElem.mp t.ordered i j (by simpa using Nat.lt_trans hlt hj)
      (by simpa using hj) hlt
    simpa using h

/-- The symbols before the lower bound are those below the address. -/
theorem lt_lowerBound_iff (t : SymbolTable) (address : UInt64) {i : Nat}
    (hi : i < t.symbols.size) :
    i < t.lowerBound address ↔ (t.symbols[i]).address < address := by
  obtain ⟨-, before, behind⟩ := partitionPoint_spec
    (fun s : Symbol => decide (s.address < address)) t.symbols (by
      intro i j hj hij hp
      simp only [decide_eq_true_eq] at hp ⊢
      exact UInt64.lt_of_le_of_lt (t.address_le_of_le hj hij) hp)
  constructor
  · intro h
    simpa using before i hi h
  · intro h
    apply Nat.lt_of_not_le
    intro hle
    simpa [h] using behind i hi hle

/-- The symbols before the upper bound are those at or below the address. -/
theorem lt_upperBound_iff (t : SymbolTable) (address : UInt64) {i : Nat}
    (hi : i < t.symbols.size) :
    i < t.upperBound address ↔ (t.symbols[i]).address ≤ address := by
  obtain ⟨-, before, behind⟩ := partitionPoint_spec
    (fun s : Symbol => decide (s.address ≤ address)) t.symbols (by
      intro i j hj hij hp
      simp only [decide_eq_true_eq] at hp ⊢
      exact UInt64.le_trans (t.address_le_of_le hj hij) hp)
  constructor
  · intro h
    simpa using before i hi h
  · intro h
    apply Nat.lt_of_not_le
    intro hle
    simpa [h] using behind i hi hle

/-- The place behind the symbols up to an address lies inside the table or at its end. -/
theorem upperBound_le (t : SymbolTable) (address : UInt64) :
    t.upperBound address ≤ t.symbols.size := partitionPoint_le

/-- An insertion splits the list at its place. -/
theorem insertIdx_eq_take_cons_drop {α : Type} (l : List α) (a : α) (i : Nat)
    (h : i ≤ l.length) : l.insertIdx i a = l.take i ++ a :: l.drop i := by
  induction l generalizing i with
  | nil =>
    obtain rfl : i = 0 := by simpa using h
    rfl
  | cons b l ih =>
    cases i with
    | zero => rfl
    | succ i => simp [ih i (by simpa using h)]

/-- Adding a symbol behind all that are not above it keeps the order. -/
theorem pairwise_insertIdx_upperBound (t : SymbolTable) (s : Symbol) :
    (t.symbols.insertIdx (t.upperBound s.address) s (t.upperBound_le _)).toList.Pairwise
      fun a b => a.address ≤ b.address := by
  have hle : t.upperBound s.address ≤ t.symbols.toList.length := by
    simpa using t.upperBound_le s.address
  rw [Array.toList_insertIdx, insertIdx_eq_take_cons_drop _ _ _ hle]
  have split : t.symbols.toList = t.symbols.toList.take (t.upperBound s.address) ++
      t.symbols.toList.drop (t.upperBound s.address) := (List.take_append_drop _ _).symm
  have order := t.ordered
  rw [split, List.pairwise_append] at order
  obtain ⟨first, rest, across⟩ := order
  have above : ∀ x ∈ t.symbols.toList.drop (t.upperBound s.address), s.address ≤ x.address := by
    intro x hx
    obtain ⟨i, hi, rfl⟩ := List.mem_iff_getElem.mp hx
    simp only [List.length_drop, Array.length_toList] at hi
    have hlt : t.upperBound s.address + i < t.symbols.size := by omega
    have hnot := mt (t.lt_upperBound_iff s.address hlt).mpr (by omega)
    simp only [List.getElem_drop, Array.getElem_toList]
    rcases UInt64.le_total (t.symbols[t.upperBound s.address + i]).address s.address with h | h
    · exact absurd h hnot
    · exact h
  have below : ∀ x ∈ t.symbols.toList.take (t.upperBound s.address), x.address ≤ s.address := by
    intro x hx
    obtain ⟨i, hi, rfl⟩ := List.mem_iff_getElem.mp hx
    simp only [List.length_take, Array.length_toList] at hi
    have hlt : i < t.symbols.size := by omega
    simp only [List.getElem_take, Array.getElem_toList]
    exact (t.lt_upperBound_iff s.address hlt).mp (by omega)
  refine List.pairwise_append.mpr ⟨first, List.pairwise_cons.mpr ⟨above, rest⟩, ?_⟩
  intro a ha b hb
  rcases List.mem_cons.mp hb with rfl | hb
  · exact below a ha
  · exact across a ha b hb

/-- The index at which `insert` puts a symbol. -/
def rank (t : SymbolTable) (s : Symbol) : Nat := t.upperBound s.address

/-- The table with one more symbol, behind those of the same address. -/
def insert (t : SymbolTable) (s : Symbol) : SymbolTable where
  symbols := t.symbols.insertIdx (t.rank s) s (t.upperBound_le _)
  skipped := t.skipped
  ordered := t.pairwise_insertIdx_upperBound s

/-- The table with one more entry passed over. -/
def skip {ε : Type} (t : SymbolTable) : Except (Fault ε) SymbolTable := do
  return { t with skipped := ← Word.add t.skipped 1 }

/-- The first symbol at an address. -/
def find? (t : SymbolTable) (address : UInt64) : Option Symbol :=
  t.symbols[t.lowerBound address]?.filter fun s => s.address == address

/-- Whether a symbol stands at an address. -/
def contains (t : SymbolTable) (address : UInt64) : Bool := (t.find? address).isSome

/-- The first symbol at an absolute address of an image loaded at `base`. -/
def resolve (t : SymbolTable) (base absolute : UInt64) : Option Symbol :=
  if base ≤ absolute then t.find? (absolute - base) else none

/-- The name of an absolute address: that of the symbol there, else what `fallback` says. -/
def nameFor (t : SymbolTable) (base : UInt64) (fallback : UInt64 → Option String)
    (absolute : UInt64) : Option String :=
  match t.resolve base absolute with
  | some s => some s.qualifiedName
  | none => fallback absolute

end SymbolTable

end PeListing
