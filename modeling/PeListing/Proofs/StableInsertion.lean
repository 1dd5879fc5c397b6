import Mathlib.Data.List.Induction
import Mathlib.Data.List.Sort
import PeListing.Symbol.Table

/-!
# A run of insertions is a stable sort

A table that was filled by inserting symbols one after another holds the stable sort of them by
address (`ofInsertions_isStableSort`).

The proof goes through what one insertion does. The bounds of a table count the symbols below an
address and those at or below it (`lowerBound_eq_countP`, `upperBound_eq_countP`), because the table
is ordered. So the new symbol stands behind everything that is not above it
(`toList_insert_eq_append`), which keeps the order and puts it last among the symbols of its address
(`atAddress_insert`). An ordered list is determined by the sublists of its addresses
(`eq_of_atAddress_eq`), and the merge sort of the inserted symbols has the same sublists.
-/

namespace PeListing

/-- Addresses do not decrease along a list of symbols. -/
def AddressOrdered (l : List Symbol) : Prop := l.Pairwise fun a b => a.address ≤ b.address

/-- The symbols of a list at an address, in the order of the list. -/
def atAddress (l : List Symbol) (address : UInt64) : List Symbol :=
  l.filter fun s => s.address = address

/-- The symbols at an address are those of the list that have it. -/
theorem mem_atAddress {l : List Symbol} {address : UInt64} {s : Symbol} :
    s ∈ atAddress l address ↔ s ∈ l ∧ s.address = address := by
  simp [atAddress]

/-- The symbols at an address come in the order of the list. -/
theorem atAddress_append (l₁ l₂ : List Symbol) (address : UInt64) :
    atAddress (l₁ ++ l₂) address = atAddress l₁ address ++ atAddress l₂ address :=
  List.filter_append ..

/-- A symbol is the first at its own address. -/
theorem atAddress_cons_self (s : Symbol) (l : List Symbol) :
    atAddress (s :: l) s.address = s :: atAddress l s.address := by
  simp [atAddress]

/-- A symbol at another address does not count. -/
theorem atAddress_cons_of_ne {s : Symbol} {address : UInt64} (h : s.address ≠ address)
    (l : List Symbol) : atAddress (s :: l) address = atAddress l address := by
  simp [atAddress, h]

/-- At an address that no symbol has there is none. -/
theorem atAddress_eq_nil {l : List Symbol} {address : UInt64}
    (h : ∀ s ∈ l, s.address ≠ address) : atAddress l address = [] := by
  simpa [atAddress] using h

/-! ### Ordered lists and their addresses -/

/-- The first symbol of an ordered list has the least address. -/
theorem AddressOrdered.head_le {s : Symbol} {l : List Symbol} (h : AddressOrdered (s :: l))
    {x : Symbol} (hx : x ∈ s :: l) : s.address ≤ x.address := by
  rcases List.mem_cons.mp hx with rfl | hx
  · exact UInt64.le_refl _
  · exact (List.pairwise_cons.mp h).1 x hx

/-- Two ordered lists with the same symbols at every address, in the same order, are the same. -/
theorem eq_of_atAddress_eq {l₁ l₂ : List Symbol} (h₁ : AddressOrdered l₁)
    (h₂ : AddressOrdered l₂) (h : ∀ address, atAddress l₁ address = atAddress l₂ address) :
    l₁ = l₂ := by
  -- A symbol of one list is one of the other, so the heads have the same address; the sublists at
  -- that address then give the heads themselves, and all sublists of the tails agree.
  induction l₁ generalizing l₂ with
  | nil =>
    cases l₂ with
    | nil => rfl
    | cons s₂ l₂ =>
      have := h s₂.address
      rw [atAddress_cons_self] at this
      exact absurd this (by simp [atAddress])
  | cons s₁ l₁ ih =>
    cases l₂ with
    | nil =>
      have := h s₁.address
      rw [atAddress_cons_self] at this
      exact absurd this (by simp [atAddress])
    | cons s₂ l₂ =>
      have hmem₁ : s₁ ∈ s₂ :: l₂ := by
        have : s₁ ∈ atAddress (s₂ :: l₂) s₁.address := by
          rw [← h, atAddress_cons_self]
          exact List.mem_cons_self
        exact (mem_atAddress.mp this).1
      have hmem₂ : s₂ ∈ s₁ :: l₁ := by
        have : s₂ ∈ atAddress (s₁ :: l₁) s₂.address := by
          rw [h, atAddress_cons_self]
          exact List.mem_cons_self
        exact (mem_atAddress.mp this).1
      have haddress : s₁.address = s₂.address :=
        UInt64.le_antisymm (h₁.head_le hmem₂) (h₂.head_le hmem₁)
      have hhead := h s₁.address
      rw [atAddress_cons_self, haddress, atAddress_cons_self] at hhead
      obtain ⟨rfl, htail⟩ := List.cons.inj hhead
      have hrest : l₁ = l₂ := by
        refine ih (List.pairwise_cons.mp h₁).2 (List.pairwise_cons.mp h₂).2 fun address => ?_
        by_cases hne : s₁.address = address
        · rw [← hne]
          exact htail
        · have := h address
          rwa [atAddress_cons_of_ne hne, atAddress_cons_of_ne hne] at this
      rw [hrest]

/-! ### The stable sort -/

/-- Whether one symbol may stand before another. -/
def addressLe (a b : Symbol) : Bool := a.address ≤ b.address

/-- The order by addresses is transitive. -/
theorem addressLe_trans (a b c : Symbol) (hab : addressLe a b) (hbc : addressLe b c) :
    addressLe a c :=
  decide_eq_true (UInt64.le_trans (of_decide_eq_true hab) (of_decide_eq_true hbc))

/-- The order by addresses is total. -/
theorem addressLe_total (a b : Symbol) : addressLe a b || addressLe b a := by
  rcases UInt64.le_total a.address b.address with h | h <;> simp [addressLe, h]

/-- The stable sort of symbols by address. -/
def stableSort (symbols : List Symbol) : List Symbol := symbols.mergeSort addressLe

/-- Sorting neither adds nor drops a symbol. -/
theorem stableSort_perm (symbols : List Symbol) : (stableSort symbols).Perm symbols :=
  List.mergeSort_perm symbols addressLe

/-- Sorted symbols ascend. -/
theorem stableSort_ordered (symbols : List Symbol) : AddressOrdered (stableSort symbols) :=
  (List.pairwise_mergeSort addressLe_trans addressLe_total symbols).imp of_decide_eq_true

/-- The symbols at an address stay in their order. -/
theorem atAddress_stableSort (symbols : List Symbol) (address : UInt64) :
    atAddress (stableSort symbols) address = atAddress symbols address := by
  have hsame : (atAddress symbols address).Pairwise fun a b => addressLe a b := by
    refine List.pairwise_iff_forall_sublist.mpr fun {a b} hab => ?_
    have ha := (mem_atAddress.mp (hab.subset List.mem_cons_self)).2
    have hb := (mem_atAddress.mp (hab.subset (List.mem_cons_of_mem _ List.mem_cons_self))).2
    exact decide_eq_true (ha.trans hb.symm ▸ UInt64.le_refl _)
  have hsub : (atAddress symbols address).Sublist (stableSort symbols) :=
    List.sublist_mergeSort addressLe_trans addressLe_total hsame List.filter_sublist
  have hsub' := hsub.filter fun s => s.address = address
  rw [atAddress, List.filter_filter] at hsub'
  simp only [Bool.and_self] at hsub'
  exact (hsub'.eq_of_length (((stableSort_perm symbols).filter _).length_eq).symm).symm

/-! ### What the bounds of a table count -/

namespace SymbolTable

/-- The partition point of an ordered list counts the elements before it. -/
theorem countP_eq_of_lt_iff {α : Type} (p : α → Bool) (l : List α) (n : Nat)
    (hn : n ≤ l.length) (h : ∀ i, (hi : i < l.length) → (i < n ↔ p (l[i]) = true)) :
    l.countP p = n := by
  have hbefore : (l.take n).countP p = n := by
    rw [List.countP_eq_length.mpr, List.length_take_of_le hn]
    intro x hx
    obtain ⟨i, hi, rfl⟩ := List.mem_iff_getElem.mp hx
    rw [List.length_take_of_le hn] at hi
    rw [List.getElem_take]
    exact (h i (by omega)).mp hi
  have hbehind : (l.drop n).countP p = 0 := by
    rw [List.countP_eq_zero]
    intro x hx
    obtain ⟨i, hi, rfl⟩ := List.mem_iff_getElem.mp hx
    rw [List.length_drop] at hi
    rw [List.getElem_drop]
    exact fun hp => absurd ((h (n + i) (by omega)).mpr hp) (by omega)
  calc l.countP p = (l.take n ++ l.drop n).countP p := by rw [List.take_append_drop]
    _ = n := by rw [List.countP_append, hbefore, hbehind, Nat.add_zero]

/-- The place before the symbols of an address lies inside the table or at its end. -/
theorem lowerBound_le (t : SymbolTable) (address : UInt64) :
    t.lowerBound address ≤ t.symbols.size := partitionPoint_le

/-- The lower bound counts the symbols below an address. -/
theorem lowerBound_eq_countP (t : SymbolTable) (address : UInt64) :
    t.lowerBound address = t.toList.countP fun s => s.address < address := by
  refine (countP_eq_of_lt_iff _ _ _ (by simpa [toList] using t.lowerBound_le address) ?_).symm
  intro i hi
  have hi' : i < t.symbols.size := by simpa [toList] using hi
  exact (t.lt_lowerBound_iff address hi').trans decide_eq_true_iff.symm

/-- The upper bound counts the symbols at or below an address. -/
theorem upperBound_eq_countP (t : SymbolTable) (address : UInt64) :
    t.upperBound address = t.toList.countP fun s => s.address ≤ address := by
  refine (countP_eq_of_lt_iff _ _ _ (by simpa [toList] using t.upperBound_le address) ?_).symm
  intro i hi
  have hi' : i < t.symbols.size := by simpa [toList] using hi
  exact (t.lt_upperBound_iff address hi').trans decide_eq_true_iff.symm

/-! ### Lookups -/

/-- The symbol at the lower bound of an address is not below it. -/
theorem not_address_lt_of_drop_lowerBound (t : SymbolTable) {address : UInt64} {s : Symbol}
    {rest : List Symbol} (h : t.toList.drop (t.lowerBound address) = s :: rest) :
    ¬ s.address < address := by
  have hget : t.symbols[t.lowerBound address]? = some s := by
    rw [← Array.getElem?_toList, ← List.head?_drop]
    exact congrArg List.head? h
  obtain ⟨hlt, rfl⟩ := Array.getElem?_eq_some_iff.mp hget
  exact fun hbelow => Nat.lt_irrefl _ ((t.lt_lowerBound_iff address hlt).mpr hbelow)

/-- A lookup finds the first symbol at an address. -/
theorem find?_eq_head?_atAddress (t : SymbolTable) (address : UInt64) :
    t.find? address = (atAddress t.toList address).head? := by
  -- The lower bound cuts the list into symbols below the address and others, and the lookup reads
  -- the first of the others.
  have hbefore : atAddress (t.toList.take (t.lowerBound address)) address = [] := by
    refine atAddress_eq_nil fun x hx heq => ?_
    obtain ⟨i, hi, rfl⟩ := List.mem_iff_getElem.mp hx
    rw [List.length_take, toList, Array.length_toList] at hi
    have hlt := (t.lt_lowerBound_iff address (i := i) (by omega)).mp (by omega)
    rw [List.getElem_take] at heq
    exact UInt64.ne_of_lt hlt heq
  have hsplit : atAddress t.toList address =
      atAddress (t.toList.drop (t.lowerBound address)) address := by
    conv_lhs => rw [← List.take_append_drop (t.lowerBound address) t.toList, atAddress_append,
      hbefore, List.nil_append]
  have hfirst : t.symbols[t.lowerBound address]? =
      (t.toList.drop (t.lowerBound address)).head? := by
    rw [List.head?_drop, toList, Array.getElem?_toList]
  rw [find?, hsplit, hfirst]
  cases hdrop : t.toList.drop (t.lowerBound address) with
  | nil => rfl
  | cons s rest =>
    by_cases hs : s.address = address
    · subst hs
      rw [atAddress_cons_self]
      simp
    · have hordered : AddressOrdered (s :: rest) :=
        hdrop ▸ t.ordered.sublist (List.drop_sublist _ _)
      have hnone : atAddress (s :: rest) address = [] := by
        refine atAddress_eq_nil fun x hx heq => ?_
        have hle : s.address ≤ address := heq ▸ hordered.head_le hx
        exact t.not_address_lt_of_drop_lowerBound hdrop (UInt64.lt_of_le_of_ne hle hs)
      simp [hnone, hs]

/-- A table does not contain an address just when it has no symbol there. -/
theorem contains_eq_false_iff {t : SymbolTable} {address : UInt64} :
    t.contains address = false ↔ atAddress t.toList address = [] := by
  rw [contains, find?_eq_head?_atAddress]
  simp

/-! ### One insertion -/

/-- The rank of a symbol lies inside the table or at its end. -/
theorem rank_le (t : SymbolTable) (s : Symbol) : t.rank s ≤ t.toList.length := by
  simpa [toList, rank] using t.upperBound_le s.address

/-- The symbols of a table ascend. -/
theorem ordered_toList (t : SymbolTable) : AddressOrdered t.toList := t.ordered

/-- A symbol is inserted between those that come before its rank and the others. -/
theorem toList_insert (t : SymbolTable) (s : Symbol) :
    (t.insert s).toList = t.toList.insertIdx (t.rank s) s :=
  Array.toList_insertIdx (t.upperBound_le s.address)

/-- A symbol is inserted at its rank. -/
theorem toList_insert_eq_append (t : SymbolTable) (s : Symbol) :
    (t.insert s).toList = t.toList.take (t.rank s) ++ s :: t.toList.drop (t.rank s) := by
  rw [toList_insert, insertIdx_eq_take_cons_drop _ _ _ (t.rank_le s)]

/-- What comes from the rank on lies above the inserted symbol. -/
theorem address_ne_of_mem_drop_rank (t : SymbolTable) (s : Symbol) {x : Symbol}
    (hx : x ∈ t.toList.drop (t.rank s)) : x.address ≠ s.address := by
  obtain ⟨i, hi, rfl⟩ := List.mem_iff_getElem.mp hx
  rw [List.length_drop, toList, Array.length_toList] at hi
  have hlt : t.rank s + i < t.symbols.size := by omega
  intro heq
  have hle : (t.symbols[t.rank s + i]).address ≤ s.address := by
    rw [List.getElem_drop] at heq
    exact UInt64.le_of_eq heq
  exact absurd ((t.lt_upperBound_iff s.address hlt).mpr hle) (Nat.not_lt.mpr (Nat.le_add_right _ _))

/-- An inserted symbol becomes the last one at its address. -/
theorem atAddress_insert (t : SymbolTable) (s : Symbol) (address : UInt64) :
    atAddress (t.insert s).toList address = atAddress (t.toList ++ [s]) address := by
  rw [toList_insert_eq_append, atAddress_append, atAddress_append]
  have hsplit : atAddress t.toList address = atAddress (t.toList.take (t.rank s)) address ++
      atAddress (t.toList.drop (t.rank s)) address := by
    rw [← atAddress_append, List.take_append_drop]
  by_cases h : s.address = address
  · subst h
    have hnone : atAddress (t.toList.drop (t.rank s)) s.address = [] :=
      atAddress_eq_nil fun x hx => t.address_ne_of_mem_drop_rank s hx
    rw [hsplit, atAddress_cons_self, atAddress_cons_self, hnone, List.append_nil]
    rfl
  · rw [hsplit, atAddress_cons_of_ne h, atAddress_cons_of_ne h, List.append_assoc]
    simp [atAddress]

/-- Taking an inserted symbol out again gives back the list. -/
theorem eraseIdx_rank_insert (t : SymbolTable) (s : Symbol) :
    (t.insert s).toList.eraseIdx (t.rank s) = t.toList := by
  rw [toList_insert, List.eraseIdx_insertIdx_self]

/-- An inserted symbol stands at its rank. -/
theorem getElem?_rank_insert (t : SymbolTable) (s : Symbol) :
    (t.insert s).toList[t.rank s]? = some s := by
  rw [toList_insert, List.getElem?_insertIdx_self, if_pos (t.rank_le s)]

/-! ### A run of insertions -/

/-- The table after symbols were inserted one after another into an empty one. -/
def ofInsertions (symbols : List Symbol) : SymbolTable := symbols.foldl insert empty

/-- The last insertion comes last. -/
theorem ofInsertions_concat (symbols : List Symbol) (s : Symbol) :
    ofInsertions (symbols ++ [s]) = (ofInsertions symbols).insert s := by
  simp [ofInsertions]

/-- The symbols at an address are those that were inserted there, in the same order. -/
theorem atAddress_ofInsertions (symbols : List Symbol) (address : UInt64) :
    atAddress (ofInsertions symbols).toList address = atAddress symbols address := by
  induction symbols using List.reverseRecOn with
  | nil => rfl
  | append_singleton symbols s ih =>
    rw [ofInsertions_concat, atAddress_insert, atAddress_append, ih, atAddress_append]

/-- A run of insertions gives the stable sort of what was inserted. -/
theorem toList_ofInsertions (symbols : List Symbol) :
    (ofInsertions symbols).toList = stableSort symbols :=
  eq_of_atAddress_eq (ordered_toList _) (stableSort_ordered symbols) fun address => by
    rw [atAddress_ofInsertions, atAddress_stableSort]

/-- **Every run of insertions is a stable sort.** The table holds the inserted symbols in the order
of their addresses, those of one address in the order of insertion. After every prefix of the run
the two bounds of every address count the symbols below it and at or below it; the next symbol `s`
comes to stand at the upper bound of its address, and without it the list is what it was. -/
theorem ofInsertions_isStableSort (symbols : List Symbol) :
    (ofInsertions symbols).toList = symbols.mergeSort (fun a b => a.address ≤ b.address) ∧
    (ofInsertions symbols).toList.Perm symbols ∧
    (ofInsertions symbols).toList.Pairwise (fun a b => a.address ≤ b.address) ∧
    (∀ address, (ofInsertions symbols).toList.filter (fun s => s.address = address) =
      symbols.filter fun s => s.address = address) ∧
    ∀ taken : Nat, let t := ofInsertions (symbols.take taken)
      (∀ address, t.lowerBound address = t.toList.countP (fun s => s.address < address) ∧
        t.upperBound address = t.toList.countP fun s => s.address ≤ address) ∧
      ∀ s, t.rank s = t.upperBound s.address ∧ (t.insert s).toList[t.rank s]? = some s ∧
        (t.insert s).toList.eraseIdx (t.rank s) = t.toList := by
  refine ⟨toList_ofInsertions symbols, ?_, ordered_toList _, atAddress_ofInsertions symbols, ?_⟩
  · rw [toList_ofInsertions]
    exact stableSort_perm symbols
  · intro taken t
    refine ⟨fun address => ⟨t.lowerBound_eq_countP address, t.upperBound_eq_countP address⟩, ?_⟩
    exact fun s => ⟨rfl, t.getElem?_rank_insert s, t.eraseIdx_rank_insert s⟩

end SymbolTable

end PeListing
