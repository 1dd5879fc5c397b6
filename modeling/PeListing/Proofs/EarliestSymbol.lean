import PeListing.Proofs.StableInsertion

/-!
# Resolution finds the earliest symbol

A table is filled by inserting symbols one after another; entries may be passed over in between
(`SymbolTable.FilledBy`). A lookup in it knows nothing of this history: it subtracts the base from an
absolute address and searches the ordered symbols by halving. All the same it finds what the history
says: of all symbols that were inserted at the address, the one that came first
(`SymbolTable.resolve_earliest`).

An absolute address has a relative one only if it is not below the base. So the symbols that stand at
an absolute address are those of one relative address, or none at all
(`filter_standsAt`), and at one relative address a table keeps the order of insertion
(`FilledBy.atAddress_eq`).
-/

namespace PeListing

/-- Whether a symbol of an image loaded at `base` stands at an absolute address; the sum is that of
unbounded numbers. -/
def Symbol.standsAt (base absolute : UInt64) (s : Symbol) : Bool :=
  base.toNat + s.address.toNat = absolute.toNat

/-- The symbols at an absolute address are those at its distance from the base. -/
theorem filter_standsAt (base absolute : UInt64) (symbols : List Symbol) :
    symbols.filter (Symbol.standsAt base absolute) =
      if base ≤ absolute then atAddress symbols (absolute - base) else [] := by
  split
  · next hle =>
    apply List.filter_congr
    intro s _
    have hsub : (absolute - base).toNat = absolute.toNat - base.toNat :=
      UInt64.toNat_sub_of_le absolute base hle
    have hbase : base.toNat ≤ absolute.toNat := UInt64.le_iff_toNat_le.mp hle
    simp only [Symbol.standsAt, decide_eq_decide, ← UInt64.toNat_inj, hsub]
    omega
  · next hnot =>
    have hbelow : absolute.toNat < base.toNat := by
      simpa [UInt64.le_iff_toNat_le] using hnot
    rw [List.filter_eq_nil_iff]
    intro s _
    simp only [Symbol.standsAt, decide_eq_true_eq]
    omega

namespace SymbolTable

/-- A table was filled by some symbols: they were inserted one after another into an empty table, in
this order. Entries may have been passed over at any time. -/
inductive FilledBy : SymbolTable → List Symbol → Prop where
  /-- The empty table. -/
  | empty : FilledBy .empty []
  /-- One more symbol. -/
  | insert {t : SymbolTable} {history : List Symbol} (s : Symbol) (h : FilledBy t history) :
    FilledBy (t.insert s) (history ++ [s])
  /-- One more entry passed over. -/
  | skip {ε : Type} {t skipped : SymbolTable} {history : List Symbol} (h : FilledBy t history)
    (hskip : (t.skip : Except (Fault ε) SymbolTable) = .ok skipped) : FilledBy skipped history

variable {t : SymbolTable} {history : List Symbol}

/-- Passing over an entry leaves the symbols alone. -/
theorem toList_skip {ε : Type} {skipped : SymbolTable}
    (h : (t.skip : Except (Fault ε) SymbolTable) = .ok skipped) : skipped.toList = t.toList := by
  unfold skip at h
  cases hcount : (Word.add t.skipped 1 : Except (Fault ε) Nat) with
  | error fault =>
    rw [hcount] at h
    cases h
  | ok count =>
    rw [hcount] at h
    cases h
    rfl

/-- The symbols at an address are those that were inserted there, in the same order. -/
theorem FilledBy.atAddress_eq (h : t.FilledBy history) (address : UInt64) :
    atAddress t.toList address = atAddress history address := by
  induction h with
  | empty => rfl
  | insert s h ih => rw [atAddress_insert, atAddress_append, ih, atAddress_append]
  | skip h hskip ih => rw [toList_skip hskip, ih]

/-! ### Lookups -/

/-- A lookup finds the first symbol of the table that stands at an absolute address. -/
theorem resolve_eq_find? (t : SymbolTable) (base absolute : UInt64) :
    t.resolve base absolute = t.toList.find? (Symbol.standsAt base absolute) := by
  rw [← List.head?_filter, filter_standsAt, resolve]
  split
  · exact t.find?_eq_head?_atAddress (absolute - base)
  · rfl

/-- Of the symbols at an absolute address, the first one of the table was inserted first. -/
theorem FilledBy.find?_toList (h : t.FilledBy history) (base absolute : UInt64) :
    t.toList.find? (Symbol.standsAt base absolute) =
      history.find? (Symbol.standsAt base absolute) := by
  rw [← List.head?_filter, ← List.head?_filter, filter_standsAt, filter_standsAt, h.atAddress_eq]

/-- Where a symbol stands, a symbol of its address is found. -/
theorem exists_resolve_of_mem {s : Symbol} (hs : s ∈ t.toList) {base : UInt64}
    (hfits : base.toNat + s.address.toNat < 0x10000000000000000) :
    ∃ found ∈ t.toList, found.address = s.address ∧
      t.resolve base (UInt64.ofNat (base.toNat + s.address.toNat)) = some found := by
  have hsum : (UInt64.ofNat (base.toNat + s.address.toNat)).toNat =
      base.toNat + s.address.toNat := UInt64.toNat_ofNat_of_lt' hfits
  rw [resolve_eq_find?]
  cases hfind : t.toList.find? (Symbol.standsAt base (UInt64.ofNat _)) with
  | none =>
    have hstands : Symbol.standsAt base (UInt64.ofNat _) s = true := decide_eq_true hsum.symm
    exact absurd hstands (List.find?_eq_none.mp hfind s hs)
  | some found =>
    have hstands := List.find?_some hfind
    simp only [Symbol.standsAt, hsum, decide_eq_true_eq] at hstands
    have haddress : found.address = s.address := by
      rw [← UInt64.toNat_inj]
      omega
    exact ⟨found, List.mem_of_find?_eq_some hfind, haddress, rfl⟩

/-- **Resolution finds the earliest symbol.** In a table filled by some symbols, an absolute address
resolves to the first of these whose address, added to the base, is the absolute one, and to none if
there is no such symbol. Nothing is found below the base. Every symbol of the table for which the sum
is a word is found at it, or else another one of the same address, so the symbol itself if there is
none. The name for an absolute address is the qualified name of the symbol that it resolves to, with
the module in lower case, and where there is none what the fallback says. -/
theorem resolve_earliest (h : t.FilledBy history) (base absolute : UInt64)
    (fallback : UInt64 → Option String) :
    t.resolve base absolute =
      history.find? (fun s => base.toNat + s.address.toNat = absolute.toNat) ∧
    (absolute < base → t.resolve base absolute = none) ∧
    (∀ s ∈ t.toList, base.toNat + s.address.toNat < 0x10000000000000000 →
      ∃ found, t.resolve base (UInt64.ofNat (base.toNat + s.address.toNat)) = some found ∧
        found.address = s.address ∧
        ((∀ other ∈ t.toList, other.address = s.address → other = s) → found = s)) ∧
    t.nameFor base fallback absolute =
      match history.find? (fun s => base.toNat + s.address.toNat = absolute.toNat) with
      | some s => some (String.ofList (s.moduleName.toList.map Char.toLower) ++ "." ++ s.name)
      | none => fallback absolute := by
  have hresolve : t.resolve base absolute =
      history.find? (fun s => base.toNat + s.address.toNat = absolute.toNat) := by
    rw [resolve_eq_find?, h.find?_toList]
    rfl
  refine ⟨hresolve, ?_, ?_, ?_⟩
  · intro hbelow
    have hnot : ¬ base ≤ absolute := UInt64.not_le.mpr hbelow
    simp [resolve, hnot]
  · intro s hs hfits
    obtain ⟨found, hfound, haddress, heq⟩ := exists_resolve_of_mem hs hfits
    exact ⟨found, heq, haddress, fun hunique => hunique found hfound haddress⟩
  · rw [nameFor, hresolve]
    rfl

/-- Two symbols of one address, an entry passed over between them and a symbol that stands where
addresses wrap around: the earlier one of the two is found, and the third is not. -/
theorem resolve_earliest_tie :
    ∃ t : SymbolTable,
      t.FilledBy [⟨0x2000, "K", "end"⟩, ⟨0x1000, "K", "first"⟩, ⟨0x1000, "K", "second"⟩] ∧
      t.resolve 0xFFFFFFFFFFFFE000 0xFFFFFFFFFFFFF000 = some ⟨0x1000, "K", "first"⟩ ∧
      t.nameFor 0xFFFFFFFFFFFFE000 (fun _ => none) 0xFFFFFFFFFFFFF000 = some "k.first" ∧
      t.resolve 0xFFFFFFFFFFFFE000 0 = none := by
  let two : SymbolTable := (empty.insert ⟨0x2000, "K", "end"⟩).insert ⟨0x1000, "K", "first"⟩
  have hskip : (two.skip : Except (Fault Unit) SymbolTable) = .ok { two with skipped := 1 } := rfl
  have hfilled : (({ two with skipped := 1 } : SymbolTable).insert
      ⟨0x1000, "K", "second"⟩).FilledBy
        [⟨0x2000, "K", "end"⟩, ⟨0x1000, "K", "first"⟩, ⟨0x1000, "K", "second"⟩] :=
    .insert _ (.skip (.insert _ (.insert _ .empty)) hskip)
  obtain ⟨hresolve, -, -, hname⟩ := resolve_earliest hfilled 0xFFFFFFFFFFFFE000 0xFFFFFFFFFFFFF000
    fun _ => none
  obtain ⟨-, hbelow, -⟩ := resolve_earliest hfilled 0xFFFFFFFFFFFFE000 0 fun _ => none
  exact ⟨_, hfilled, hresolve, hname.trans (by decide), hbelow (by decide)⟩

end SymbolTable

end PeListing
