import PeListing.Proofs.InRange
import PeListing.Proofs.StableInsertion

/-!
# Imports stand alone

A symbol that the imports put into a table shares its address with no other symbol, whatever the
descriptors of the image say. Two symbols with one address both come from the exports
(`Image.imports_distinct`).

Two facts are kept along the moves of a walk. The table holds the symbols that were inserted so far
and no others (`Progress.Recorded`), so that an address which a lookup finds free was given to no
symbol before. And any two insertions at one address are exports (`Apart`): while the exports are
walked because there is nothing else, and afterwards because an import goes only to a free address.
-/

namespace PeListing

/-- Two insertions that do not collide, unless both are exports. -/
def Apart (x y : Phase × Symbol) : Prop :=
  x.2.address = y.2.address → x.1 = .exports ∧ y.1 = .exports

/-- Being apart goes both ways. -/
theorem Apart.symm {x y : Phase × Symbol} (h : Apart x y) : Apart y x :=
  fun heq => (h heq.symm).symm

/-- An event gives a symbol to a phase just when it inserts it there. -/
theorem Event.symbolOf?_eq_some_iff {e : Event} {phase : Phase} {s : Symbol} :
    e.symbolOf? phase = some s ↔ e.insertion? = some (phase, s) := by
  cases e <;> simp [Event.symbolOf?, Event.insertion?]

/-! ### What a progress has inserted -/

namespace Progress

variable (p : Progress)

/-- The symbols that were inserted, in order, with their phases. -/
def inserted : List (Phase × Symbol) := p.trail.reverse.filterMap Event.insertion?

/-- An event that inserts nothing leaves the symbols as they are. -/
theorem inserted_note {e : Event} (h : e.insertion? = none) :
    (p.note e).inserted = p.inserted := by
  simp [inserted, note, h]

/-- Passing over an entry leaves the symbols as they are. -/
@[simp] theorem inserted_pass (entry : Entry) (cause : Defect) :
    (p.pass entry cause).inserted = p.inserted := p.inserted_note rfl

/-- A symbol comes behind those inserted before. -/
@[simp] theorem inserted_insert (phase : Phase) (s : Symbol) :
    (p.insert phase s).inserted = p.inserted ++ [(phase, s)] := by
  simp [inserted, insert, note, Event.insertion?]

/-- The table holds what was inserted, and at every address in the order of insertion. -/
def Recorded (p : Progress) : Prop :=
  ∀ address, atAddress p.table.toList address = atAddress (p.inserted.map Prod.snd) address

/-- At the start the table and the history are empty. -/
theorem recorded_start : start.Recorded := fun _ => rfl

variable {p}

/-- Whether a table holds what was inserted depends on the two alone. -/
theorem Recorded.congr (h : p.Recorded) {q : Progress} (hinserted : q.inserted = p.inserted)
    (htable : q.table.toList = p.table.toList) : q.Recorded := by
  intro address
  rw [hinserted, htable]
  exact h address

/-- A table that takes what is inserted holds it. -/
theorem Recorded.insert (h : p.Recorded) (phase : Phase) (s : Symbol) :
    (p.insert phase s).Recorded := by
  intro address
  change atAddress (p.table.insert s).toList address = _
  rw [SymbolTable.atAddress_insert, inserted_insert, List.map_append, atAddress_append,
    atAddress_append, h address]
  rfl

/-- An address that the table has free was given to no symbol. -/
theorem Recorded.address_ne (h : p.Recorded) {address : UInt64}
    (hfree : p.table.contains address = false) {x : Phase × Symbol} (hx : x ∈ p.inserted) :
    x.2.address ≠ address := by
  intro heq
  have hmem : x.2 ∈ atAddress (p.inserted.map Prod.snd) address :=
    mem_atAddress.mpr ⟨List.mem_map_of_mem hx, heq⟩
  rw [← h address, SymbolTable.contains_eq_false_iff.mp hfree] at hmem
  exact absurd hmem List.not_mem_nil

end Progress

/-! ### What moves keep -/

namespace Move

variable {phase : Phase} {p q : Progress}

/-- A move inserts nothing, or one symbol of its phase; for an import the address is free. -/
theorem inserted_eq_or_insert (h : Move phase p q) :
    (q.inserted = p.inserted ∧ q.table.toList = p.table.toList) ∨
      ∃ s, q = p.insert phase s ∧ (phase = .imports → p.table.contains s.address = false) := by
  cases h with
  | noted e he _ => exact .inl ⟨p.inserted_note he, rfl⟩
  | passed entry cause _ => exact .inl ⟨p.inserted_pass entry cause, rfl⟩
  | exported s => exact .inr ⟨s, rfl, nofun⟩
  | counted => exact .inl ⟨rfl, rfl⟩
  | imported s hfree => exact .inr ⟨s, rfl, fun _ => hfree⟩

/-- After every move the table holds what was inserted. -/
theorem recorded (h : Move phase p q) (hp : p.Recorded) : q.Recorded := by
  rcases h.inserted_eq_or_insert with ⟨hinserted, htable⟩ | ⟨s, rfl, -⟩
  · exact hp.congr hinserted htable
  · exact hp.insert phase s

/-- A move of the exports inserts exports only. -/
theorem inserted_exports (h : Move .exports p q) (hp : ∀ x ∈ p.inserted, x.1 = .exports) :
    ∀ x ∈ q.inserted, x.1 = .exports := by
  rcases h.inserted_eq_or_insert with ⟨hinserted, -⟩ | ⟨s, rfl, -⟩
  · rwa [hinserted]
  · intro x hx
    rw [p.inserted_insert, List.mem_append, List.mem_singleton] at hx
    rcases hx with hx | rfl
    · exact hp x hx
    · rfl

/-- An import is inserted at an address that is free, so it is apart from all before. -/
theorem pairwise_apart (h : Move .imports p q) (hrecorded : p.Recorded)
    (hp : p.inserted.Pairwise Apart) : q.inserted.Pairwise Apart := by
  rcases h.inserted_eq_or_insert with ⟨hinserted, -⟩ | ⟨s, rfl, hfree⟩
  · rwa [hinserted]
  · rw [p.inserted_insert]
    refine List.pairwise_append.mpr ⟨hp, List.pairwise_singleton _ _, fun x hx y hy => ?_⟩
    obtain rfl := List.mem_singleton.mp hy
    exact fun heq => absurd heq (hrecorded.address_ne (hfree rfl) hx)

end Move

namespace Moves

variable {phase : Phase} {p q : Progress}

/-- After any moves the table holds what was inserted. -/
theorem recorded (h : Moves phase p q) (hp : p.Recorded) : q.Recorded := by
  induction h with
  | refl => exact hp
  | tail _ hmove ih => exact hmove.recorded ih

/-- The exports insert exports. -/
theorem inserted_exports (h : Moves .exports p q) (hp : ∀ x ∈ p.inserted, x.1 = .exports) :
    ∀ x ∈ q.inserted, x.1 = .exports := by
  induction h with
  | refl => exact hp
  | tail _ hmove ih => exact hmove.inserted_exports ih

/-- The imports keep insertions apart. -/
theorem pairwise_apart (h : Moves .imports p q) (hrecorded : p.Recorded)
    (hp : p.inserted.Pairwise Apart) : q.inserted.Pairwise Apart := by
  induction h with
  | refl => exact hp
  | tail hmoves hmove ih => exact hmove.pairwise_apart (Moves.recorded hmoves hrecorded) ih

end Moves

/-! ### The table of an image -/

/-- An import is the only symbol at its address. -/
theorem atAddress_of_pairwise_apart {l : List (Phase × Symbol)} (h : l.Pairwise Apart) {s : Symbol}
    (hs : (.imports, s) ∈ l) : atAddress (l.map Prod.snd) s.address = [s] := by
  obtain ⟨before, behind, rfl⟩ := List.append_of_mem hs
  obtain ⟨-, hbehind, hbefore⟩ := List.pairwise_append.mp h
  have hnone : atAddress (before.map Prod.snd) s.address = [] := by
    refine atAddress_eq_nil fun x hx heq => ?_
    obtain ⟨y, hy, rfl⟩ := List.mem_map.mp hx
    exact nomatch (hbefore y hy _ List.mem_cons_self heq).2
  have hnone' : atAddress (behind.map Prod.snd) s.address = [] := by
    refine atAddress_eq_nil fun x hx heq => ?_
    obtain ⟨y, hy, rfl⟩ := List.mem_map.mp hx
    exact nomatch ((List.pairwise_cons.mp hbehind).1 y hy heq.symm).1
  rw [List.map_append, List.map_cons, atAddress_append, hnone, atAddress_cons_self, hnone']
  rfl

namespace Image

variable {image : Image} {settings : SymbolSettings} {table : SymbolTable}

/-- The progress in which a build ends. -/
theorem exists_progress_of_outcome (h : (image.buildSymbols settings).outcome = .ok table) :
    ∃ q : Progress, q.table = table ∧ (image.buildSymbols settings).history = q.trail.reverse ∧
      q.Recorded ∧ q.inserted.Pairwise Apart := by
  have hwalk := Walk.walkImage_ends image settings
  have hhistory : (image.buildSymbols settings).history =
    ((Walk.walkImage image settings).after .start).2.trail.reverse := rfl
  rw [outcome_eq] at h
  rw [hhistory]
  unfold Walk.Ends at hwalk
  match (Walk.walkImage image settings).after .start, hwalk, h with
  | (.ok _, q), ⟨mid, hexports, himports, _⟩, h =>
    have hmid : mid.Recorded := Moves.recorded hexports Progress.recorded_start
    have honly := Moves.inserted_exports hexports fun x hx => absurd hx List.not_mem_nil
    refine ⟨q, Except.ok.inj h, rfl, Moves.recorded himports hmid,
      Moves.pairwise_apart himports hmid ?_⟩
    exact List.pairwise_of_forall_mem_list fun x hx y hy _ => ⟨honly x hx, honly y hy⟩

end Image

/-- A table is the stable sort of what was inserted into it. -/
theorem Progress.Recorded.toList_eq {p : Progress} (h : p.Recorded) :
    p.table.toList = stableSort (p.inserted.map Prod.snd) :=
  eq_of_atAddress_eq p.table.ordered_toList (stableSort_ordered _) fun address => by
    rw [h address, atAddress_stableSort]

/-- **Imports stand alone.** The table of an image is ordered by address, a symbol that the imports
inserted is the only one at its address, and the entries of the table can be given the phases that
inserted them so that any two at one address are exports. -/
theorem Image.imports_distinct {image : Image} {settings : SymbolSettings} {table : SymbolTable}
    (h : (image.buildSymbols settings).outcome = .ok table) :
    table.toList.Pairwise (fun a b => a.address ≤ b.address) ∧
    (∀ s ∈ (image.buildSymbols settings).insertedIn .imports,
      table.toList.filter (fun t => t.address = s.address) = [s]) ∧
    ∃ entries : List (Phase × Symbol), entries.map Prod.snd = table.toList ∧
      entries.Perm ((image.buildSymbols settings).history.filterMap Event.insertion?) ∧
      entries.Pairwise fun x y =>
        x.2.address = y.2.address → x.1 = .exports ∧ y.1 = .exports := by
  obtain ⟨q, rfl, hhistory, hrecorded, hapart⟩ := exists_progress_of_outcome h
  refine ⟨q.table.ordered, fun s hs => ?_, ?_⟩
  · rw [SymbolBuild.insertedIn, hhistory] at hs
    obtain ⟨e, he, hes⟩ := List.mem_filterMap.mp hs
    have hmem : (.imports, s) ∈ q.inserted :=
      List.mem_filterMap.mpr ⟨e, he, Event.symbolOf?_eq_some_iff.mp hes⟩
    exact (hrecorded s.address).trans (atAddress_of_pairwise_apart hapart hmem)
  · have hperm := List.mergeSort_perm q.inserted fun x y => addressLe x.2 y.2
    refine ⟨q.inserted.mergeSort fun x y => addressLe x.2 y.2, ?_, ?_, ?_⟩
    · rw [hrecorded.toList_eq]
      exact List.map_mergeSort fun _ _ _ _ => rfl
    · rw [hhistory]
      exact hperm
    · exact (hperm.pairwise_iff Apart.symm).mpr hapart

/-- Of the two imports of the small file the first is passed over, since its address is that of the
entry point, and the second stands alone. -/
theorem Image.imports_distinct_sample :
    ∃ image table, Image.read Sample.buffer = .ok image ∧
      (image.buildSymbols { unresolved := .skip }).outcome = .ok table ∧
      ((image.buildSymbols { unresolved := .skip }).insertedIn .imports).map (·.address) =
        [0x1074] ∧
      ∀ s ∈ (image.buildSymbols { unresolved := .skip }).insertedIn .imports,
        table.toList.filter (fun t => t.address = s.address) = [s] := by
  have himports : (Image.read Sample.buffer).toOption.map (fun image =>
      ((image.buildSymbols { unresolved := .skip }).insertedIn .imports).map (·.address)) =
        some [0x1074] := by decide +kernel
  obtain ⟨image, himage⟩ := Sample.exists_read
  rw [himage] at himports
  obtain ⟨table, htable⟩ := image.exists_outcome_of_skip { unresolved := .skip } rfl
  exact ⟨image, table, himage, htable, Option.some.inj himports, (imports_distinct htable).2.1⟩

end PeListing
