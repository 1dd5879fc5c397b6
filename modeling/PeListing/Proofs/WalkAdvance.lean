import Mathlib.Logic.Relation
import PeListing.Proofs.ImageRange
import PeListing.Proofs.WalkLogic
import PeListing.Symbol.Build

/-!
# What a walk does to its progress

Whatever the bytes of an image are, a walk changes its progress by a few kinds of moves (`Move`):
it notes an event, passes over an entry, counts an imported function, and inserts a symbol. An
imported symbol is inserted only where its address is free.

How much a walk does is bounded beforehand. The *weight* of a progress is the number of symbols and
of entries passed over, together with the number of imported functions that may still be met.
Meeting an imported function takes one from the weight, and its symbol or its defect gives it back.
So `Advance cap phase charge p q`, a way by moves from `p` to `q` on which the weight grows by
`charge` at most, holds for a `charge` that depends on the limits and on the size of the file only.

`w.Advances cap phase charge p good` says that the walk `w` ends in such an advance, be it with a
value or with a defect, and that all its defects are defects of resolution. Every walk has one
statement of this form.
-/

namespace PeListing

/-- The symbol that an event inserts, with its phase. -/
def Event.insertion? : Event → Option (Phase × Symbol)
  | .inserted phase s => some (phase, s)
  | _ => none

/-- The entry that an event passes over, with the reason. -/
def Event.passing? : Event → Option (Entry × Defect)
  | .skipped entry cause => some (entry, cause)
  | _ => none

/-- The phase that an entry belongs to. -/
def Entry.phase : Entry → Phase
  | .exportDirectory | .exportAddressSlot | .exportNameOrdinal | .exportName => .exports
  | .importDirectory | .importDescriptor | .importThunk => .imports

/-- What a walk in some phase may do to its progress. -/
inductive Move : Phase → Progress → Progress → Prop
  /-- An event that neither inserts a symbol nor passes over an entry is noted. -/
  | noted {phase : Phase} {p : Progress} (e : Event) (hinsertion : e.insertion? = none)
      (hpassing : e.passing? = none) : Move phase p (p.note e)
  /-- An entry of the phase that does not resolve is passed over. -/
  | passed {p : Progress} (entry : Entry) (cause : Defect) (h : cause.OfResolution) :
      Move entry.phase p (p.pass entry cause)
  /-- A symbol of the exports is inserted. -/
  | exported {p : Progress} (s : Symbol) : Move .exports p (p.insert .exports s)
  /-- An imported function is met. -/
  | counted {p : Progress} : Move .imports p p.countImport
  /-- A symbol of the imports is inserted at an address that is free. -/
  | imported {p : Progress} (s : Symbol) (h : p.table.contains s.address = false) :
      Move .imports p (p.insert .imports s)

/-- Any number of moves. -/
abbrev Moves (phase : Phase) : Progress → Progress → Prop := Relation.ReflTransGen (Move phase)

namespace Progress

/-- The number of entries that were dealt with: the symbols and the entries passed over. -/
def load (p : Progress) : Nat := p.table.size + p.table.skipped

/-- The load, with the imported functions that may still be met when there can be `cap` of them. -/
def weight (cap : Nat) (p : Progress) : Nat := p.load + (cap - p.importsWalked)

variable (cap : Nat) (p : Progress)

/-- An entry that is passed over adds one to the weight. -/
@[simp] theorem weight_pass (entry : Entry) (cause : Defect) :
    (p.pass entry cause).weight cap = p.weight cap + 1 := by
  change p.load + 1 + (cap - p.importsWalked) = p.load + (cap - p.importsWalked) + 1
  omega

/-- A symbol adds one to the load. -/
@[simp] theorem load_insert (phase : Phase) (s : Symbol) :
    (p.insert phase s).load = p.load + 1 := by
  change (p.table.symbols.insertIdx _ s (p.table.upperBound_le _)).size + p.table.skipped = _
  rw [Array.size_insertIdx]
  exact Nat.add_right_comm _ _ _

/-- A symbol adds one to the weight. -/
@[simp] theorem weight_insert (phase : Phase) (s : Symbol) :
    (p.insert phase s).weight cap = p.weight cap + 1 := by
  unfold weight
  rw [load_insert]
  exact Nat.add_right_comm _ _ _

/-- An imported function is counted. -/
@[simp] theorem importsWalked_countImport :
    p.countImport.importsWalked = p.importsWalked + 1 := rfl

/-- An imported function is taken from those that may still be met. -/
theorem weight_countImport {cap : Nat} {p : Progress} (h : p.importsWalked < cap) :
    p.countImport.weight cap + 1 = p.weight cap := by
  change p.load + (cap - (p.importsWalked + 1)) + 1 = p.load + (cap - p.importsWalked)
  omega

/-- The weight is not less than the number of entries passed over. -/
theorem skipped_le_weight : p.table.skipped ≤ p.weight cap :=
  Nat.le_trans (Nat.le_add_left _ _) (Nat.le_add_right _ _)

end Progress

/-- A way by moves from `p` to `q` on which the weight grows by `charge` at most. -/
structure Advance (cap : Nat) (phase : Phase) (charge : Nat) (p q : Progress) : Prop where
  /-- The way from `p` to `q`. -/
  moves : Moves phase p q
  /-- The weight of the end. -/
  weight_le : q.weight cap ≤ p.weight cap + charge

namespace Advance

variable {cap k l : Nat} {phase : Phase} {p p' q r : Progress}

theorem refl (cap k : Nat) (phase : Phase) (p : Progress) : Advance cap phase k p p :=
  ⟨.refl, Nat.le_add_right _ _⟩

/-- Two advances in sequence have the charges of both. -/
theorem trans (hpq : Advance cap phase k p q) (hqr : Advance cap phase l q r) :
    Advance cap phase (k + l) p r := by
  refine ⟨hpq.moves.trans hqr.moves, ?_⟩
  have hq := hpq.weight_le
  have hr := hqr.weight_le
  omega

/-- An advance may be charged for more. -/
theorem mono (h : Advance cap phase k p q) (hkl : k ≤ l) : Advance cap phase l p q :=
  ⟨h.moves, Nat.le_trans h.weight_le (Nat.add_le_add_left hkl _)⟩

/-- A move in front of an advance, paid for by the difference of the two charges. -/
theorem head (hmove : Move phase p p') (hweight : p'.weight cap + k ≤ p.weight cap + l)
    (h : Advance cap phase k p' q) : Advance cap phase l p q :=
  ⟨.head hmove h.moves, Nat.le_trans h.weight_le hweight⟩

/-- A move behind an advance. -/
theorem tail (h : Advance cap phase k p q) (hmove : Move phase q r)
    (hweight : r.weight cap ≤ q.weight cap + l) : Advance cap phase (k + l) p r :=
  h.trans ⟨.single hmove, hweight⟩

end Advance

namespace Walk

variable {α β : Type}

/-- A walk that leaves its progress alone and has no defects but those of resolution. -/
def Quiet (w : Walk α) (p : Progress) (good : α → Prop) : Prop :=
  w.Ends p (fun a q => good a ∧ q = p) fun cause q => cause.OfResolution ∧ q = p

/-- A walk that ends in an advance and has no defects but those of resolution. -/
def Advances (w : Walk α) (cap : Nat) (phase : Phase) (charge : Nat) (p : Progress)
    (good : α → Prop) : Prop :=
  w.Ends p (fun a q => good a ∧ Advance cap phase charge p q)
    fun cause q => cause.OfResolution ∧ Advance cap phase charge p q

namespace Quiet

variable {w : Walk α} {p : Progress} {good : α → Prop}

/-- A computation beside the walk is quiet. -/
theorem ofExcept {x : Except (Fault Defect) α} (h : Yields x good Defect.OfResolution) :
    Quiet (ofExcept x) p good :=
  Ends.ofExcept (h.mono (fun _ ha => ⟨ha, rfl⟩) fun _ hcause => ⟨hcause, rfl⟩)

theorem liftM {x : Except (Fault Defect) α} (h : Yields x good Defect.OfResolution) :
    Quiet (liftM x) p good := ofExcept h

/-- A computation that cannot leave the range of a number is quiet. -/
theorem liftM_defect {x : Except Defect α}
    (h : Yields (MonadLiftT.monadLift x) good Defect.OfResolution) :
    Quiet (MonadLiftT.monadLift x) p good :=
  Ends.liftM_defect (h.mono (fun _ ha => ⟨ha, rfl⟩) fun _ hcause => ⟨hcause, rfl⟩)

/-- Quiet walks in sequence are quiet. -/
theorem bind {f : α → Walk β} {good' : β → Prop} (hw : w.Quiet p good)
    (hf : ∀ a, good a → (f a).Quiet p good') : (w >>= f).Quiet p good' := by
  refine Ends.bind hw ?_
  rintro a q ⟨ha, rfl⟩
  exact hf a ha

/-- Looking at the progress is quiet. -/
theorem get_bind {f : Progress → Walk β} {good' : β → Prop} (hf : (f p).Quiet p good') :
    (get >>= f).Quiet p good' := Ends.get_bind hf

end Quiet

namespace Advances

variable {cap k l : Nat} {phase : Phase} {w : Walk α} {p p' : Progress} {good : α → Prop}
  {f : α → Walk β} {good' : β → Prop}

/-- A value is an advance without a charge. -/
theorem pure {a : α} (h : good a) : (Pure.pure a : Walk α).Advances cap phase k p good :=
  ⟨h, .refl cap k phase p⟩

/-- A defect of resolution is an advance without a charge. -/
theorem throw {cause : Defect} (h : cause.OfResolution) :
    (throw (.defect cause) : Walk α).Advances cap phase k p good :=
  ⟨h, .refl cap k phase p⟩

/-- An advance may be charged for more, and less may be known of its value. -/
theorem mono {good' : α → Prop} (h : w.Advances cap phase k p good) (hkl : k ≤ l)
    (hgood : ∀ a, good a → good' a) : w.Advances cap phase l p good' :=
  Ends.mono h (fun a _ ⟨ha, hadvance⟩ => ⟨hgood a ha, hadvance.mono hkl⟩)
    fun _ _ ⟨hcause, hadvance⟩ => ⟨hcause, hadvance.mono hkl⟩

/-- Walks in sequence advance by the charges of both. -/
theorem bind {m : Nat} (hw : w.Advances cap phase k p good) (hm : k + l ≤ m)
    (hf : ∀ a q, good a → Advance cap phase k p q → (f a).Advances cap phase l q good') :
    (w >>= f).Advances cap phase m p good' := by
  have hfirst : w.Ends p (fun a q => good a ∧ Advance cap phase k p q)
      fun cause q => cause.OfResolution ∧ Advance cap phase m p q :=
    Ends.mono hw (fun _ _ => id) fun _ _ ⟨hcause, hq⟩ => ⟨hcause, hq.mono (by omega)⟩
  refine hfirst.bind fun a q ⟨ha, hq⟩ => Ends.mono (hf a q ha hq) ?_ ?_
  · exact fun b r ⟨hb, hr⟩ => ⟨hb, (hq.trans hr).mono hm⟩
  · exact fun cause r ⟨hcause, hr⟩ => ⟨hcause, (hq.trans hr).mono hm⟩

/-- A quiet walk advances without a charge. -/
theorem of_quiet (h : w.Quiet p good) : w.Advances cap phase k p good := by
  refine Ends.mono h ?_ ?_
  · rintro a q ⟨ha, rfl⟩
    exact ⟨ha, .refl cap k phase _⟩
  · rintro cause q ⟨hcause, rfl⟩
    exact ⟨hcause, .refl cap k phase _⟩

/-- A quiet walk costs nothing, and the next one starts with the same progress. -/
theorem quiet_bind (hw : w.Quiet p good)
    (hf : ∀ a, good a → (f a).Advances cap phase k p good') :
    (w >>= f).Advances cap phase k p good' := by
  have hfirst : w.Ends p (fun a q => good a ∧ q = p)
      fun cause q => cause.OfResolution ∧ Advance cap phase k p q := by
    refine Ends.mono hw (fun _ _ => id) ?_
    rintro cause q ⟨hcause, rfl⟩
    exact ⟨hcause, .refl cap k phase _⟩
  refine hfirst.bind ?_
  rintro a q ⟨ha, rfl⟩
  exact hf a ha

/-- Looking at the progress is free. -/
theorem get_bind {f : Progress → Walk β} (hf : (f p).Advances cap phase k p good') :
    (get >>= f).Advances cap phase k p good' := Ends.get_bind hf

/-- A single move and what follows it, which the move may pay for. -/
theorem move_bind {a : α} (hw : w.after p = (.ok a, p')) (hmove : Move phase p p')
    (hweight : p'.weight cap + k ≤ p.weight cap + l)
    (hf : (f a).Advances cap phase k p' good') : (w >>= f).Advances cap phase l p good' := by
  unfold Advances Ends
  rw [after_bind, hw]
  exact Ends.mono hf (fun _ _ ⟨hb, hq⟩ => ⟨hb, .head hmove hweight hq⟩)
    fun _ _ ⟨hcause, hq⟩ => ⟨hcause, .head hmove hweight hq⟩

/-- A walk that is one move. -/
theorem move {a : α} (hw : w.after p = (.ok a, p')) (hmove : Move phase p p')
    (hweight : p'.weight cap ≤ p.weight cap + k) (h : good a) :
    w.Advances cap phase k p good := by
  unfold Advances Ends
  rw [hw]
  exact ⟨h, .head hmove hweight (.refl cap 0 phase p')⟩

theorem note {good : Unit → Prop} {e : Event} (hinsertion : e.insertion? = none)
    (hpassing : e.passing? = none) (h : good ()) : (note e).Advances cap phase k p good :=
  move (after_note e p) (.noted e hinsertion hpassing) (Nat.le_add_right _ _) h

/-- An event in front of a walk is free. -/
theorem note_bind {f : Unit → Walk β} {e : Event} (hinsertion : e.insertion? = none)
    (hpassing : e.passing? = none) (hf : (f ()).Advances cap phase k (p.note e) good') :
    (Walk.note e >>= f).Advances cap phase k p good' :=
  move_bind (after_note e p) (.noted e hinsertion hpassing) (Nat.le_refl _) hf

/-- A symbol costs one. -/
theorem insert_bind {f : Unit → Walk β} {s : Symbol} (hmove : Move phase p (p.insert phase s))
    (hf : (f ()).Advances cap phase k (p.insert phase s) good') :
    (Walk.insert phase s >>= f).Advances cap phase (k + 1) p good' := by
  refine move_bind (after_insert phase s p) hmove (Nat.le_of_eq ?_) hf
  rw [Progress.weight_insert]
  exact Nat.add_right_comm _ _ _

/-- Meeting an imported function pays for one entry. -/
theorem countImport_bind {f : Unit → Walk β} (hcap : p.importsWalked < cap)
    (h32 : cap < 0x100000000)
    (hf : (f ()).Advances cap .imports (k + 1) p.countImport good') :
    (Walk.countImport >>= f).Advances cap .imports k p good' := by
  have hweight := Progress.weight_countImport hcap
  exact move_bind (after_countImport (by omega)) .counted (by omega) hf

/-- A quiet step that may be passed over: it costs one where it fails, and what follows may cost
one more where it does not. -/
theorem recover_bind {f : Option α → Walk β} {policy : UnresolvedPolicy} {entry : Entry}
    (hlt : p.weight cap + 1 < Word.limit) (hw : w.Quiet p good)
    (hnone : ∀ cause : Defect, (f none).Advances cap entry.phase k (p.pass entry cause) good')
    (hsome : ∀ a, good a → (f (some a)).Advances cap entry.phase (k + 1) p good') :
    (recover policy entry w >>= f).Advances cap entry.phase (k + 1) p good' := by
  have hskipped := p.skipped_le_weight cap
  have hfirst : (recover policy entry w).Ends p
      (fun r q => (∃ a, r = some a ∧ good a ∧ q = p) ∨
        ∃ cause : Defect, r = none ∧ cause.OfResolution ∧ q = p.pass entry cause)
      fun cause q => cause.OfResolution ∧ Advance cap entry.phase (k + 1) p q := by
    refine Ends.recover (Ends.mono hw ?_ ?_)
    · exact fun a q ⟨ha, hq⟩ => .inl ⟨a, rfl, ha, hq⟩
    · rintro cause q ⟨hcause, rfl⟩
      exact ⟨hcause, by omega, .inr ⟨cause, rfl, hcause, rfl⟩, fun _ =>
        ⟨hcause, .refl cap (k + 1) entry.phase _⟩⟩
  refine hfirst.bind ?_
  rintro r q (⟨a, rfl, ha, rfl⟩ | ⟨cause, rfl, hcause, rfl⟩)
  · exact hsome a ha
  · have hweight : (p.pass entry cause).weight cap + k ≤ p.weight cap + (k + 1) := by
      rw [Progress.weight_pass]
      omega
    exact Ends.mono (hnone cause)
      (fun _ _ ⟨hb, hq⟩ => ⟨hb, .head (.passed entry cause hcause) hweight hq⟩)
      fun _ _ ⟨hcause', hq⟩ => ⟨hcause', .head (.passed entry cause hcause) hweight hq⟩

/-- A walk that may be passed over costs one more than it does by itself, and fails only if the
policy is to abort. -/
theorem recover_ends {policy : UnresolvedPolicy} {entry : Entry}
    (hlt : p.weight cap + k + 1 < Word.limit) (hw : w.Advances cap entry.phase k p good) :
    (Walk.recover policy entry w).Ends p (fun _ q => Advance cap entry.phase (k + 1) p q)
      fun cause q => policy = .abort ∧ cause.OfResolution ∧ Advance cap entry.phase (k + 1) p q := by
  refine Ends.recover (Ends.mono hw ?_ ?_)
  · exact fun a q ⟨_, hq⟩ => hq.mono (Nat.le_succ k)
  · rintro cause q ⟨hcause, hq⟩
    have hskipped := q.skipped_le_weight cap
    have hweight := hq.weight_le
    refine ⟨hcause, by omega, ?_, fun habort => ⟨habort, hcause, hq.mono (Nat.le_succ k)⟩⟩
    exact hq.tail (.passed entry cause hcause) (Nat.le_of_eq (q.weight_pass cap entry cause))

/-- A step that may be passed over is charged for one more. -/
theorem recover {policy : UnresolvedPolicy} {entry : Entry}
    (hlt : p.weight cap + k + 1 < Word.limit) (hw : w.Advances cap entry.phase k p good) :
    (Walk.recover policy entry w).Advances cap entry.phase (k + 1) p fun _ => True :=
  (hw.recover_ends hlt).mono (fun _ _ hq => ⟨trivial, hq⟩) fun _ _ ⟨_, h⟩ => h

end Advances

end Walk

end PeListing
