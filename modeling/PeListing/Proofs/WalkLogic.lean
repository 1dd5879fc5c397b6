import PeListing.Proofs.Outcome
import PeListing.Symbol.Walk

/-!
# How a walk ends

`w.Ends p good bad` is `Yields` for a walk that starts with the progress `p`: no number leaves its
range, and the value or the defect is judged together with the progress that the walk has made by
then. There is one rule for each of the steps that walks are made of.
-/

namespace PeListing

namespace Progress

/-- The progress with one more entry passed over. -/
def pass (entry : Entry) (cause : Defect) (p : Progress) : Progress :=
  { p.note (.skipped entry cause) with
    table := { p.table with skipped := p.table.skipped + 1 } }

/-- The progress with one more imported function. -/
def countImport (p : Progress) : Progress := { p with importsWalked := p.importsWalked + 1 }

end Progress

namespace Walk

variable {α β : Type}

/-- What becomes of a walk that starts with some progress. -/
def after (w : Walk α) (p : Progress) : Except (Fault Defect) α × Progress := w.run.run p

/-- A walk ends in a value with one property or in a defect with another. -/
def Ends (w : Walk α) (p : Progress) (good : α → Progress → Prop)
    (bad : Defect → Progress → Prop) : Prop :=
  match w.after p with
  | (.ok a, q) => good a q
  | (.error (.defect cause), q) => bad cause q
  | (.error _, _) => False

/-! ### What single steps do -/

/-- A second walk goes on from the value and the progress of the first one. -/
theorem after_bind (w : Walk α) (f : α → Walk β) (p : Progress) :
    (w >>= f).after p = match w.after p with
      | (.ok a, q) => (f a).after q
      | (.error fault, q) => (.error fault, q) := by
  rcases h : w.after p with ⟨fault | a, q⟩
  · exact run_run_bind_of_error h
  · exact run_run_bind_of_ok h

/-- A function of the value leaves the end as it is otherwise. -/
theorem after_map (f : α → β) (w : Walk α) (p : Progress) :
    (f <$> w).after p = match w.after p with
      | (.ok a, q) => (.ok (f a), q)
      | (.error fault, q) => (.error fault, q) := by
  rw [← bind_pure_comp, after_bind]
  rfl

/-- A handler goes on from where the walk failed. -/
theorem after_tryCatch (w : Walk α) (handler : Fault Defect → Walk α) (p : Progress) :
    (tryCatch w handler).after p = match w.after p with
      | (.ok a, q) => (.ok a, q)
      | (.error fault, q) => (handler fault).after q := by
  simp only [after, tryCatch, tryCatchThe, MonadExceptOf.tryCatch, ExceptT.tryCatch, ExceptT.mk,
    ExceptT.run, StateT.run_bind]
  rcases StateT.run w p with ⟨_ | _, q⟩ <;> rfl

/-- A computation beside the walk leaves the progress as it is. -/
@[simp] theorem after_ofExcept (x : Except (Fault Defect) α) (p : Progress) :
    (ofExcept x).after p = (x, p) := rfl

/-- An event is added to the progress. -/
@[simp] theorem after_note (e : Event) (p : Progress) : (note e).after p = (.ok (), p.note e) := rfl

/-- A symbol is added to the progress. -/
@[simp] theorem after_insert (phase : Phase) (s : Symbol) (p : Progress) :
    (insert phase s).after p = (.ok (), p.insert phase s) := rfl

/-- An entry is passed over where it can still be counted. -/
theorem after_skip {p : Progress} (h : p.table.skipped + 1 < Word.limit) (entry : Entry)
    (cause : Defect) : (skip entry cause).after p = (.ok (), p.pass entry cause) := by
  have htable : (p.table.skip : Except (Fault Defect) SymbolTable) =
      .ok { p.table with skipped := p.table.skipped + 1 } := by
    rw [SymbolTable.skip, Word.add_of_lt h]
    rfl
  change (ofExcept p.table.skip >>= fun table =>
    modify fun p => { p with table := table }).after (p.note (.skipped entry cause)) = _
  rw [after_bind, after_ofExcept, htable]
  rfl

/-- A count of entries that leaves its range stops the walk. -/
theorem after_skip_overflow {p : Progress} (h : ¬ p.table.skipped + 1 < Word.limit) (entry : Entry)
    (cause : Defect) :
    (skip entry cause).after p = (.error .overflow, p.note (.skipped entry cause)) := by
  have htable : (p.table.skip : Except (Fault Defect) SymbolTable) = .error .overflow := by
    simp only [SymbolTable.skip, Word.add, Word.add?, if_neg h]
    rfl
  change (ofExcept p.table.skip >>= fun table =>
    modify fun p => { p with table := table }).after (p.note (.skipped entry cause)) = _
  rw [after_bind, after_ofExcept, htable]

/-- An imported function is counted where it can still be. -/
theorem after_countImport {p : Progress} (h : p.importsWalked + 1 < 0x100000000) :
    countImport.after p = (.ok (), p.countImport) := by
  change (ofExcept (Word.add32 p.importsWalked 1) >>= fun count =>
    modify fun p => { p with importsWalked := count }).after p = _
  rw [after_bind, after_ofExcept, Word.add32_of_lt h]
  rfl

/-- Under `abort`, a step that fails ends the walk. -/
theorem after_recover_abort (entry : Entry) (w : Walk α) (p : Progress) :
    (recover .abort entry w).after p = match w.after p with
      | (.ok a, q) => (.ok (some a), q)
      | (.error fault, q) => (.error fault, q) := by
  unfold recover
  rw [after_tryCatch, after_map]
  rcases w.after p with ⟨(cause | _ | _) | a, q⟩
  · cases h : cause.isResolution <;> simp only [h] <;> rfl
  all_goals rfl

/-- Under `skip`, a defect of resolution is counted and passed over. -/
theorem after_recover_skip (entry : Entry) (w : Walk α) (p : Progress) :
    (recover .skip entry w).after p = match w.after p with
      | (.ok a, q) => (.ok (some a), q)
      | (.error (.defect cause), q) =>
        if cause.isResolution then (do skip entry cause; return none).after q
        else (.error (.defect cause), q)
      | (.error fault, q) => (.error fault, q) := by
  unfold recover
  rw [after_tryCatch, after_map]
  rcases w.after p with ⟨(cause | _ | _) | a, q⟩
  · cases h : cause.isResolution <;> simp only [h] <;> rfl
  all_goals rfl

/-! ### The rules -/

namespace Ends

variable {w : Walk α} {p : Progress} {good good' : α → Progress → Prop}
  {bad bad' : Defect → Progress → Prop}

/-- A value ends a walk where it is. -/
theorem pure {a : α} (h : good a p) : Ends (Pure.pure a) p good bad := h

/-- What is known of the end may be weakened. -/
theorem mono (h : w.Ends p good bad) (hgood : ∀ a q, good a q → good' a q)
    (hbad : ∀ cause q, bad cause q → bad' cause q) : w.Ends p good' bad' := by
  unfold Ends at h ⊢
  match w.after p, h with
  | (.ok a, q), h => exact hgood a q h
  | (.error (.defect cause), q), h => exact hbad cause q h

/-- A walk in sequence: what the first part ends in, the second may rely on. -/
theorem bind {f : α → Walk β} {good' : β → Progress → Prop} (hw : w.Ends p good bad)
    (hf : ∀ a q, good a q → (f a).Ends q good' bad) : (w >>= f).Ends p good' bad := by
  unfold Ends at hw ⊢
  rw [after_bind]
  match w.after p, hw with
  | (.ok a, q), h => exact hf a q h
  | (.error (.defect cause), q), h => exact h

/-- A computation beside the walk ends where the walk is. -/
theorem ofExcept {x : Except (Fault Defect) α} (h : Yields x (good · p) (bad · p)) :
    (ofExcept x).Ends p good bad := by
  match x, h with
  | .ok a, h => exact h
  | .error (.defect cause), h => exact h

/-- A computation that cannot leave the range of a number ends where the walk is. -/
theorem liftM_defect {x : Except Defect α}
    (h : Yields (MonadLiftT.monadLift x : Except (Fault Defect) α) (good · p) (bad · p)) :
    (MonadLiftT.monadLift x : Walk α).Ends p good bad := by
  match x, h with
  | .ok a, h => exact h
  | .error cause, h => exact h

/-- Looking at the progress gives it and changes nothing. -/
theorem get_bind {f : Progress → Walk α} (h : (f p).Ends p good bad) :
    (get >>= f).Ends p good bad := h

/-- An event ends a walk with one more event. -/
theorem note {good : Unit → Progress → Prop} {e : Event} (h : good () (p.note e)) :
    (note e).Ends p good bad := h

/-- A step that may be passed over. Where it ends in a defect of resolution, the progress either
counts one more entry or the walk ends there too, as the policy says. -/
theorem recover {good : Option α → Progress → Prop} {policy : UnresolvedPolicy} {entry : Entry}
    (h : w.Ends p (fun a q => good (some a) q) fun cause q => cause.isResolution = true ∧
      q.table.skipped + 1 < Word.limit ∧ good none (q.pass entry cause) ∧
        (policy = .abort → bad cause q)) :
    (recover policy entry w).Ends p good bad := by
  unfold Ends at h ⊢
  match policy with
  | .abort =>
    rw [after_recover_abort]
    match w.after p, h with
    | (.ok a, q), h => exact h
    | (.error (.defect _), _), ⟨_, _, _, hbad⟩ => exact hbad rfl
  | .skip =>
    rw [after_recover_skip]
    match w.after p, h with
    | (.ok a, q), h => exact h
    | (.error (.defect cause), q), ⟨hres, hlt, hgood, _⟩ =>
      dsimp only
      rw [if_pos hres, after_bind, after_skip hlt]
      exact hgood

end Ends

end Walk

end PeListing
