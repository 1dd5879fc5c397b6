import PeListing.Proofs.Stages

/-!
# A command is all or nothing

The status of a command says at which stage it ended (`Course.status_iff`). A command that fails has
printed nothing (`Course.of_failed`), and one that does not has printed all that it was asked for
(`Course.printed_of_ok`).
-/

namespace PeListing

/-! ### Statuses and messages -/

namespace Failure

/-- No failure has the exit status of success. -/
theorem exitStatus_ne_zero (failure : Failure) : failure.exitStatus ≠ 0 := by
  unfold exitStatus
  split <;> decide

/-- A defect of the format has one of four statuses. -/
theorem exitStatus_of_format {cause : Defect} (h : cause.OfFormat) :
    (image cause).exitStatus ∈ [10, 11, 12, 13] := by
  cases cause with
  | unresolvedRva | outOfBounds | symbolCollision => cases h
  | _ => simp [exitStatus]

/-- A defect of resolution has the status 14. -/
theorem exitStatus_of_resolution {cause : Defect} (h : cause.OfResolution) :
    (image cause).exitStatus = 14 := by
  cases cause with
  | unresolvedRva | outOfBounds | symbolCollision => rfl
  | _ => cases h

end Failure

/-- The status of a command that has ended. -/
def endStatus : Except Abandoned Unit → Nat
  | .ok _ => 0
  | .error reason => reason.exitStatus

/-- What a command that has ended says last: why it failed, if it did. -/
def lastWords : Except Abandoned Unit → List String
  | .ok _ => []
  | .error reason => [reason.message]

namespace Outcome

/-- What has been said to the user, in order. -/
def spoken (o : Outcome) : List String := o.notices.filterMap Notice.spoken?

/-- No filter keeps from the user what is said to them, and a command that ends early says why. -/
theorem spoken_ofEnd (options : Options) (filter : Log.Filter) (ending : Except Abandoned Unit)
    (t : Transcript) :
    (ofEnd options filter (ending, t)).spoken = t.spoken ++ lastWords ending := by
  have hfilter : ∀ notices : List Notice,
      (notices.filter (Notice.passes filter)).reverse.filterMap Notice.spoken? =
        (notices.filterMap Notice.spoken?).reverse := by
    intro notices
    -- only records can fail to pass, and they say nothing to the user
    rw [List.filterMap_reverse, List.filterMap_filter]
    congr 2
    funext n
    cases n with
    | record r => exact ite_self none
    | message text => rfl
  cases ending with
  | ok _ => exact (hfilter t.notices).trans (List.append_nil _).symm
  | error reason =>
    refine (hfilter (.message reason.message :: t.notices)).trans ?_
    simp [Notice.spoken?, Transcript.spoken, lastWords]

end Outcome

/-! ### What a course says about the outcome -/

namespace Course

variable {d : Disassembler} {options : Options} {files : Files}
  {ending : Except Abandoned Unit} {warned : List String} {printed : String}

/-- The user is warned about the symbols if there are symbols. -/
theorem warned_eq (h : Course d options files ending warned printed) :
    warned = ((options.table? files).map SymbolTable.warnings).getD [] := by
  cases h with
  | unset hsettings =>
    rw [Options.table?_eq_none (Options.image?_eq_none (Options.buffer?_eq_none hsettings))]
    rfl
  | unloaded _ hbuffer =>
    rw [Options.table?_eq_none (Options.image?_eq_none hbuffer)]
    rfl
  | unreadable _ hbuffer hread =>
    rw [Options.table?_eq_none (Options.image?_eq_none_of_defect hbuffer hread)]
    rfl
  | unresolved _ _ _ htable => simp [htable]
  | undecodable _ _ _ htable | symbols _ _ _ htable | listing _ _ _ htable => simp [htable]

/-- A command that fails has printed nothing. -/
theorem of_failed {reason : Abandoned} (h : Course d options files (.error reason) warned printed) :
    printed = "" ∧ ∃ context failure, reason = .failed context failure := by
  cases h <;> exact ⟨rfl, _, _, rfl⟩

/-- The status says which stage failed. -/
theorem status_iff (h : Course d options files ending warned printed) :
    (endStatus ending = 4 ↔ options.settings? files = none) ∧
    (endStatus ending = 3 ↔ (options.settings? files).isSome ∧ options.buffer? files = none) ∧
    (endStatus ending ∈ [10, 11, 12, 13] ↔
      (options.buffer? files).isSome ∧ options.image? files = none) ∧
    (endStatus ending = 14 ↔ (options.image? files).isSome ∧ options.table? files = none) ∧
    (endStatus ending = 5 ↔ (options.table? files).isSome ∧ options.symbols = false ∧
      (options.image? files).map Image.machine = some .ia64) := by
  cases h with
  | unset hsettings =>
    have hbuffer := Options.buffer?_eq_none hsettings
    have himage := Options.image?_eq_none hbuffer
    have htable := Options.table?_eq_none himage
    simp [endStatus, Abandoned.exitStatus, Failure.exitStatus, hsettings, hbuffer, himage, htable]
  | unloaded hsettings hbuffer =>
    have himage := Options.image?_eq_none hbuffer
    have htable := Options.table?_eq_none himage
    simp [endStatus, Abandoned.exitStatus, Failure.exitStatus, hsettings, hbuffer, himage, htable]
  | unreadable hsettings hbuffer hread hformat =>
    have himage := Options.image?_eq_none_of_defect hbuffer hread
    have htable := Options.table?_eq_none himage
    have hstatus := Failure.exitStatus_of_format hformat
    simp only [List.mem_cons, List.not_mem_nil, or_false] at hstatus
    rcases hstatus with hstatus | hstatus | hstatus | hstatus <;>
      simp [endStatus, Abandoned.exitStatus, hstatus, hsettings, hbuffer, himage, htable]
  | unresolved hsettings hbuffer himage htable _ hresolution =>
    simp [endStatus, Abandoned.exitStatus, Failure.exitStatus_of_resolution hresolution, hsettings,
      hbuffer, himage, htable]
  | undecodable hsettings hbuffer himage htable hsymbols hmachine =>
    simp [endStatus, Abandoned.exitStatus, Failure.exitStatus, hsettings, hbuffer, himage, htable,
      hsymbols, hmachine]
  | symbols hsettings hbuffer himage htable hsymbols =>
    simp [endStatus, hsettings, hbuffer, himage, htable, hsymbols]
  | listing hsettings hbuffer himage htable hsymbols hmachine =>
    simp [endStatus, hsettings, hbuffer, himage, htable, hmachine]

/-- An entry that does not resolve ends a command only if neither its options nor its settings file
allow to pass over it. -/
theorem abort_of_status (h : Course d options files ending warned printed)
    (hstatus : endStatus ending = 14) : options.skipUnresolved = false ∧
      ∃ settings, options.ownSettings? files = some settings ∧
        settings.symbols.unresolved = .abort := by
  cases h with
  | unresolved hsettings _ _ _ habort _ =>
    obtain ⟨ownSettings, hown, rfl⟩ := Option.map_eq_some_iff.mp hsettings
    unfold Session.applyOptions at habort
    cases hskip : options.skipUnresolved with
    | true => simp [hskip] at habort
    | false =>
      rw [hskip] at habort
      exact ⟨rfl, ownSettings, hown, habort⟩
  | unreadable _ _ _ hformat =>
    have hmem := Failure.exitStatus_of_format hformat
    rw [endStatus, Abandoned.exitStatus] at hstatus
    simp [hstatus] at hmem
  | unset | unloaded | undecodable | symbols | listing => cases hstatus

/-- A command that does not fail has printed what it was asked for. -/
theorem printed_of_ok (h : Course d options files (.ok ()) warned printed) :
    ∃ settings image table,
      options.settings? files = some settings ∧ options.image? files = some image ∧
      options.table? files = some table ∧
      if options.symbols then printed = Session.writeSymbols options table
      else ∃ written, image.writeListing d table settings.listing = .ok written ∧
        printed = written.text := by
  cases h with
  | symbols hsettings _ himage htable hsymbols =>
    refine ⟨_, _, _, hsettings, himage, htable, ?_⟩
    rw [if_pos hsymbols]
  | listing hsettings _ himage htable hsymbols _ hwritten =>
    refine ⟨_, _, _, hsettings, himage, htable, ?_⟩
    rw [if_neg (by rw [hsymbols]; exact Bool.false_ne_true)]
    exact ⟨_, hwritten, rfl⟩

/-- The status of a file without an image comes from its defect. -/
theorem status_of_defect (h : Course d options files ending warned printed) {b : Buffer}
    {cause : Defect} (hbuffer : options.buffer? files = some b)
    (hread : Image.read b = .error (.defect cause)) :
    endStatus ending = (Failure.image cause).exitStatus := by
  have himage := Options.image?_eq_none_of_defect hbuffer hread
  cases h with
  | unset hsettings => simp [Options.buffer?_eq_none hsettings] at hbuffer
  | unloaded _ hnone => simp [hnone] at hbuffer
  | unreadable _ hbuffer' hread' _ =>
    rw [hbuffer] at hbuffer'
    obtain rfl := Option.some.inj hbuffer'
    rw [hread] at hread'
    obtain rfl := Fault.defect.inj (Except.error.inj hread')
    rfl
  | unresolved _ _ hsome | undecodable _ _ hsome | symbols _ _ hsome | listing _ _ hsome =>
    simp [hsome] at himage

/-- A command that does not fail has no last words. -/
theorem status_eq_zero_iff (h : Course d options files ending warned printed) :
    endStatus ending = 0 ↔ lastWords ending = [] := by
  cases ending with
  | ok _ => exact iff_of_true rfl rfl
  | error reason =>
    obtain ⟨-, context, failure, rfl⟩ := h.of_failed
    exact iff_of_false failure.exitStatus_ne_zero (List.cons_ne_nil _ _)

/-- The last words of a command that fails are an error with its reason. -/
theorem exists_reason (h : Course d options files ending warned printed) {error : String}
    (hmem : error ∈ lastWords ending) : ∃ reason, error = "error: " ++ reason := by
  cases ending with
  | ok _ => cases hmem
  | error reason =>
    obtain ⟨-, context, failure, rfl⟩ := h.of_failed
    obtain rfl := List.mem_singleton.mp hmem
    cases context with
    | none => exact ⟨_, rfl⟩
    | some text =>
      refine ⟨text ++ ": " ++ failure.fullMessage, ?_⟩
      simp [Abandoned.message, String.append_assoc]

/-- There is no other status. -/
theorem status_mem (h : Course d options files ending warned printed) :
    endStatus ending ∈ [0, 3, 4, 5, 10, 11, 12, 13, 14] := by
  cases h with
  | unreadable _ _ _ hformat =>
    have hmem := Failure.exitStatus_of_format hformat
    exact (by decide : [10, 11, 12, 13] ⊆ [0, 3, 4, 5, 10, 11, 12, 13, 14]) hmem
  | unresolved _ _ _ _ _ hresolution =>
    rw [endStatus, Abandoned.exitStatus, Failure.exitStatus_of_resolution hresolution]
    decide
  | _ => simp [endStatus, Abandoned.exitStatus, Failure.exitStatus]

end Course

/-- The outcome of a command is that of its course. -/
theorem Options.exists_course (options : Options) (d : Disassembler) (filter : Log.Filter)
    (files : Files) (said : List Notice) :
    ∃ ending warned printed, Course d options files ending warned printed ∧
      (options.run d filter files said).status = endStatus ending ∧
      (options.run d filter files said).output = printed ∧
      (options.run d filter files said).spoken =
        Transcript.spoken ⟨said, []⟩ ++ warned ++ lastWords ending := by
  have hfollows := Session.command_follows d options files ⟨said, []⟩
  have hrun : options.run d filter files said =
    .ofEnd options filter ((Session.command d options files).after ⟨said, []⟩) := rfl
  generalize (Session.command d options files).after ⟨said, []⟩ = run at hfollows hrun
  obtain ⟨ending, t⟩ := run
  obtain ⟨warned, printed, hcourse, hprinted, hsaid⟩ := hfollows
  refine ⟨ending, warned, printed, hcourse, ?_, ?_, ?_⟩
  · rw [hrun]
    cases ending <;> rfl
  · rw [hrun, ← hprinted.trans String.empty_append]
    cases ending <;> rfl
  · rw [hrun, Outcome.spoken_ofEnd, hsaid]

/-- **A command is all or nothing.** It ends at the first of its stages that fails, and its status
says which: 4 without settings, 3 without a file of the right size, 10 to 13 by the defect of a file
without an image, 14 without symbols, 5 if it is to list code for a machine that cannot be decoded.
There is no other way to fail. With any status but 0 it has printed nothing, and with status 0 it
has printed all of what it was asked for.

It does not end without symbols if entries that do not resolve may be passed over, by its options or
by its settings file. It tells its user how many entries were passed over exactly if some were, and
after that why it failed exactly if it did.

All of this holds for every disassembler. Decoding and formatting give no errors, and setting a decoder
to a position of the code, which can fail, does not. -/
theorem Options.run_all_or_nothing (options : Options) (d : Disassembler) (filter : Log.Filter)
    (files : Files) (said : List Notice) :
    let outcome := options.run d filter files said
    outcome.status ∈ [0, 3, 4, 5, 10, 11, 12, 13, 14] ∧
    (outcome.status = 4 ↔ options.settings? files = none) ∧
    (outcome.status = 3 ↔ (options.settings? files).isSome ∧ options.buffer? files = none) ∧
    (outcome.status ∈ [10, 11, 12, 13] ↔
      (options.buffer? files).isSome ∧ options.image? files = none) ∧
    (∀ b cause, options.buffer? files = some b → Image.read b = .error (.defect cause) →
      outcome.status = (Failure.image cause).exitStatus) ∧
    (outcome.status = 14 ↔ (options.image? files).isSome ∧ options.table? files = none) ∧
    (outcome.status = 14 → options.skipUnresolved = false ∧
      ∃ settings, options.ownSettings? files = some settings ∧
        settings.symbols.unresolved = .abort) ∧
    (outcome.status = 5 ↔ (options.table? files).isSome ∧ options.symbols = false ∧
      (options.image? files).map Image.machine = some .ia64) ∧
    (outcome.status ≠ 0 → outcome.output = "") ∧
    (outcome.status = 0 → ∃ settings image table,
      options.settings? files = some settings ∧ options.image? files = some image ∧
      options.table? files = some table ∧
      if options.symbols then outcome.output = Session.writeSymbols options table
      else ∃ written, image.writeListing d table settings.listing = .ok written ∧
        outcome.output = written.text) ∧
    ∃ errors : List String,
      outcome.spoken = Transcript.spoken ⟨said, []⟩ ++
        ((options.table? files).map SymbolTable.warnings).getD [] ++ errors ∧
      (outcome.status = 0 ↔ errors = []) ∧
      ∀ error ∈ errors, ∃ reason, error = "error: " ++ reason := by
  obtain ⟨ending, warned, printed, hcourse, hstatus, houtput, hspoken⟩ :=
    options.exists_course d filter files said
  dsimp only
  rw [hstatus, houtput, hspoken, ← hcourse.warned_eq]
  obtain ⟨hsettings, hbuffer, himage, htable, hmachine⟩ := hcourse.status_iff
  refine ⟨hcourse.status_mem, hsettings, hbuffer, himage, fun _ _ => hcourse.status_of_defect,
    htable, hcourse.abort_of_status, hmachine, ?_, ?_, lastWords ending, rfl,
    hcourse.status_eq_zero_iff, fun _ => hcourse.exists_reason⟩
  · intro hne
    cases ending with
    | ok _ => exact absurd rfl hne
    | error _ => exact hcourse.of_failed.1
  · intro heq
    cases ending with
    | ok _ => exact hcourse.printed_of_ok
    | error reason =>
      obtain ⟨-, context, failure, rfl⟩ := hcourse.of_failed
      exact absurd heq failure.exitStatus_ne_zero

end PeListing
