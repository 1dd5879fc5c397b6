import PeListing.Settings.Basic
import PeListing.Symbol.Event
import PeListing.Symbol.Table
import PeListing.Word

/-!
# Symbol walks

A walk reads entries of an image one after another and puts symbols into a table. It is a
computation on its `Progress` that may fail; what it has done before a failure stays done, so that
an enclosing step can pass over the failure and go on (`recover`).

A failure is passed over only if the policy says so and the defect is one of resolution. A number
that leaves its range is never passed over.
-/

namespace PeListing

/-- What a walk has done so far. -/
structure Progress where
  /-- The table. -/
  table : SymbolTable
  /-- The number of imported functions met, resolved or not. -/
  importsWalked : Nat
  /-- What happened, the latest first. -/
  trail : List Event

namespace Progress

/-- The start of a walk. -/
def start : Progress := ⟨.empty, 0, []⟩

/-- The progress with one more event. -/
def note (e : Event) (p : Progress) : Progress := { p with trail := e :: p.trail }

/-- The progress with one more symbol. -/
def insert (phase : Phase) (s : Symbol) (p : Progress) : Progress :=
  { p.note (.inserted phase s) with table := p.table.insert s }

end Progress

/-- A computation on the progress of a walk, which keeps the progress when it fails. -/
abbrev Walk (α : Type) : Type := ExceptT (Fault Defect) (StateM Progress) α

namespace Walk

/-- A computation that leaves the progress alone. -/
def ofExcept {α : Type} (x : Except (Fault Defect) α) : Walk α := x

/-- Adds an event to the history. -/
def note (e : Event) : Walk Unit := modify (Progress.note e)

/-- Puts a symbol into the table. -/
def insert (phase : Phase) (s : Symbol) : Walk Unit := modify (Progress.insert phase s)

/-- Counts an entry that is passed over. -/
def skip (entry : Entry) (cause : Defect) : Walk Unit := do
  note (.skipped entry cause)
  let table ← ofExcept (← get).table.skip
  modify fun p => { p with table := table }

/-- Counts an imported function, in a word of 32 bits. -/
def countImport : Walk Unit := do
  let count ← ofExcept (Word.add32 (← get).importsWalked 1)
  modify fun p => { p with importsWalked := count }

/-- The result of a step, or nothing where the step failed to resolve and the policy is to pass
over it. -/
def recover {α : Type} (policy : UnresolvedPolicy) (entry : Entry) (step : Walk α) :
    Walk (Option α) :=
  tryCatch (some <$> step) fun
    | .defect cause =>
      if cause.isResolution && policy = .skip then do
        skip entry cause
        return none
      else throw (.defect cause)
    | fault => throw fault

end Walk

end PeListing
