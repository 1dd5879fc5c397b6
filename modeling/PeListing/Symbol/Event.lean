import PeListing.Image.Defect
import PeListing.Log
import PeListing.Symbol.Basic

/-!
# Events of a symbol walk

A walk over the directories of an image leaves a history: which symbols it put into the table and
in which phase, which entries it passed over and why, where a limit cut it short. The log records
of a walk are the records of its events.
-/

namespace PeListing

/-- The part of a walk. -/
inductive Phase where
  /-- The exported functions and the entry point. -/
  | exports
  /-- The imported functions. -/
  | imports
  deriving DecidableEq, Repr

/-- What a walk may pass over when it does not resolve. -/
inductive Entry where
  /-- All exports. -/
  | exportDirectory
  /-- All imports that remain. -/
  | importDirectory
  /-- The address of one exported function. -/
  | exportAddressSlot
  /-- The function that one exported name belongs to. -/
  | exportNameOrdinal
  /-- One exported name. -/
  | exportName
  /-- The imports that remain from one module. -/
  | importDescriptor
  /-- One imported function. -/
  | importThunk
  deriving DecidableEq, Repr

/-- How an entry is called in messages. -/
def Entry.text : Entry → String
  | .exportDirectory => "export directory"
  | .importDirectory => "import directory"
  | .exportAddressSlot => "export address slot"
  | .exportNameOrdinal => "export name ordinal"
  | .exportName => "export name"
  | .importDescriptor => "import descriptor"
  | .importThunk => "import thunk"

/-- What happened in a walk. -/
inductive Event where
  /-- The image exports nothing. -/
  | noExportDirectory
  /-- The image imports nothing. -/
  | noImportDirectory
  /-- A symbol was put into the table. -/
  | inserted (phase : Phase) (symbol : Symbol)
  /-- An entry was passed over. -/
  | skipped (entry : Entry) (cause : Defect)
  /-- More functions were declared than the limit allows. -/
  | exportsClamped (declared limit : UInt32)
  /-- The directory of exports has no functions. -/
  | noFunctions (moduleName : String)
  /-- A name belongs to a function that is not there. -/
  | ordinalOutOfRange (index : Nat) (ordinal : UInt16)
  /-- The exports are done. -/
  | exportsWalked (moduleName : String) (count : Nat)
  /-- The limit on imports ended the walk. -/
  | importLimitReached (limit : UInt32)
  /-- The imports of one module are done. -/
  | descriptorWalked (moduleName : String) (thunks : Nat)
  /-- The imports are done. -/
  | importsWalked (modules imports : Nat)
  /-- The table is done. -/
  | built (symbols passed : Nat)
  deriving DecidableEq, Repr

namespace Event

/-- The symbol that was put into the table in a phase, if the event is of that kind. -/
def symbolOf? (phase : Phase) : Event → Option Symbol
  | .inserted phase' symbol => if phase' = phase then some symbol else none
  | _ => none

/-- The log record of an event. -/
def record (e : Event) : Log.Record :=
  let say (level : Log.Level) (message : String) (fields : List (String × Log.Value)) :
      Log.Record := ⟨level, "pedisasm::symbols::builder", message, fields⟩
  match e with
  | .noExportDirectory => say .debug "no export directory" []
  | .noImportDirectory => say .debug "no import directory" []
  | .inserted _ s => say .trace "insert symbol"
      [("address", .text ("0x" ++ Numeral.hex 0 s.address.toNat)), ("module", .text s.moduleName),
        ("name", .text s.name)]
  | .skipped entry cause => say .warn ("skipping " ++ entry.text) [("error", .text cause.message)]
  | .exportsClamped declared limit => say .warn "export count clamped"
      [("declared", .number declared.toNat), ("limit", .number limit.toNat)]
  | .noFunctions moduleName => say .debug "export directory has no functions"
      [("module", .text moduleName)]
  | .ordinalOutOfRange index ordinal => say .warn "export name ordinal out of range"
      [("index", .number index), ("ordinal", .number ordinal.toNat)]
  | .exportsWalked moduleName count => say .debug "exports walked"
      [("module", .text moduleName), ("exports", .number count)]
  | .importLimitReached limit => say .warn "import limit reached, stopping walk"
      [("limit", .number limit.toNat)]
  | .descriptorWalked moduleName thunks => say .debug "import descriptor walked"
      [("module", .text moduleName), ("thunks", .number thunks)]
  | .importsWalked modules imports => say .debug "imports walked"
      [("modules", .number modules), ("imports", .number imports)]
  | .built symbols passed => say .debug "symbol table built"
      [("symbols", .number symbols), ("skipped", .number passed)]

end Event

end PeListing
