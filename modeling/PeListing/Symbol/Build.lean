import PeListing.Symbol.ImportWalk

/-!
# The symbol table of an image

The exports come first, then the imports. A directory that the image does not have is left out.
-/

namespace PeListing

namespace Walk

/-- Walks a directory, if the image has it; `entry` stands for the whole of it and `absent` is the
event that it is not there. -/
def walkDirectory (policy : UnresolvedPolicy) (directory : DataDirectory) (entry : Entry)
    (absent : Event) (walk : UInt32 → Walk Unit) : Walk Unit := do
  if directory.isPresent then
    let _ ← recover policy entry (walk directory.virtualAddress)
  else note absent

/-- Walks both directories of an image. -/
def walkImage (image : Image) (settings : SymbolSettings) : Walk Unit := do
  walkDirectory settings.unresolved (image.directory Image.exportSlot) .exportDirectory
    .noExportDirectory (walkExports image settings)
  walkDirectory settings.unresolved (image.directory Image.importSlot) .importDirectory
    .noImportDirectory (walkImports image settings)
  let table := (← get).table
  note (.built table.size table.skipped)

end Walk

/-- What a walk over an image comes to. -/
structure SymbolBuild where
  /-- The table, or why there is none. -/
  outcome : Except (Fault Defect) SymbolTable
  /-- What happened, in order. -/
  history : List Event

namespace SymbolBuild

/-- The symbols that a phase put into the table, in order. -/
def insertedIn (b : SymbolBuild) (phase : Phase) : List Symbol :=
  b.history.filterMap (Event.symbolOf? phase)

end SymbolBuild

/-- The symbol table of an image, with its history. -/
def Image.buildSymbols (image : Image) (settings : SymbolSettings) : SymbolBuild :=
  let (result, progress) := (Walk.walkImage image settings).run.run .start
  ⟨result.map fun _ => progress.table, progress.trail.reverse⟩

end PeListing
