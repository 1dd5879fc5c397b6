import PeListing.Image.ImportDescriptor
import PeListing.Symbol.ExportWalk

/-!
# The walk over imports

Every descriptor names a module and points to a lookup table of thunks. The `i`-th thunk of a
descriptor stands for the symbol in the `i`-th slot of the table that the loader fills in. Such a
symbol may not stand at an address that is taken.

One limit counts the thunks of all descriptors. The walk over the thunks of a descriptor ends
when the budget that is left is used up; the walk over descriptors ends at the end of the buffer
at the latest, since every descriptor takes room there.
-/

namespace PeListing.Walk

variable (image : Image) (settings : SymbolSettings)

/-- The name that a thunk gives, if it is not the end of its table. A name follows a hint of two
bytes. -/
def thunkName : Thunk → Option (Except (Fault Defect) String)
  | .stop => none
  | .ordinal number => some (.ok (Symbol.ordinalName number.toNat))
  | .byName rva => some do readName image settings (← Word.add rva.toNat 2)

/-- The symbol of a slot, which must not be taken. -/
def importSymbol (moduleName : String) (address : UInt64) (name : Except (Fault Defect) String) :
    Walk Symbol := do
  if (← get).table.contains address then throw (.defect (.symbolCollision address))
  return ⟨address, moduleName, ← name⟩

/-- Walks the thunks of a descriptor from the `index`-th on, `budget` of them at most, and gives
the number of thunks walked. -/
def walkThunks (descriptor : ImportDescriptor) (moduleName : String) (lookupOffset : Nat) :
    (budget index : Nat) → Walk Nat
  | 0, index => return index
  | budget + 1, index => do
    let offset ← image.buffer.elementOffset lookupOffset index image.kind.thunkSize
    let thunk ← Thunk.read image.buffer offset image.kind
    match thunkName image settings thunk with
    | none => return index
    | some name => do
      countImport
      let address ← descriptor.slotAddress image.kind index
      let next ← ofExcept (Word.add index 1)
      let symbol? ← recover settings.unresolved .importThunk
        (importSymbol moduleName address name)
      match symbol? with
      | none => walkThunks descriptor moduleName lookupOffset budget next
      | some symbol => do
        insert .imports symbol
        walkThunks descriptor moduleName lookupOffset budget next

/-- Walks the imports from one module. -/
def walkDescriptor (descriptor : ImportDescriptor) : Walk Unit := do
  let moduleName ← readModuleName image settings descriptor.nameRva
  let lookupOffset ← image.resolve descriptor.lookupRva.toNat
  let budget := settings.maxImports.toNat - (← get).importsWalked
  let thunks ← walkThunks image settings descriptor moduleName lookupOffset budget 0
  note (.descriptorWalked moduleName thunks)

/-- Walks the descriptors from an offset on and gives the number of modules; `room` is the number
of whole descriptors between there and the end of the buffer. -/
def walkDescriptors : (room offset modules : Nat) → Walk Nat
  | 0, offset, _ => throw (.defect (.outOfBounds offset image.buffer.size))
  | room + 1, offset, modules => do
    let descriptor ← ImportDescriptor.read image.buffer offset
    if descriptor.isTerminator then return modules
    else do
      let _ ← recover settings.unresolved .importDescriptor
        (walkDescriptor image settings descriptor)
      let modules ← ofExcept (Word.add modules 1)
      if settings.maxImports.toNat ≤ (← get).importsWalked then
        note (.importLimitReached settings.maxImports)
        return modules
      else
        match Word.add? offset ImportDescriptor.recordSize with
        | some next => walkDescriptors room next modules
        | none => throw (.defect (.outOfBounds offset image.buffer.size))

/-- Walks the imports of a directory. -/
def walkImports (rva : UInt32) : Walk Unit := do
  let offset ← image.resolve rva.toNat
  let room := (image.buffer.size - offset) / ImportDescriptor.recordSize
  let modules ← walkDescriptors image settings room offset 0
  note (.importsWalked modules (← get).importsWalked)

end PeListing.Walk
