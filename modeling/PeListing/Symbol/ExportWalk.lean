import PeListing.Image.Basic
import PeListing.Image.ExportDirectory
import PeListing.Symbol.Walk

/-!
# The walk over exports

The directory of exports points to three tables: the addresses of the functions, the addresses of
their names, and for each name the index of its function. The walk first gives every function the
first name that the tables pair with it, then puts the functions into the table in the order of
their addresses' table. A function without a name is called by its ordinal, and an address of zero
marks an unused ordinal.
-/

namespace PeListing.Walk

variable (image : Image) (settings : SymbolSettings)

/-- The name at an address, as long as the settings allow. -/
def readName (rva : Nat) : Except (Fault Defect) String :=
  image.nameAt rva settings.maxNameLength.toNat

/-- The name of a module at an address, without its extension. -/
def readModuleName (rva : UInt32) : Except (Fault Defect) String := do
  moduleStem (← readName image settings rva.toNat)

/-- Pairs the `index`-th name with its function, unless that one has a name already. -/
def pairName (namesOffset ordinalsOffset index : Nat) (names : Array (Option String)) :
    Walk (Array (Option String)) := do
  let ordinal? ← recover settings.unresolved .exportNameOrdinal
    (image.buffer.tableU16 ordinalsOffset index)
  match ordinal? with
  | none => return names
  | some ordinal =>
    match names[ordinal.toNat]? with
    | none => do
      note (.ordinalOutOfRange index ordinal)
      return names
    | some (some _) => return names
    | some none => do
      let name? ← recover settings.unresolved .exportName do
        let rva ← image.buffer.tableU32 namesOffset index
        readName image settings rva.toNat
      match name? with
      | none => return names
      | some name => ofExcept (Select.replace names ordinal.toNat (some name))

/-- Pairs `count` names with their functions, from the `index`-th on. -/
def pairNames (namesOffset ordinalsOffset : Nat) :
    (count index : Nat) → Array (Option String) → Walk (Array (Option String))
  | 0, _, names => return names
  | count + 1, index, names => do
    let names ← pairName image settings namesOffset ordinalsOffset index names
    pairNames namesOffset ordinalsOffset count (index + 1) names

/-- The name of each function, where the tables have one. -/
def exportNames (directory : ExportDirectory) (functionCount nameCount : Nat) :
    Walk (Array (Option String)) := do
  let unnamed := Array.replicate functionCount none
  if nameCount = 0 then return unnamed
  let namesOffset ← image.resolve directory.namesRva.toNat
  let ordinalsOffset ← image.resolve directory.ordinalsRva.toNat
  pairNames image settings namesOffset ordinalsOffset nameCount 0 unnamed

/-- Puts the functions from the `index`-th on into the table and counts them. -/
def insertExports (directory : ExportDirectory) (moduleName : String) (functionsOffset : Nat) :
    (names : List (Option String)) → (index inserted : Nat) → Walk Nat
  | [], _, inserted => return inserted
  | name? :: names, index, inserted => do
    let slot? ← recover settings.unresolved .exportAddressSlot
      (image.buffer.tableU32 functionsOffset index)
    match slot? with
    | none => insertExports directory moduleName functionsOffset names (index + 1) inserted
    | some rva =>
      if rva = 0 then
        insertExports directory moduleName functionsOffset names (index + 1) inserted
      else do
        let ordinal := directory.ordinalBase + UInt32.ofNat index
        let name := name?.getD (Symbol.ordinalName ordinal.toNat)
        insert .exports ⟨rva.toUInt64, moduleName, name⟩
        let inserted ← ofExcept (Word.add inserted 1)
        insertExports directory moduleName functionsOffset names (index + 1) inserted

/-- No more functions than the settings allow. -/
def clampExports (declared : UInt32) : Walk UInt32 := do
  if settings.maxExports < declared then
    note (.exportsClamped declared settings.maxExports)
    return settings.maxExports
  else return declared

/-- Walks the exports of a directory: the entry point, then every function. -/
def walkExports (rva : UInt32) : Walk Unit := do
  let offset ← image.resolve rva.toNat
  let directory ← ExportDirectory.read image.buffer offset
  let moduleName ← readModuleName image settings directory.nameRva
  insert .exports ⟨image.entryPoint.toUInt64, moduleName, Symbol.entryPointName⟩
  let functionCount ← clampExports settings directory.functionCount
  if functionCount = 0 then note (.noFunctions moduleName)
  else do
    let nameCount := min directory.nameCount.toNat settings.maxExports.toNat
    let names ← exportNames image settings directory functionCount.toNat nameCount
    let functionsOffset ← image.resolve directory.functionsRva.toNat
    let inserted ← insertExports image settings directory moduleName functionsOffset
      names.toList 0 0
    note (.exportsWalked moduleName inserted)

end PeListing.Walk
