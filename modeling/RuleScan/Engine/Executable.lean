import RuleScan.Engine.Linking
import RuleScan.Machine.Exec
import RuleScan.Machine.Validation
import RuleScan.Module.Reader
import RuleScan.Module.Validity

/-!
Executables: a binary is decoded and validated, checked against what the host provides, and then
instantiated for each run. Imports are resolved only as a module is instantiated, and the host provides
functions only; so a module that imports anything else can pass the link check and never run.

Code may use the operations of `Opcode`; a module that uses any other is refused as if it were not
valid. None of these operations reaches a memory, a table or a global. They are declared and checked,
but an instance keeps none of them, and of its data it matters only whether it fits.
-/
namespace RuleScan

/-- A module that has been validated. -/
structure Executable where
  /-- The hash of the module. -/
  hash : String
  layout : Layout
  imported : List ImportedFunction
  own : List OwnFunction
deriving DecidableEq, Repr

namespace Layout

/-- The functions that are imported, in order; `none` if a type does not exist. -/
def importedFunctions? (types : List FuncType) : List Import → Option (List ImportedFunction)
  | [] => some []
  | i :: imports =>
    match i.kind with
    | .function t => do
      let type ← types[t]?
      return ⟨i.module, i.name, type⟩ :: (← importedFunctions? types imports)
    | _ => importedFunctions? types imports

/-- Validates a function, in a module with the given types and functions. The size of a function is a
32-bit number in the binary format, so its body has fewer bytes than that. -/
def ownFunction? (types functions : List FuncType) (f : FunctionBody) : Option OwnFunction := do
  guard (f.body.length < UInt32.size)
  let type ← types[f.type]?
  let code ← Code.ofTokens? (← Token.readAll f.body)
  guard (code.isValidBody ⟨types, functions, type.params ++ f.locals, [], type.results⟩)
  return ⟨type, f.locals.map Value.zero, code⟩

end Layout

namespace Executable

/-- The types of all functions, in the order of their indexes. -/
def functionTypes (x : Executable) : List FuncType := x.imported.map (·.type) ++ x.own.map (·.type)

/-- Validates a module. -/
def ofLayout? (hash : String) (l : Layout) : Option Executable := do
  let imported ← Layout.importedFunctions? l.types l.imports
  let declared ← l.functions.mapM fun f => l.types[f.type]?
  let functions := imported.map (·.type) ++ declared
  guard (l.isValid functions)
  return ⟨hash, l, imported, ← l.functions.mapM (Layout.ownFunction? l.types functions)⟩

/-- Decodes and validates a binary with a given hash. -/
def ofBinary? (hash : String) (binary : List UInt8) : Option Executable := do
  ofLayout? hash (← Layout.decode binary)

def exportedFunction? (x : Executable) (e : Export) : Option ExportedFunction :=
  match e.kind with
  | .function i => (x.functionTypes[i]?).map fun type => ⟨e.name, i, type⟩
  | _ => none

/-- What the module shares with its host. -/
def interface (x : Executable) : Interface :=
  ⟨x.imported, x.layout.exports.filterMap x.exportedFunction?⟩

def checkLinks (x : Executable) : Except LinkError Unit := x.interface.check

/-- The index of an exported function. -/
def exported? (x : Executable) (name : String) : Option Nat :=
  (x.interface.exported? name).map (·.index)

/-- All functions that code can call: those of the host that imports are resolved to, and those of the
module. -/
def callees (x : Executable) (hosts : List HostFunction) : List Callee :=
  hosts.map .host ++ x.own.mapIdx fun n f => .own n f.type

/-- Resolves the imports; `none` if one cannot be, or if a data segment does not fit in its memory. -/
def instantiate? (x : Executable) : Option Instance := do
  guard (x.layout.imports.all Import.isFunction)
  let hosts ← x.imported.mapM ImportedFunction.resolve?
  guard x.layout.dataFits
  return ⟨x.layout.types, x.callees hosts, x.own⟩

end Executable

end RuleScan
