import RuleScan.Host
import RuleScan.Module.Symbols
import RuleScan.Text.Quoted

/-!
The link check: a module links if the host provides every function that it imports, and it exports a
main function. The check sees a module only through the functions that it imports and exports; imports
of other kinds are not looked at.
-/
namespace RuleScan

/-- A function that a module imports. -/
structure ImportedFunction where
  module : String
  name : String
  type : FuncType
deriving DecidableEq, Repr

/-- A function that a module exports, by its index among all functions. -/
structure ExportedFunction where
  name : String
  index : Nat
  type : FuncType
deriving DecidableEq, Repr

/-- The functions that a module shares with its host. -/
structure Interface where
  imported : List ImportedFunction
  exported : List ExportedFunction
deriving DecidableEq, Repr

/-- Why a module does not link. -/
inductive LinkError where
  | unknownModule (module : String)
  | unknownFunction (module name : String)
  | signature (module name : String) (actual expected : FuncType)
  | noMain
  /-- The main function has parameters or results. -/
  | mainType
deriving DecidableEq, Repr

def LinkError.message (e : LinkError) : String :=
  detail e ++ ": module does not link against the host functions"
where
  /-- What is wrong. -/
  detail : LinkError → String
    | .unknownModule m => "unknown import module " ++ Text.quoted m
    | .unknownFunction m n => "unknown host function " ++ m ++ "." ++ n
    | .signature m n actual expected =>
      "signature mismatch for " ++ m ++ "." ++ n ++ ": module has " ++ actual.text ++
        ", host has " ++ expected.text
    | .noMain => "module does not export " ++ Text.quoted mainName
    | .mainType => Text.quoted mainName ++ " must take no parameters and return nothing"

namespace ImportedFunction

/-- Whether the host provides a function: it has to be in the host's module, and known there with the
same type. -/
def check (f : ImportedFunction) : Except LinkError Unit :=
  if f.module ≠ HostFunction.moduleName then .error (.unknownModule f.module)
  else match HostFunction.ofName? f.name with
    | none => .error (.unknownFunction f.module f.name)
    | some h =>
      if f.type = h.type then .ok () else .error (.signature f.module f.name f.type h.type)

/-- What an imported function is resolved to. -/
def resolve? (f : ImportedFunction) : Option HostFunction := do
  guard (f.module = HostFunction.moduleName)
  let h ← HostFunction.ofName? f.name
  guard (f.type = h.type)
  return h

end ImportedFunction

namespace Interface

def exported? (i : Interface) (name : String) : Option ExportedFunction :=
  i.exported.find? (·.name == name)

/-- Whether the main function is exported and takes and gives nothing. -/
def checkMain (i : Interface) : Except LinkError Unit :=
  match i.exported? mainName with
  | none => .error .noMain
  | some e => if e.type = mainType then .ok () else .error .mainType

/-- The link check: the imports in order, then the main function. -/
def check (i : Interface) : Except LinkError Unit := do
  i.imported.forM ImportedFunction.check
  i.checkMain

end Interface

end RuleScan
