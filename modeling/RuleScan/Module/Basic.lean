import RuleScan.Bytecode.Instr
import RuleScan.Module.Layout
import RuleScan.Module.Symbols
import RuleScan.Sha256
import RuleScan.Text.Table

/-!
Modules: the binary with its content hash, and the program it was built from. The layout around a
program is always the same; only the body differs.
-/
namespace RuleScan

/-- A finished module. -/
structure Module where
  binary : List UInt8
  /-- The digest of the binary in hexadecimal digits. -/
  hash : String
  program : List Instr
  symbols : Symbols
deriving DecidableEq, Repr

namespace Module

/-- The index of the main function: after the imported ones. -/
def mainIndex : Nat := HostFunction.all.length

/-- The layout around a body. -/
def layoutOf (body : List UInt8) : Layout where
  types := HostFunction.all.map (·.type) ++ [mainType]
  imports := HostFunction.all.map fun h => ⟨HostFunction.moduleName, h.name, .function h.index⟩
  functions := [⟨mainIndex, mainLocals.map (·.2), body ++ [Opcode.end_.byte]⟩]
  exports := [⟨mainName, .function mainIndex⟩]
  names := some {
    functions := HostFunction.all.map (fun h => (h.index, h.name)) ++ [(mainIndex, mainName)]
    locals := [(mainIndex, mainLocals.zipIdx.map fun l => (l.2, l.1.1))] }

def ofLayout (layout : Layout) (program : List Instr) (symbols : Symbols) : Module where
  binary := layout.encode
  hash := Sha256.hexDigest layout.encode
  program := program
  symbols := symbols

/-- The first twelve digits of the hash, as a name for the module. -/
def shortHash (m : Module) : String := String.ofList (m.hash.toList.take 12)

/-- The rows of the listing of a program: place, operation and immediate. -/
def listingRows (program : List Instr) : List (List String) :=
  ["disasm", "l", "op", "opnd"] :: program.zipIdx.map fun (i, n) =>
    ["", toString n, Opcode.nameOfByte i.opcode, (i.immediate.map Immediate.text).getD ""]

def numberedLine (n : Nat) (s : String) : String := " " ++ Text.padLeft 8 (toString n) ++ " " ++ s

def listingLines (m : Module) (name : String) : List String :=
  ["Module: " ++ name ++ " (" ++ m.shortHash ++ ")", "Imports"] ++
  HostFunction.all.map (fun h =>
    numberedLine h.index (HostFunction.moduleName ++ "." ++ h.name ++ " " ++ h.type.text)) ++
  "Locals" :: mainLocals.zipIdx.map (fun l => numberedLine l.2 l.1.1) ++
  Text.alignRight 4 (listingRows m.program)

def listing (m : Module) (name : String) : String :=
  String.join ((m.listingLines name).map (· ++ "\n"))

end Module

end RuleScan
