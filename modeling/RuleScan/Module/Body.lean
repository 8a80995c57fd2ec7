import RuleScan.Bytecode.Instr
import RuleScan.Module.Symbols

/-!
The body of a main function while it is being emitted. It keeps track of the blocks that are open
and of the first misuse: emission goes on after a misuse, which is reported when the module is
built.
-/
namespace RuleScan

/-- What opened a block. -/
inductive Opener where
  | block
  | loop
  | if_
deriving DecidableEq, Repr

/-- Instructions that do not fit the blocks that are open. -/
inductive Misuse where
  | strayEnd
  | strayElse
  | branchTooDeep (depth : UInt32) (opened : Nat)
deriving DecidableEq, Repr

def Misuse.message : Misuse → String
  | strayEnd => "end without open block"
  | strayElse => "else outside of if"
  | branchTooDeep d n =>
    "branch depth " ++ toString d.toNat ++ " exceeds " ++ toString n ++ " open blocks"

/-- A body under construction. -/
structure Body where
  program : Array Instr
  /-- The open blocks, the innermost first. -/
  opened : List Opener
  /-- The first misuse, with the number of instructions before it. -/
  misuse : Option (Nat × Misuse)
deriving DecidableEq, Repr

namespace Body

def empty : Body := ⟨#[], [], none⟩

def size (b : Body) : Nat := b.program.size

def depth (b : Body) : Nat := b.opened.length

def push (b : Body) (i : Instr) : Body := { b with program := b.program.push i }

/-- Notes a misuse, unless there was one before. -/
def note (b : Body) (m : Misuse) : Body :=
  { b with misuse := b.misuse <|> some (b.size, m) }

def enter (b : Body) (o : Opener) (i : Instr) : Body :=
  { b with program := b.program.push i, opened := o :: b.opened }

/-- Appends a branch, whose depth may at most reach the function itself. -/
def branch (b : Body) (i : Instr) : Body :=
  match i.immediate with
  | some (.uint32 d) =>
    if b.depth < d.toNat then (b.note (.branchTooDeep d b.depth)).push i else b.push i
  | _ => b.push i

/-- Appends an instruction and keeps track of the blocks. An `end` with no open block is left
out. -/
def emit (b : Body) (i : Instr) : Body :=
  match Opcode.ofByte? i.opcode with
  | some .block => b.enter .block i
  | some .loop => b.enter .loop i
  | some .if_ => b.enter .if_ i
  | some .else_ =>
    match b.opened with
    | .if_ :: _ => b.push i
    | _ => (b.note .strayElse).push i
  | some .end_ =>
    match b.opened with
    | _ :: outer => { b with program := b.program.push i, opened := outer }
    | [] => b.note .strayEnd
  | some .br => b.branch i
  | some .brIf => b.branch i
  | _ => b.push i

def emitAll (b : Body) (is : List Instr) : Body := is.foldl emit b

end Body

namespace Instr

def clearException : List Instr :=
  [i32Const 0, indexed .localSet (UInt32.ofNat Symbols.standard.exceptionFlag)]

/-- Sets the exception flag and branches out of `depth` blocks. -/
def raise (depth : UInt32) : List Instr :=
  [i32Const 1, indexed .localSet (UInt32.ofNat Symbols.standard.exceptionFlag), indexed .br depth]

def exceptionRaised : List Instr :=
  [indexed .localGet (UInt32.ofNat Symbols.standard.exceptionFlag)]

end Instr

end RuleScan
