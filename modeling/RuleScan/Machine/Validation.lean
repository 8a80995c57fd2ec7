import RuleScan.Bytecode.Code
import RuleScan.Machine.Value

/-!
Validation of code: every instruction finds operands of the types it needs, every label, local and
function it names exists, and every block leaves the results it declares. After an instruction that
never falls through, any operands may be assumed.
-/
namespace RuleScan

/-- What code can refer to. -/
structure Scope where
  types : List FuncType
  functions : List FuncType
  locals : List ValType
  /-- The types of the operands that a branch to each label takes, the innermost label first. -/
  labels : List (List ValType)
  /-- The results of the function. -/
  results : List ValType
deriving DecidableEq, Repr

def Scope.inside (c : Scope) (label : List ValType) : Scope :=
  { c with labels := label :: c.labels }

/-- What is known of the operands of the innermost block. -/
structure StackShape where
  /-- The types of the operands, the top first; `none` for an operand of any type. -/
  known : List (Option ValType)
  /-- Below the known operands there are any others that are needed. -/
  floating : Bool
deriving DecidableEq, Repr

namespace StackShape

/-- The operands of a block as it is entered, given its parameters. -/
def ofTypes (ts : List ValType) : StackShape := ⟨ts.reverse.map some, false⟩

/-- The operands after an instruction that never falls through. -/
def anything : StackShape := ⟨[], true⟩

def pushAny (s : StackShape) (t : Option ValType) : StackShape := { s with known := t :: s.known }

def push (s : StackShape) (t : ValType) : StackShape := s.pushAny (some t)

/-- Puts operands on top, the first one lowest. -/
def pushAll (s : StackShape) (ts : List ValType) : StackShape := ts.foldl push s

def popAny : StackShape → Option (Option ValType × StackShape)
  | ⟨t :: rest, f⟩ => some (t, ⟨rest, f⟩)
  | ⟨[], true⟩ => some (none, ⟨[], true⟩)
  | ⟨[], false⟩ => none

def pop (s : StackShape) (t : ValType) : Option StackShape := do
  let (u, rest) ← s.popAny
  guard (u = none ∨ u = some t)
  return rest

/-- Takes operands from the top, the last one first. -/
def popAll (s : StackShape) (ts : List ValType) : Option StackShape :=
  ts.foldrM (fun t s => s.pop t) s

/-- Whether the operands are exactly those of the given types. -/
def isExactly (s : StackShape) (ts : List ValType) : Bool :=
  match s.popAll ts with
  | some rest => rest.known.isEmpty
  | none => false

/-- The type that two operands have in common, if they can be of one type. -/
def join : Option ValType → Option ValType → Option (Option ValType)
  | none, u => some u
  | t, none => some t
  | some t, some u => if t = u then some (some t) else none

/-- Whether operands of a type may be selected from; references may not. -/
def selectable : Option ValType → Bool
  | some .funcref => false
  | some .externref => false
  | _ => true

end StackShape

/-- The operands after an instruction; `none` if the instruction is not valid there. -/
def Plain.check (c : Scope) (s : StackShape) : Plain → Option StackShape
  | unreachable => some .anything
  | nop => some s
  | br d => do
    let label ← c.labels[d]?
    let _ ← s.popAll label
    return .anything
  | brIf d => do
    let label ← c.labels[d]?
    let below ← (← s.pop .i32).popAll label
    return below.pushAll label
  | return_ => do
    let _ ← s.popAll c.results
    return .anything
  | call f => do
    let type ← c.functions[f]?
    let below ← s.popAll type.params
    return below.pushAll type.results
  | drop => do
    let (_, below) ← s.popAny
    return below
  | select => do
    let s ← s.pop .i32
    let (t, s) ← s.popAny
    let (u, s) ← s.popAny
    let v ← StackShape.join t u
    guard (StackShape.selectable v)
    return s.pushAny v
  | localGet i => do return s.push (← c.locals[i]?)
  | localSet i => do s.pop (← c.locals[i]?)
  | localTee i => do
    let t ← c.locals[i]?
    return (← s.pop t).push t
  | i32Const _ => some (s.push .i32)
  | i64Const _ => some (s.push .i64)
  | numeric n => do
    let below ← s.popAll n.type.params
    return below.pushAll n.type.results

namespace Code

/-- The operands after a sequence; `none` if the sequence is not valid. A branch to a loop takes
the parameters of the loop, and to any other block its results. A conditional without an
alternative has to leave its parameters as its results. -/
def check : Code → Scope → StackShape → Option StackShape
  | done, _, s => some s
  | plain p k, c, s => do k.check c (← p.check c s)
  | block t b k, c, s => do
    let type ← t.resolve? c.types
    let below ← s.popAll type.params
    let last ← b.check (c.inside type.results) (.ofTypes type.params)
    guard (last.isExactly type.results)
    k.check c (below.pushAll type.results)
  | loop t b k, c, s => do
    let type ← t.resolve? c.types
    let below ← s.popAll type.params
    let last ← b.check (c.inside type.params) (.ofTypes type.params)
    guard (last.isExactly type.results)
    k.check c (below.pushAll type.results)
  | ifThen t b k, c, s => do
    let type ← t.resolve? c.types
    let below ← (← s.pop .i32).popAll type.params
    let last ← b.check (c.inside type.results) (.ofTypes type.params)
    guard (last.isExactly type.results)
    guard (type.params = type.results)
    k.check c (below.pushAll type.results)
  | ifElse t b e k, c, s => do
    let type ← t.resolve? c.types
    let below ← (← s.pop .i32).popAll type.params
    let last ← b.check (c.inside type.results) (.ofTypes type.params)
    guard (last.isExactly type.results)
    let other ← e.check (c.inside type.results) (.ofTypes type.params)
    guard (other.isExactly type.results)
    k.check c (below.pushAll type.results)

/-- Whether the code is a valid body of a function with the results of the scope. The function
itself is the outermost label. -/
def isValidBody (code : Code) (c : Scope) : Bool :=
  match code.check (c.inside c.results) ⟨[], false⟩ with
  | some last => last.isExactly c.results
  | none => false

end Code

end RuleScan
