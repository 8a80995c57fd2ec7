import RuleScan.Module.Builder

/-!
Checking and generating code in one pass over a body that is being filled. The checker adds to a list of
errors as it goes and separately says whether a condition has a type. The generator emits a rule as soon
as it is checked; it asks the checker again for the operands of comparisons, and the depth of a raise is
how many more blocks are open now than were just inside the block of the rule.
-/
namespace RuleScan

/-- The state of a pass. -/
structure Generator where
  body : Body
  /-- What the rule at hand is called. -/
  rule : String
  /-- How many blocks were open just inside the block of the rule at hand. -/
  ruleDepth : Nat
  errors : List RuleError
deriving DecidableEq, Repr

namespace Generator

abbrev Pass := StateM Generator

/-! ### The checker -/

def report (f : TypeFault) : Pass Unit :=
  modify fun g => { g with errors := g.errors ++ [⟨g.rule, f.message⟩] }

def refuse (f : TypeFault) : Pass (Option Ty) := do
  report f
  return none

/-- Whether an operand has the type that its place needs. A type other than that is reported; that
there is none was reported before. -/
def expect (operand : Pass (Option Ty)) (place : Place) (expected : Ty) : Pass Bool := do
  match ← operand with
  | none => return false
  | some actual =>
    if actual = expected then return true
    report (.wrongType place actual expected)
    return false

/-- Two operands; the second is checked also if the first is at fault. -/
def expectBoth (x y : Pass (Option Ty)) (left right : Place) (expected : Ty) : Pass Bool := do
  let first ← expect x left expected
  let second ← expect y right expected
  return second && first

/-- The type of a comparison whose operands were checked. -/
def checkComparison (op : CompareOp) : Option Ty → Option Ty → Pass (Option Ty)
  | some s, some t =>
    if s ≠ t then refuse (.mismatch op s t)
    else match op with
      | .unknown n => refuse (.unknownComparison n)
      | op => if s = .bool ∧ !op.isEquality then refuse (.unorderedBool op) else return some .bool
  | _, _ => return none

/-- The type of a condition, if it has one. -/
def check : Condition → Pass (Option Ty)
  | .missing => refuse .missing
  | .foreign t => refuse (.foreign t)
  | .bool _ => return some .bool
  | .int _ => return some .int
  | .pattern _ => return some .bool
  | .patternAt _ off => do
    return if ← expect (check off) .offset .int then some .bool else none
  | .patternIn _ lo hi => do
    return if ← expectBoth (check lo) (check hi) .lowerBound .upperBound .int then some .bool else none
  | .not x => do
    return if ← expect (check x) .notOperand .bool then some .bool else none
  | .and x y => do
    return if ← expectBoth (check x) (check y) (.left "and") (.right "and") .bool then some .bool
      else none
  | .or x y => do
    return if ← expectBoth (check x) (check y) (.left "or") (.right "or") .bool then some .bool
      else none
  | .compare op x y => do
    let s ← check x
    let t ← check y
    checkComparison op s t
  | .arith (.unknown n) _ _ => refuse (.unknownArithmetic n)
  | .arith op x y => do
    return if ← expectBoth (check x) (check y) (.left op.symbol) (.right op.symbol) .int then some .int
      else none

/-! ### The generator -/

def emit (is : List Instr) : Pass Unit := modify fun g => { g with body := g.body.emitAll is }

def emitPlain (ps : List Plain) : Pass Unit := emit (ps.map Plain.instr)

/-- Sets the exception flag and leaves the block of the rule, from wherever the pass is. -/
def raise : Pass Unit := do
  let g ← get
  emit (Instr.raise (UInt32.ofNat (g.body.depth - g.ruleDepth)))

def raiseIf : Pass Unit := do
  emit [.opening .if_ BlockType.void.byte]
  raise
  emit [.op .end_]

def genDiv : Pass Unit := do
  let wide := Symbols.standard.wideScratch
  let narrow := Symbols.standard.narrowScratch
  emitPlain [.localSet wide, .localGet wide, .numeric .eqz64]
  raiseIf
  emitPlain [.localGet wide, .i64Const (-1), .numeric (.relation64 .eq), .localSet narrow,
    .i64Const 1, .localGet wide, .localGet narrow, .select, .numeric (.arith64 .div),
    .localTee wide, .i64Const Int64.minValue, .numeric (.relation64 .eq), .localGet narrow,
    .numeric (.arith32 .and)]
  raiseIf
  emitPlain [.localGet wide, .i64Const (-1), .i64Const 1, .localGet narrow, .select,
    .numeric (.arith64 .mul)]

def genRem : Pass Unit := do
  let wide := Symbols.standard.wideScratch
  emitPlain [.localSet wide, .localGet wide, .numeric .eqz64]
  raiseIf
  emitPlain [.localGet wide, .numeric (.arith64 .rem)]

def genArith : ArithOp → Pass Unit
  | .add => emitPlain [.numeric (.arith64 .add)]
  | .sub => emitPlain [.numeric (.arith64 .sub)]
  | .mul => emitPlain [.numeric (.arith64 .mul)]
  | .div => genDiv
  | .rem => genRem
  | .unknown _ => return ()

/-- Emits a condition that has passed the check. The left operand of a comparison is checked once
more, for its type. -/
def gen : Condition → Pass Unit
  | .missing => return ()
  | .foreign _ => return ()
  | .bool b => emitPlain [.i32Const (if b then 1 else 0)]
  | .int v => emitPlain [.i64Const v]
  | .pattern p => emitPlain [.i32Const p, .call HostFunction.isPatternMatch.index]
  | .patternAt p off => do
    emitPlain [.i32Const p]
    gen off
    emitPlain [.call HostFunction.isPatternMatchAt.index]
  | .patternIn p lo hi => do
    emitPlain [.i32Const p]
    gen lo
    gen hi
    emitPlain [.call HostFunction.isPatternMatchIn.index]
  | .not x => do
    gen x
    emitPlain [.numeric .eqz32]
  | .and x y => do
    gen x
    emit [.opening .if_ (BlockType.value .i32).byte]
    gen y
    emit [.op .else_, .i32Const 0, .op .end_]
  | .or x y => do
    gen x
    emit [.opening .if_ (BlockType.value .i32).byte, .i32Const 1, .op .else_]
    gen y
    emit [.op .end_]
  | .compare op x y => do
    gen x
    gen y
    let type ← check x
    emitPlain [op.operation type]
  | .arith op x y => do
    gen x
    gen y
    genArith op

/-- The pass with the given depth remembered for the rule at hand. -/
def withDepth (g : Generator) (n : Nat) : Generator := { g with ruleDepth := n }

def markDepth : Pass Unit := modify fun g => g.withDepth g.body.depth

def genRule (r : Rule) : Pass Unit := do
  emit Instr.clearException
  emit [.opening .block BlockType.void.byte]
  markDepth
  gen r.condition
  emitPlain [.numeric .eqz32, .brIf 0, .i32Const r.id, .call HostFunction.ruleMatch.index]
  emit [.op .end_]

/-- The pass with the next rule at hand. -/
def turnTo (g : Generator) (r : Rule) : Generator := { g with rule := r.label }

/-- Emits a rule, or reports why it is refused. -/
def addRule (r : Rule) : Pass Unit := do
  modify fun g => g.turnTo r
  if r.id < 0 then report (.negativeId r.id)
  else
    match ← check r.condition with
    | some .bool => genRule r
    | some type => report (.wrongType .condition type .bool)
    | none => return ()

def addRules (rules : List Rule) : Pass Unit := rules.forM addRule

end Generator

/-- Adds rules in one pass. -/
def Builder.generate (b : Builder) (rules : List Rule) :
    Except Unusable (Builder × List RuleError) :=
  match b.phase with
  | .drafting =>
    let g := (Generator.addRules rules ⟨b.body, "", 0, []⟩).2
    .ok ({ b with body := g.body }, g.errors)
  | _ => .error .unusable

end RuleScan
