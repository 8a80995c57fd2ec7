import RuleScan.Bytecode.Code
import RuleScan.Condition.Typing
import RuleScan.Module.Symbols

/-!
The code of conditions and rules. Code is generated in front of the code that follows it. Each rule
has a block of its own; an exception sets the exception flag and branches out of that block, and so
leaves the rule without a report. Divisions are checked: the machine's own division is reached only
with operands for which it is defined.
-/
namespace RuleScan

namespace Code

def const32 (v : Int32) (rest : Code) : Code := plain (.i32Const v) rest

def const64 (v : Int64) (rest : Code) : Code := plain (.i64Const v) rest

def apply (n : Numeric) (rest : Code) : Code := plain (.numeric n) rest

def load (i : Nat) (rest : Code) : Code := plain (.localGet i) rest

def store (i : Nat) (rest : Code) : Code := plain (.localSet i) rest

def callHost (h : HostFunction) (rest : Code) : Code := plain (.call h.index) rest

/-- Raises an exception if the top of the stack is not zero. The code stands inside `depth` blocks
within the block of its rule; the conditional around the raise is one more. -/
def raiseIf (depth : Nat) (rest : Code) : Code :=
  ifThen .void
    (const32 1 (store Symbols.standard.exceptionFlag (plain (.br (depth + 1)) done)))
    rest

/-- Divides the two numbers on the stack, and raises an exception if there is no quotient. A
divisor of minus one is replaced by one, and the quotient, which is then the dividend, is negated
afterwards. -/
def checkedDiv (depth : Nat) (rest : Code) : Code :=
  let divisor := Symbols.standard.wideScratch
  let quotient := Symbols.standard.wideScratch
  let negate := Symbols.standard.narrowScratch
  store divisor <| load divisor <| apply .eqz64 <| raiseIf depth <|
  load divisor <| const64 (-1) <| apply (.relation64 .eq) <| store negate <|
  const64 1 <| load divisor <| load negate <| plain .select <|
  apply (.arith64 .div) <| plain (.localTee quotient) <|
  const64 Int64.minValue <| apply (.relation64 .eq) <| load negate <| apply (.arith32 .and) <|
  raiseIf depth <|
  load quotient <| const64 (-1) <| const64 1 <| load negate <| plain .select <|
  apply (.arith64 .mul) rest

/-- The remainder of the two numbers on the stack; an exception if the divisor is zero. -/
def checkedRem (depth : Nat) (rest : Code) : Code :=
  let divisor := Symbols.standard.wideScratch
  store divisor <| load divisor <| apply .eqz64 <| raiseIf depth <|
  load divisor <| apply (.arith64 .rem) rest

end Code

/-- The relation that a comparison computes; unknown operators have none. -/
def CompareOp.relation? : CompareOp → Option Relation
  | .eq => some .eq
  | .ne => some .ne
  | .lt => some .lt
  | .le => some .le
  | .gt => some .gt
  | .ge => some .ge
  | .unknown _ => none

/-- The operation that compares two values of the given type. Booleans are compared for equality or
else for inequality; an operator without a relation gives the operation of byte zero. -/
def CompareOp.operation (op : CompareOp) (type : Option Ty) : Plain :=
  if type = some .bool then .numeric (.relation32 (if op = .eq then .eq else .ne))
  else match op.relation? with
    | some r => .numeric (.relation64 r)
    | none => .unreachable

/-- Computes with two numbers, inside `depth` blocks of the rule. There is no code for an unknown
operator. -/
def ArithOp.code (op : ArithOp) (depth : Nat) (rest : Code) : Code :=
  match op with
  | .add => Code.apply (.arith64 .add) rest
  | .sub => Code.apply (.arith64 .sub) rest
  | .mul => Code.apply (.arith64 .mul) rest
  | .div => Code.checkedDiv depth rest
  | .rem => Code.checkedRem depth rest
  | .unknown _ => rest

/-- The code that leaves the value of a condition on the stack, inside `depth` blocks of the rule:
one or zero for a boolean. There is no code for nodes without a type, which no well-typed condition
has. -/
def Condition.compile : Condition → Nat → Code → Code
  | .missing, _, k => k
  | .foreign _, _, k => k
  | .bool b, _, k => Code.const32 (if b then 1 else 0) k
  | .int v, _, k => Code.const64 v k
  | .pattern p, _, k => Code.const32 p (Code.callHost .isPatternMatch k)
  | .patternAt p off, d, k =>
    Code.const32 p (off.compile d (Code.callHost .isPatternMatchAt k))
  | .patternIn p lo hi, d, k =>
    Code.const32 p (lo.compile d (hi.compile d (Code.callHost .isPatternMatchIn k)))
  | .not x, d, k => x.compile d (Code.apply .eqz32 k)
  | .and x y, d, k =>
    x.compile d (.ifElse (.value .i32) (y.compile (d + 1) .done) (Code.const32 0 .done) k)
  | .or x y, d, k =>
    x.compile d (.ifElse (.value .i32) (Code.const32 1 .done) (y.compile (d + 1) .done) k)
  | .compare op x y, d, k => x.compile d (y.compile d (.plain (op.operation x.infer.toOption) k))
  | .arith op x y, d, k => x.compile d (y.compile d (op.code d k))

/-- The code of a rule: clears the exception flag, and reports the rule if its condition holds. -/
def Rule.code (r : Rule) (rest : Code) : Code :=
  Code.const32 0 <| Code.store Symbols.standard.exceptionFlag <|
  .block .void
    (r.condition.compile 0 <| Code.apply .eqz32 <| .plain (.brIf 0) <|
      Code.const32 r.id <| Code.callHost .ruleMatch .done)
    rest

def Rule.program (r : Rule) : List Instr := (r.code .done).tokens.map Token.instr

end RuleScan
