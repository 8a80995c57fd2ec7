import RuleScan.Condition.Basic
import RuleScan.Match.Index

/-!
The meaning of conditions: a recursive evaluator over a match index. Addition, subtraction and
multiplication wrap in 64 bits; division truncates. An impossible division raises an exception,
which ends the evaluation of the whole condition. The connectives evaluate their second operand
only when the first one does not decide.
-/
namespace RuleScan

/-- What a condition evaluates to. -/
inductive Datum where
  | bool (b : Bool)
  | int (v : Int64)
deriving DecidableEq, Repr

/-- Why an evaluation has no value. -/
inductive Failure where
  /-- An impossible division. -/
  | exception
  /-- An operand of the wrong type, or a node without meaning. Well-typed conditions have none. -/
  | illTyped
deriving DecidableEq, Repr

def Datum.type : Datum → Ty
  | .bool _ => .bool
  | .int _ => .int

def Datum.asBool : Datum → Except Failure Bool
  | .bool b => .ok b
  | .int _ => .error .illTyped

def Datum.asInt : Datum → Except Failure Int64
  | .int v => .ok v
  | .bool _ => .error .illTyped

/-- Comparison of numbers, by their signed values. -/
def CompareOp.evalInt (op : CompareOp) (a b : Int64) : Except Failure Bool :=
  match op with
  | .eq => .ok (a == b)
  | .ne => .ok (a != b)
  | .lt => .ok (a < b)
  | .le => .ok (a ≤ b)
  | .gt => .ok (b < a)
  | .ge => .ok (b ≤ a)
  | .unknown _ => .error .illTyped

/-- Comparison of booleans, for equality only. -/
def CompareOp.evalBool (op : CompareOp) (a b : Bool) : Except Failure Bool :=
  match op with
  | .eq => .ok (a == b)
  | .ne => .ok (a != b)
  | _ => .error .illTyped

def CompareOp.eval (op : CompareOp) : Datum → Datum → Except Failure Bool
  | .int a, .int b => op.evalInt a b
  | .bool a, .bool b => op.evalBool a b
  | _, _ => .error .illTyped

/-- Arithmetic in 64 bits. A quotient has to exist and to be a 64-bit number; a remainder has to
exist. -/
def ArithOp.eval (op : ArithOp) (a b : Int64) : Except Failure Int64 :=
  match op with
  | .add => .ok (a + b)
  | .sub => .ok (a - b)
  | .mul => .ok (a * b)
  | .div =>
    if b = 0 ∨ (a = Int64.minValue ∧ b = -1) then .error .exception
    else .ok (Int64.ofInt (a.toInt.tdiv b.toInt))
  | .rem => if b = 0 then .error .exception else .ok (Int64.ofInt (a.toInt.tmod b.toInt))
  | .unknown _ => .error .illTyped

/-- The value of a condition over an index. -/
def Condition.eval (index : PatternSource) : Condition → Except Failure Datum
  | .missing => .error .illTyped
  | .foreign _ => .error .illTyped
  | .bool b => .ok (.bool b)
  | .int v => .ok (.int v)
  | .pattern p => .ok (.bool (index.matched p))
  | .patternAt p off => do
    let o ← (← off.eval index).asInt
    return .bool (index.matchedAt p o)
  | .patternIn p lo hi => do
    let l ← (← lo.eval index).asInt
    let h ← (← hi.eval index).asInt
    return .bool (index.matchedIn p l h)
  | .not x => do
    let b ← (← x.eval index).asBool
    return .bool !b
  | .and x y => do
    let b ← (← x.eval index).asBool
    if b then return .bool (← (← y.eval index).asBool) else return .bool false
  | .or x y => do
    let b ← (← x.eval index).asBool
    if b then return .bool true else return .bool (← (← y.eval index).asBool)
  | .compare op x y => do
    let a ← x.eval index
    let b ← y.eval index
    return .bool (← op.eval a b)
  | .arith op x y => do
    let a ← (← x.eval index).asInt
    let b ← (← y.eval index).asInt
    return .int (← op.eval a b)

/-- A rule matches if its condition is true. An exception makes it not match. -/
def Rule.holds (index : PatternSource) (r : Rule) : Bool :=
  match r.condition.eval index with
  | .ok (.bool b) => b
  | _ => false

end RuleScan
