import RuleScan.Condition.Basic

/-!
Typing of conditions: the relation `HasType`, and the checker `Condition.infer`, which gives the
type of a condition or the faults that keep it from having one, in the order of a left-to-right
walk. Both operands of a node are checked even when the first one is at fault.
-/
namespace RuleScan

/-- The well-typed conditions. Only equality applies to booleans; missing and foreign nodes and
unknown operators have no type. -/
inductive HasType : Condition → Ty → Prop where
  | bool (b : Bool) : HasType (.bool b) .bool
  | int (v : Int64) : HasType (.int v) .int
  | pattern (p : PatternId) : HasType (.pattern p) .bool
  | patternAt {p : PatternId} {off : Condition} :
      HasType off .int → HasType (.patternAt p off) .bool
  | patternIn {p : PatternId} {lo hi : Condition} :
      HasType lo .int → HasType hi .int → HasType (.patternIn p lo hi) .bool
  | not {x : Condition} : HasType x .bool → HasType (.not x) .bool
  | and {x y : Condition} : HasType x .bool → HasType y .bool → HasType (.and x y) .bool
  | or {x y : Condition} : HasType x .bool → HasType y .bool → HasType (.or x y) .bool
  | compareInt {op : CompareOp} {x y : Condition} : (∀ n, op ≠ .unknown n) →
      HasType x .int → HasType y .int → HasType (.compare op x y) .bool
  | compareBool {op : CompareOp} {x y : Condition} : op = .eq ∨ op = .ne →
      HasType x .bool → HasType y .bool → HasType (.compare op x y) .bool
  | arith {op : ArithOp} {x y : Condition} : (∀ n, op ≠ .unknown n) →
      HasType x .int → HasType y .int → HasType (.arith op x y) .int

/-- The place of an operand in its node. -/
inductive Place where
  | offset
  | lowerBound
  | upperBound
  | notOperand
  | left (symbol : String)
  | right (symbol : String)
  | condition
deriving DecidableEq, Repr

def Place.name : Place → String
  | .offset => "offset"
  | .lowerBound => "lower bound"
  | .upperBound => "upper bound"
  | .notOperand => "operand of not"
  | .left op => "left operand of " ++ op
  | .right op => "right operand of " ++ op
  | .condition => "condition"

/-- Why a condition or its rule is refused. -/
inductive TypeFault where
  | missing
  | foreign (typeName : String)
  /-- An operand has a type other than the one that its place needs. -/
  | wrongType (place : Place) (actual expected : Ty)
  /-- The operands of a comparison have different types. -/
  | mismatch (op : CompareOp) (left right : Ty)
  | unknownComparison (code : Int)
  | unknownArithmetic (code : Int)
  /-- Booleans are not ordered. -/
  | unorderedBool (op : CompareOp)
  | negativeId (id : RuleId)
deriving DecidableEq, Repr

def TypeFault.message : TypeFault → String
  | .missing => "missing expression"
  | .foreign t => "unexpected node " ++ t
  | .wrongType place actual expected =>
    place.name ++ " has type " ++ actual.name ++ ", want " ++ expected.name
  | .mismatch op l r => "mismatched operand types " ++ l.name ++ " " ++ op.symbol ++ " " ++ r.name
  | .unknownComparison n => "unknown comparison operator " ++ toString n
  | .unknownArithmetic n => "unknown arithmetic operator " ++ toString n
  | .unorderedBool op => "operator " ++ op.symbol ++ " not defined on bool"
  | .negativeId id => "negative rule id " ++ toString id.toInt

/-- The type of a condition, or the faults found in it. -/
abbrev Inferred := Except (List TypeFault) Ty

/-- The faults of a condition that has to have the type `expected` at its place. -/
def Inferred.faultsAs (place : Place) (expected : Ty) : Inferred → List TypeFault
  | .error faults => faults
  | .ok actual => if actual = expected then [] else [.wrongType place actual expected]

/-- A node of type `type`, unless there are faults. -/
def Inferred.unless (faults : List TypeFault) (type : Ty) : Inferred :=
  if faults = [] then .ok type else .error faults

/-- The type of a comparison whose operands have the given types. -/
def CompareOp.inferOn (op : CompareOp) (x y : Ty) : Inferred :=
  if x ≠ y then .error [.mismatch op x y]
  else match op with
    | .unknown n => .error [.unknownComparison n]
    | op => if x = .bool ∧ !op.isEquality then .error [.unorderedBool op] else .ok .bool

/-- The type of a condition, or its faults from left to right. -/
def Condition.infer : Condition → Inferred
  | .missing => .error [.missing]
  | .foreign t => .error [.foreign t]
  | .bool _ => .ok .bool
  | .int _ => .ok .int
  | .pattern _ => .ok .bool
  | .patternAt _ off => .unless (off.infer.faultsAs .offset .int) .bool
  | .patternIn _ lo hi =>
    .unless (lo.infer.faultsAs .lowerBound .int ++ hi.infer.faultsAs .upperBound .int) .bool
  | .not x => .unless (x.infer.faultsAs .notOperand .bool) .bool
  | .and x y =>
    .unless (x.infer.faultsAs (.left "and") .bool ++ y.infer.faultsAs (.right "and") .bool) .bool
  | .or x y =>
    .unless (x.infer.faultsAs (.left "or") .bool ++ y.infer.faultsAs (.right "or") .bool) .bool
  | .compare op x y =>
    match x.infer, y.infer with
    | .ok s, .ok t => op.inferOn s t
    | .ok _, .error es => .error es
    | .error es, .ok _ => .error es
    | .error es, .error fs => .error (es ++ fs)
  | .arith (.unknown n) _ _ => .error [.unknownArithmetic n]
  | .arith op x y =>
    .unless (x.infer.faultsAs (.left op.symbol) .int ++
      y.infer.faultsAs (.right op.symbol) .int) .int

/-- The faults of a rule: a negative number alone, or else those of its condition, which has to be
a boolean. -/
def Rule.faults (r : Rule) : List TypeFault :=
  if r.id < 0 then [.negativeId r.id]
  else r.condition.infer.faultsAs .condition .bool

/-- A fault as it is reported: with the name of its rule. -/
structure RuleError where
  rule : String
  message : String
deriving DecidableEq, Repr

namespace RuleError

def text (e : RuleError) : String := e.rule ++ ": " ++ e.message

def summary (errors : List RuleError) : String :=
  if errors.isEmpty then "no errors" else "\n".intercalate (errors.map text)

end RuleError

def Rule.errors (r : Rule) : List RuleError :=
  r.faults.map fun f => ⟨r.label, f.message⟩

end RuleScan
