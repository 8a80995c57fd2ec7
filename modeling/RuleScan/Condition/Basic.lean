/-!
Rule conditions: trees of constants, pattern queries, boolean connectives, comparisons and 64-bit
arithmetic. A tree need not be well typed, a child may be missing, and an operator or a node may
be one that the condition language does not have.
-/
namespace RuleScan

/-- The types of conditions. -/
inductive Ty where
  | bool
  | int
deriving DecidableEq, Repr

def Ty.name : Ty → String
  | .bool => "bool"
  | .int => "int"

/-- The name of the type with a given number; numbers without a type are invalid. -/
def Ty.nameOfCode (code : Int) : String :=
  if code = 1 then Ty.bool.name else if code = 2 then Ty.int.name else "invalid"

/-- Comparison operators. -/
inductive CompareOp where
  | eq
  | ne
  | lt
  | le
  | gt
  | ge
  /-- A number that stands for no comparison. -/
  | unknown (code : Int)
deriving DecidableEq, Repr

namespace CompareOp

def ofCode (code : Int) : CompareOp :=
  match code with
  | 0 => eq
  | 1 => ne
  | 2 => lt
  | 3 => le
  | 4 => gt
  | 5 => ge
  | n => unknown n

def symbol : CompareOp → String
  | eq => "=="
  | ne => "!="
  | lt => "<"
  | le => "<="
  | gt => ">"
  | ge => ">="
  | unknown _ => "?"

/-- Whether the operator compares for equality only, and so applies to booleans too. -/
def isEquality : CompareOp → Bool
  | eq => true
  | ne => true
  | _ => false

end CompareOp

/-- Arithmetic operators. -/
inductive ArithOp where
  | add
  | sub
  | mul
  | div
  | rem
  /-- A number that stands for no operation. -/
  | unknown (code : Int)
deriving DecidableEq, Repr

namespace ArithOp

def ofCode (code : Int) : ArithOp :=
  match code with
  | 0 => add
  | 1 => sub
  | 2 => mul
  | 3 => div
  | 4 => rem
  | n => unknown n

def symbol : ArithOp → String
  | add => "+"
  | sub => "-"
  | mul => "*"
  | div => "/"
  | rem => "%"
  | unknown _ => "?"

end ArithOp

abbrev PatternId := Int32

abbrev RuleId := Int32

/-- A condition tree. -/
inductive Condition where
  /-- No node where one is needed. -/
  | missing
  /-- A node of a kind that is not part of the language, known by the name of its type only. -/
  | foreign (typeName : String)
  | bool (value : Bool)
  | int (value : Int64)
  /-- The pattern matched somewhere. -/
  | pattern (id : PatternId)
  /-- The pattern matched at an offset. -/
  | patternAt (id : PatternId) (offset : Condition)
  /-- The pattern matched at some offset between two bounds, both included. -/
  | patternIn (id : PatternId) (lower upper : Condition)
  | not (x : Condition)
  | and (x y : Condition)
  | or (x y : Condition)
  | compare (op : CompareOp) (x y : Condition)
  | arith (op : ArithOp) (x y : Condition)
deriving DecidableEq, Repr

/-- A rule: what it is called and when it matches. -/
structure Rule where
  id : RuleId
  name : String
  condition : Condition
deriving DecidableEq, Repr

/-- What a rule is called in messages: its name or, without one, its number. -/
def Rule.label (r : Rule) : String :=
  if r.name = "" then "rule " ++ toString r.id.toInt else r.name

end RuleScan
