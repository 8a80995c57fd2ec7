import RuleScan.Condition.Basic

/-!
The text of a condition. Binary operators stand between parentheses, so that no precedence is
needed to read a text back.
-/
namespace RuleScan

/-- A pattern is written with its number. -/
def patternText (id : PatternId) : String := "$p" ++ toString id.toInt

def binaryText (x op y : String) : String := "(" ++ x ++ " " ++ op ++ " " ++ y ++ ")"

def Condition.text : Condition → String
  | .missing => "<nil>"
  | .foreign _ => "<unknown>"
  | .bool b => if b then "true" else "false"
  | .int v => toString v.toInt
  | .pattern p => patternText p
  | .patternAt p off => patternText p ++ " at " ++ off.text
  | .patternIn p lo hi => patternText p ++ " in (" ++ lo.text ++ ".." ++ hi.text ++ ")"
  | .not x => "not " ++ x.text
  | .and x y => binaryText x.text "and" y.text
  | .or x y => binaryText x.text "or" y.text
  | .compare op x y => binaryText x.text op.symbol y.text
  | .arith op x y => binaryText x.text op.symbol y.text

end RuleScan
