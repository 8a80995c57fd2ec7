import RuleScan.Module.Builder
import RuleScan.Text.Quoted

/-!
Rule sets: a module together with the numbers of rules and patterns that it refers to.
-/
namespace RuleScan

/-- A compiled rule set. -/
structure RuleSet where
  module : Option Module
  numRules : Int
  numPatterns : Int
deriving DecidableEq, Repr

/-- Why a rule set cannot be used. -/
inductive RuleSetError where
  | noModule
  | negativeRules (count : Int)
  | negativePatterns (count : Int)
deriving DecidableEq, Repr

def RuleSetError.message : RuleSetError → String
  | noModule => "rule set has no module"
  | negativeRules n => "negative rule count " ++ toString n
  | negativePatterns n => "negative pattern count " ++ toString n

/-- Why rules do not make a rule set. -/
inductive RulesError where
  /-- The number of a rule is not below the number of rules. -/
  | idOutOfRange (name : String) (id : RuleId) (count : Nat)
  | refused (errors : List RuleError)
  | build (e : BuildError)
deriving DecidableEq, Repr

def RulesError.message : RulesError → String
  | idOutOfRange name id count =>
    "rule " ++ Text.quoted name ++ ": id " ++ toString id.toInt ++ " out of range for " ++
      toString count ++ " rules"
  | refused errors => RuleError.summary errors
  | build e => "building module: " ++ e.message

namespace RuleSet

def ofRules (rules : List Rule) (numPatterns : Int) : Except RulesError RuleSet :=
  match rules.find? fun r => (rules.length : Int) ≤ r.id.toInt with
  | some r => .error (.idOutOfRange r.name r.id rules.length)
  | none =>
    match Module.ofRules rules with
    | (.ok m, []) => .ok ⟨some m, rules.length, numPatterns⟩
    | (.error e, []) => .error (.build e)
    | (_, errors) => .error (.refused errors)

/-- The module, if the rule set can be used. -/
def validate (s : RuleSet) : Except RuleSetError Module :=
  match s.module with
  | none => .error .noModule
  | some m =>
    if s.numRules < 0 then .error (.negativeRules s.numRules)
    else if s.numPatterns < 0 then .error (.negativePatterns s.numPatterns)
    else .ok m

end RuleSet

end RuleScan
