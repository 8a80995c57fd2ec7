import RuleScan.Host

/-!
The names that the code of a module refers to: the imported functions, the main function, and the
three locals of the main function.
-/
namespace RuleScan

/-- The indexes of the functions and locals that emitted code uses. -/
structure Symbols where
  ruleMatch : Nat
  isPatternMatch : Nat
  isPatternMatchAt : Nat
  isPatternMatchIn : Nat
  wideScratch : Nat
  narrowScratch : Nat
  exceptionFlag : Nat
deriving DecidableEq, Repr

namespace Symbols

/-- The indexes in the modules that a builder makes. -/
def standard : Symbols where
  ruleMatch := HostFunction.ruleMatch.index
  isPatternMatch := HostFunction.isPatternMatch.index
  isPatternMatchAt := HostFunction.isPatternMatchAt.index
  isPatternMatchIn := HostFunction.isPatternMatchIn.index
  wideScratch := 0
  narrowScratch := 1
  exceptionFlag := 2

/-- The indexes of a builder that was never set up. -/
def unset : Symbols := ⟨0, 0, 0, 0, 0, 0, 0⟩

def toList (s : Symbols) : List Nat :=
  [s.ruleMatch, s.isPatternMatch, s.isPatternMatchAt, s.isPatternMatchIn,
   s.wideScratch, s.narrowScratch, s.exceptionFlag]

end Symbols

/-- The function of a module that evaluates its rules, by the name of its export. -/
def mainName : String := "main"

def mainType : FuncType := ⟨[], []⟩

/-- The locals of the main function: two for intermediate results, and the exception flag. -/
def mainLocals : List (String × ValType) :=
  [("i64_tmp", .i64), ("i32_tmp", .i32), ("exception_flag", .i32)]

end RuleScan
