import RuleScan.Match.Index

/-!
The state of one scan: which rules were reported so far, as a bit for each rule and as a list in
the order of the first reports, and the index that answers the pattern queries. The bits are a row
that is made for the number of rules and grows if a bit beyond its end is set.
-/
namespace RuleScan

/-- A row of bits, which are clear beyond its end. -/
abbrev BitRow := Array Bool

namespace BitRow

/-- The most bits that a row can be made with, in an address space of 48 bits. -/
def maxBits : Nat := 2251799813685248

/-- A row of clear bits. It is empty if there are too many. -/
def new (n : Nat) : BitRow := Array.replicate (if n ≤ maxBits then n else 0) false

def test (r : BitRow) (i : Nat) : Bool := r.getD i false

/-- Sets a bit. A row that is too short for it becomes as long as is needed. -/
def setBit (r : BitRow) (i : Nat) : BitRow :=
  let r := if i < r.size then r else r ++ Array.replicate (i + 1 - r.size) false
  r.setIfInBounds i true

end BitRow

/-- The state of a scan. -/
structure ScanState where
  /-- How many rules there are. -/
  numRules : Nat
  index : PatternSource
  /-- The bits of the rules that were reported. -/
  matching : BitRow
  /-- The reported rules, each once, the latest first. -/
  latest : List RuleId

namespace ScanState

/-- The state before a scan. A negative number of rules counts as none. -/
def new (numRules : Int) (index : PatternSource) : ScanState where
  numRules := numRules.toNat
  index := index
  matching := .new numRules.toNat
  latest := []

/-- The reported rules, each once, in the order of their first reports. -/
def reported (s : ScanState) : List RuleId := s.latest.reverse

/-- Records a report. A number that belongs to no rule is ignored, and so is a repeated report. -/
def ruleMatch (s : ScanState) (id : RuleId) : ScanState :=
  if id < 0 ∨ s.numRules ≤ id.toInt.toNat then s
  else if s.matching.test id.toInt.toNat then s
  else { s with
    matching := s.matching.setBit id.toInt.toNat
    latest := id :: s.latest }

def isPatternMatch (s : ScanState) (id : PatternId) : Bool := s.index.matched id

def isPatternMatchAt (s : ScanState) (id : PatternId) (offset : Int64) : Bool :=
  s.index.matchedAt id offset

/-- Whether the pattern matched at some offset from `lower` to `upper`, both included. -/
def isPatternMatchIn (s : ScanState) (id : PatternId) (lower upper : Int64) : Bool :=
  s.index.matchedIn id lower upper

def matchCount (s : ScanState) : Nat := s.matching.count true

/-- The bits as a row of zeros and ones, rule zero first. -/
def bitText (s : ScanState) : String :=
  String.ofList (s.matching.toList.map fun b => if b then '1' else '0')

end ScanState

end RuleScan
