/-!
Counts of scans: how many there were in all and, for each name of a scanner, how many were timed,
how many failed and how many rules matched in those that succeeded.
-/
namespace RuleScan

/-- The counts under one name. -/
structure NameCounts where
  /-- The number of scans that were timed. -/
  durations : Nat
  errors : Nat
  /-- The number of rules that matched; `none` until a scan succeeds. -/
  matched : Option Nat
deriving DecidableEq, Repr

def NameCounts.zero : NameCounts := ⟨0, 0, none⟩

/-- All counts. -/
structure Metrics where
  scans : Nat
  counts : List (String × NameCounts)
  /-- Whether the counts are exported. -/
  registered : Bool
deriving DecidableEq, Repr

namespace Metrics

def zero : Metrics := ⟨0, [], false⟩

def under (m : Metrics) (name : String) : NameCounts := (m.counts.lookup name).getD .zero

/-- Changes the counts under a name. -/
def update (m : Metrics) (name : String) (f : NameCounts → NameCounts) : Metrics :=
  { m with counts := (name, f (m.under name)) :: m.counts.filter (·.1 ≠ name) }

def countScan (m : Metrics) : Metrics := { m with scans := m.scans + 1 }

def countError (m : Metrics) (name : String) : Metrics :=
  m.update name fun c => { c with errors := c.errors + 1 }

def addMatches (m : Metrics) (name : String) (n : Nat) : Metrics :=
  m.update name fun c => { c with matched := some (c.matched.getD 0 + n) }

def observeDuration (m : Metrics) (name : String) : Metrics :=
  m.update name fun c => { c with durations := c.durations + 1 }

/-- The families of counts that are exported for a name, in order. -/
def exported (m : Metrics) (name : String) : List String :=
  if !m.registered then []
  else
    let c := m.under name
    (if c.matched.isSome then ["rulewasm_scanner_rule_matches_total"] else []) ++
    (if c.durations ≠ 0 then ["rulewasm_scanner_scan_duration_seconds"] else [])

end Metrics

end RuleScan
