/-!
Sets of offsets. The members are kept in increasing order, cut at a place that follows the
insertions: an offset is inserted at the cut, after the cut has moved to where the offset belongs.
Offsets that are added in order, upwards or downwards, thus find the cut where they need it.
-/
namespace RuleScan

/-- A finite set of offsets. -/
structure OffsetSet where
  /-- The members before the cut, the largest first. -/
  below : List Nat
  /-- The members after the cut, the smallest first. -/
  above : List Nat
deriving DecidableEq, Repr

namespace OffsetSet

def empty : OffsetSet := ⟨[], []⟩

/-- Moves the cut down until no member before it is `n` or more. -/
def seekDown (n : Nat) : List Nat → List Nat → OffsetSet
  | m :: below, above => if n ≤ m then seekDown n below (m :: above) else ⟨m :: below, above⟩
  | [], above => ⟨[], above⟩

/-- Moves the cut up until no member after it is less than `n`. -/
def seekUp (n : Nat) (below : List Nat) : List Nat → OffsetSet
  | m :: above => if m < n then seekUp n (m :: below) above else ⟨below, m :: above⟩
  | [] => ⟨below, []⟩

/-- The same set, cut right before the place of `n`. -/
def seek (s : OffsetSet) (n : Nat) : OffsetSet :=
  let t := seekDown n s.below s.above
  seekUp n t.below t.above

/-- Adds an offset; a second time it changes no member. -/
def insert (s : OffsetSet) (n : Nat) : OffsetSet :=
  let t := s.seek n
  if t.above.head? = some n then t else ⟨t.below, n :: t.above⟩

def isEmpty (s : OffsetSet) : Bool := s.below.isEmpty && s.above.isEmpty

def contains (s : OffsetSet) (n : Nat) : Bool := s.below.contains n || s.above.contains n

/-- How many members are at most `n`. -/
def rank (s : OffsetSet) (n : Nat) : Nat := s.below.countP (· ≤ n) + s.above.countP (· ≤ n)

def toList (s : OffsetSet) : List Nat := s.below.reverse ++ s.above

end OffsetSet

end RuleScan
