import RuleScan.Condition.Basic
import RuleScan.Match.OffsetSet

/-!
The match index: for each pattern of a rule set, the offsets at which it matched. It is filled
before the conditions are evaluated and answers three kinds of query: whether a pattern matched,
whether it matched at an offset, and whether it matched within a range. A range query compares
how many offsets are at most each of its two ends. To a scan an index is nothing but the answers to
these queries.
-/
namespace RuleScan

/-- The recorded offsets of each pattern; a pattern without a match has no set. -/
structure MatchIndex where
  offsets : Array (Option OffsetSet)
deriving DecidableEq, Repr

/-- Why a match cannot be recorded. -/
inductive RecordError where
  | unknownPattern (id : PatternId) (numPatterns : Nat)
  | negativeOffset (id : PatternId) (offset : Int64)
deriving DecidableEq, Repr

def RecordError.message : RecordError → String
  | .unknownPattern id n =>
    "pattern " ++ toString id.toInt ++ ", index has " ++ toString n ++ ": pattern id out of range"
  | .negativeOffset id off =>
    "pattern " ++ toString id.toInt ++ " at " ++ toString off.toInt ++ ": negative pattern offset"

namespace MatchIndex

/-- An index without matches; a negative number of patterns counts as none. -/
def ofSize (numPatterns : Int) : MatchIndex := ⟨Array.replicate numPatterns.toNat none⟩

def numPatterns (x : MatchIndex) : Nat := x.offsets.size

/-- Records a match. Gives the index after it, which is the same if the match is refused, and why it is
refused. -/
def add (x : MatchIndex) (id : PatternId) (offset : Int64) : MatchIndex × Option RecordError :=
  if id < 0 ∨ x.numPatterns ≤ id.toInt.toNat then (x, some (.unknownPattern id x.numPatterns))
  else if offset < 0 then (x, some (.negativeOffset id offset))
  else
    let s := (x.offsets.getD id.toInt.toNat none).getD .empty
    (⟨x.offsets.setIfInBounds id.toInt.toNat (some (s.insert offset.toInt.toNat))⟩, none)

/-- Records pairs of a pattern and an offset in turn, and passes over those that are refused. -/
def addAll (x : MatchIndex) (found : List (PatternId × Int64)) : MatchIndex :=
  found.foldl (fun x p => (x.add p.1 p.2).1) x

end MatchIndex

/-- An index of recorded matches that queries are asked of; it may be missing. -/
abbrev MatchSource := Option MatchIndex

namespace MatchSource

/-- The offsets of a pattern, if it has any. -/
def set? (x : MatchSource) (id : PatternId) : Option OffsetSet :=
  match x with
  | none => none
  | some x =>
    if id < 0 ∨ x.numPatterns ≤ id.toInt.toNat then none
    else x.offsets.getD id.toInt.toNat none

def matched (x : MatchSource) (id : PatternId) : Bool :=
  match x.set? id with
  | none => false
  | some s => !s.isEmpty

def matchedAt (x : MatchSource) (id : PatternId) (offset : Int64) : Bool :=
  match x.set? id with
  | none => false
  | some s => if offset < 0 then false else s.contains offset.toInt.toNat

/-- Whether the pattern matched at some offset from `lower` to `upper`, both included. -/
def matchedIn (x : MatchSource) (id : PatternId) (lower upper : Int64) : Bool :=
  match x.set? id with
  | none => false
  | some s =>
    if upper < 0 ∨ upper < lower then false
    else
      let lower := if lower < 0 then 0 else lower
      let below := if 0 < lower then s.rank (lower - 1).toInt.toNat else 0
      below < s.rank upper.toInt.toNat

/-- The offsets of a pattern in increasing order; `none` if it has no match. -/
def offsetsOf? (x : MatchSource) (id : PatternId) : Option (List Int64) :=
  (x.set? id).map fun s => s.toList.map fun (n : Nat) => Int64.ofNat n

end MatchSource

/-- The three queries that a scan makes, each with its answers. -/
structure PatternIndex where
  matched : PatternId → Bool
  matchedAt : PatternId → Int64 → Bool
  /-- Whether the pattern matched at some offset between two others, both included. -/
  matchedIn : PatternId → Int64 → Int64 → Bool

/-- Recorded matches as an index of patterns. -/
def MatchSource.patternIndex (x : MatchSource) : PatternIndex := ⟨x.matched, x.matchedAt, x.matchedIn⟩

/-- A scan has an index of patterns or none. Without one every query is answered in the negative. -/
abbrev PatternSource := Option PatternIndex

namespace PatternSource

def matched (x : PatternSource) (id : PatternId) : Bool := x.any (·.matched id)

def matchedAt (x : PatternSource) (id : PatternId) (offset : Int64) : Bool :=
  x.any (·.matchedAt id offset)

def matchedIn (x : PatternSource) (id : PatternId) (lower upper : Int64) : Bool :=
  x.any (·.matchedIn id lower upper)

end PatternSource

end RuleScan
