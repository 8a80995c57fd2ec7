import RuleScan.Bytecode.ValueType
import RuleScan.ScanState

/-!
The host functions: what a module may import, and how it reports rules and queries patterns. They
work on a stack of 64-bit slots. Arguments are taken from its first slots; a 32-bit argument is the
low half of its slot, whatever the high half holds. A result replaces the first slot.
-/
namespace RuleScan

/-- The functions that a module may import. -/
inductive HostFunction where
  | ruleMatch
  | isPatternMatch
  | isPatternMatchAt
  | isPatternMatchIn
deriving DecidableEq, Repr

namespace HostFunction

/-- The functions in the order of their indexes. -/
def all : List HostFunction := [ruleMatch, isPatternMatch, isPatternMatchAt, isPatternMatchIn]

def moduleName : String := "internal"

def name : HostFunction → String
  | ruleMatch => "rule_match"
  | isPatternMatch => "is_pat_match"
  | isPatternMatchAt => "is_pat_match_at"
  | isPatternMatchIn => "is_pat_match_in"

def type : HostFunction → FuncType
  | ruleMatch => ⟨[.i32], []⟩
  | isPatternMatch => ⟨[.i32], [.i32]⟩
  | isPatternMatchAt => ⟨[.i32, .i64], [.i32]⟩
  | isPatternMatchIn => ⟨[.i32, .i64, .i64], [.i32]⟩

/-- The place of a function among the imports of a built module. -/
def index : HostFunction → Nat
  | ruleMatch => 0
  | isPatternMatch => 1
  | isPatternMatchAt => 2
  | isPatternMatchIn => 3

def ofName? (n : String) : Option HostFunction := all.find? (·.name == n)

/-- The slot at a place as a 32-bit argument. -/
def arg32 (slots : List UInt64) (i : Nat) : Int32 := (slots.getD i 0).toUInt32.toInt32

def arg64 (slots : List UInt64) (i : Nat) : Int64 := (slots.getD i 0).toInt64

def boolSlot (b : Bool) : UInt64 := if b then 1 else 0

/-- The slots after a query with the given answer. -/
def reply (slots : List UInt64) (answer : Bool) : List UInt64 := slots.set 0 (boolSlot answer)

def serve (h : HostFunction) (scan : ScanState) (slots : List UInt64) : List UInt64 × ScanState :=
  match h with
  | ruleMatch => (slots, scan.ruleMatch (arg32 slots 0))
  | isPatternMatch => (reply slots (scan.isPatternMatch (arg32 slots 0)), scan)
  | isPatternMatchAt =>
    (reply slots (scan.isPatternMatchAt (arg32 slots 0) (arg64 slots 1)), scan)
  | isPatternMatchIn =>
    (reply slots (scan.isPatternMatchIn (arg32 slots 0) (arg64 slots 1) (arg64 slots 2)), scan)

/-- Calls a function on a stack of slots, for the scan that is attached, if any. Without a scan
nothing is recorded and no pattern matches. -/
def call (h : HostFunction) (scan : Option ScanState) (slots : List UInt64) :
    List UInt64 × Option ScanState :=
  match scan with
  | some s =>
    let (after, t) := h.serve s slots
    (after, some t)
  | none =>
    match h with
    | ruleMatch => (slots, none)
    | isPatternMatch | isPatternMatchAt | isPatternMatchIn => (reply slots false, none)

end HostFunction

end RuleScan
