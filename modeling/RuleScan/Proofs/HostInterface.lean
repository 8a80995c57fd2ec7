import RuleScan.Host
import RuleScan.Proofs.ScanReports

/-!
# The interface of the host functions

A host function sees a stack of 64-bit slots. The number of a pattern or a rule is the low half of the
first slot, read as a signed number; offsets are whole slots. A query replaces the first slot by its
answer and does nothing else; a report changes no slot. So a scan is what the reports alone make of it,
whatever queries are made in between, and the high half of the first slot is never looked at.
-/
namespace RuleScan.HostFunction

/-! ### Arguments -/

/-- A 32-bit argument is its slot modulo `2 ^ 32`, with a sign. -/
theorem toInt_arg32 (slots : List UInt64) (i : Nat) :
    (arg32 slots i).toInt = Int.bmod (slots.getD i 0).toNat 4294967296 := by
  have hnat : (slots.getD i 0).toUInt32.toNat = (slots.getD i 0).toNat % 4294967296 :=
    UInt64.toNat_toUInt32 _
  have hint : (arg32 slots i).toInt =
      Int.bmod (slots.getD i 0).toUInt32.toNat 4294967296 := BitVec.toInt_eq_toNat_bmod _
  rw [hint, hnat, Int.natCast_emod]
  exact Int.emod_bmod _ _

/-- A 64-bit argument is its slot in two's complement. -/
theorem toInt_arg64 (slots : List UInt64) (i : Nat) :
    (arg64 slots i).toInt = Int.bmod (slots.getD i 0).toNat 18446744073709551616 :=
  BitVec.toInt_eq_toNat_bmod _

/-- The high half of a slot does not matter for a 32-bit argument. -/
theorem arg32_of_low_half {a b : UInt64} (h : a.toNat % 4294967296 = b.toNat % 4294967296)
    (rest : List UInt64) : arg32 (a :: rest) 0 = arg32 (b :: rest) 0 := by
  have hlow : a.toUInt32 = b.toUInt32 := by
    rw [← UInt32.toNat_inj, UInt64.toNat_toUInt32, UInt64.toNat_toUInt32]
    exact h
  show a.toUInt32.toInt32 = b.toUInt32.toInt32
  rw [hlow]

/-! ### One call -/

/-- Whether the scan that is attached answers a query with yes. Without a scan the answer is no. -/
def answer (h : HostFunction) (scan : Option ScanState) (slots : List UInt64) : Bool :=
  scan.any fun s =>
    match h with
    | ruleMatch => false
    | isPatternMatch => s.isPatternMatch (arg32 slots 0)
    | isPatternMatchAt => s.isPatternMatchAt (arg32 slots 0) (arg64 slots 1)
    | isPatternMatchIn => s.isPatternMatchIn (arg32 slots 0) (arg64 slots 1) (arg64 slots 2)

theorem call_ruleMatch (scan : Option ScanState) (slots : List UInt64) :
    ruleMatch.call scan slots = (slots, scan.map (·.ruleMatch (arg32 slots 0))) := by
  cases scan <;> rfl

theorem call_query {h : HostFunction} (hquery : h ≠ ruleMatch) (scan : Option ScanState)
    (slots : List UInt64) : h.call scan slots = (reply slots (h.answer scan slots), scan) := by
  cases h with
  | ruleMatch => exact absurd rfl hquery
  | _ => cases scan <;> rfl

/-- Calls on stacks that differ in the high half of their first slots only leave the same results and
the same scan. -/
theorem call_of_low_half {a b : UInt64} (h : a.toNat % 4294967296 = b.toNat % 4294967296)
    (f : HostFunction) (scan : Option ScanState) (rest : List UInt64) :
    (f.call scan (a :: rest)).1.take f.type.results.length =
        (f.call scan (b :: rest)).1.take f.type.results.length ∧
      (f.call scan (a :: rest)).2 = (f.call scan (b :: rest)).2 := by
  have harg := arg32_of_low_half h rest
  by_cases hreport : f = ruleMatch
  · subst hreport
    rw [call_ruleMatch, call_ruleMatch, harg]
    exact ⟨rfl, rfl⟩
  · have hanswer : f.answer scan (a :: rest) = f.answer scan (b :: rest) := by
      unfold answer
      rw [harg]
      rfl
    rw [call_query hreport, call_query hreport, hanswer]
    exact ⟨rfl, rfl⟩

/-! ### Calls in turn -/

/-- The scan after calls in turn, each on a stack of its own. -/
def callAll (scan : Option ScanState) (calls : List (HostFunction × List UInt64)) :
    Option ScanState :=
  calls.foldl (fun scan c => (c.1.call scan c.2).2) scan

/-- The calls that are reports. -/
def reportCalls (calls : List (HostFunction × List UInt64)) : List (HostFunction × List UInt64) :=
  calls.filter fun c => c.1 = ruleMatch

/-- The scan after calls is that after the reports among them. -/
theorem callAll_eq (scan : Option ScanState) (calls : List (HostFunction × List UInt64)) :
    callAll scan calls =
      scan.map (·.ruleMatchAll ((reportCalls calls).map fun c => arg32 c.2 0)) := by
  induction calls generalizing scan with
  | nil => cases scan <;> rfl
  | cons c calls ih =>
    obtain ⟨f, slots⟩ := c
    have hstep : callAll scan ((f, slots) :: calls) = callAll (f.call scan slots).2 calls := rfl
    rw [hstep, ih]
    by_cases hreport : f = ruleMatch
    · subst hreport
      rw [call_ruleMatch, Option.map_map]
      rfl
    · rw [call_query hreport, reportCalls, reportCalls,
        List.filter_cons_of_neg (by simpa using hreport)]

/-- What the host functions do to a stack and to a scan, or without one. A query replaces the first slot
by one or zero and keeps all else; a report keeps the stack and is recorded. The high half of the first
slot does not matter. After any calls the scan is what the reports among them make of it, in turn. -/
theorem call_effects (scan : Option ScanState) (a b c : UInt64) (rest : List UInt64) :
    (∃ (id : Int32) (x y : Int64), id.toInt = Int.bmod a.toNat 4294967296 ∧
      x.toInt = Int.bmod b.toNat 18446744073709551616 ∧
      y.toInt = Int.bmod c.toNat 18446744073709551616 ∧
      isPatternMatch.call scan (a :: rest) =
        ((if scan.any (·.isPatternMatch id) then 1 else 0) :: rest, scan) ∧
      isPatternMatchAt.call scan (a :: b :: rest) =
        ((if scan.any (·.isPatternMatchAt id x) then 1 else 0) :: b :: rest, scan) ∧
      isPatternMatchIn.call scan (a :: b :: c :: rest) =
        ((if scan.any (·.isPatternMatchIn id x y) then 1 else 0) :: b :: c :: rest, scan) ∧
      ruleMatch.call scan (a :: rest) = (a :: rest, scan.map (·.ruleMatch id))) ∧
    (∀ (f : HostFunction) (other : UInt64), other.toNat % 4294967296 = a.toNat % 4294967296 →
      (f.call scan (other :: rest)).1.take f.type.results.length =
          (f.call scan (a :: rest)).1.take f.type.results.length ∧
        (f.call scan (other :: rest)).2 = (f.call scan (a :: rest)).2) ∧
    ∀ calls : List (HostFunction × List UInt64),
      callAll scan calls = callAll scan (reportCalls calls) ∧
      ∃ ids : List Int32, ids.map Int32.toInt =
          (reportCalls calls).map (fun c => Int.bmod (c.2.getD 0 0).toNat 4294967296) ∧
        callAll scan calls = scan.map (·.ruleMatchAll ids) := by
  refine ⟨⟨arg32 [a] 0, arg64 [b] 0, arg64 [c] 0, toInt_arg32 _ _, toInt_arg64 _ _, toInt_arg64 _ _,
    call_query (by decide) _ _, call_query (by decide) _ _, call_query (by decide) _ _,
    call_ruleMatch _ _⟩, ?_, ?_⟩
  · intro f other hlow
    exact call_of_low_half hlow f scan rest
  · intro calls
    refine ⟨?_, _, ?_, callAll_eq scan calls⟩
    · rw [callAll_eq, callAll_eq, reportCalls, reportCalls, List.filter_filter]
      simp only [Bool.and_self]
    · rw [List.map_map]
      exact List.map_congr_left fun c _ => toInt_arg32 c.2 0

/-- A slot whose low half is two reports the rule of that number, whatever its high half. -/
theorem call_effects_highHalf :
    (4294967298 : UInt64).toNat % 4294967296 = (2 : UInt64).toNat % 4294967296 ∧
      (ruleMatch.call (some (.new 3 none)) [4294967298]).2 =
        (ruleMatch.call (some (.new 3 none)) [2]).2 := by
  have hlow : (4294967298 : UInt64).toNat % 4294967296 = (2 : UInt64).toNat % 4294967296 := by decide
  obtain ⟨_, hhigh, _⟩ := call_effects (some (.new 3 none)) 2 0 0 []
  exact ⟨hlow, (hhigh ruleMatch 4294967298 hlow).2⟩

end RuleScan.HostFunction
