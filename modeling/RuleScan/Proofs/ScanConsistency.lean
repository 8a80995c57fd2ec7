import RuleScan.Proofs.ModuleReports
import RuleScan.Proofs.ScanReports
import RuleScan.Scanner.Basic

/-!
# The bits and the list of a scan agree

A scan keeps what was reported twice: as a bit for each rule and as a list. Each report keeps the two
in step, and a query changes neither; so they agree after any calls. A run of a module does nothing to a
scan but report rules to it, so they agree in every scan that succeeds.
-/
namespace RuleScan

/-- What is asked of a scan: to record a report, or to answer a query. -/
inductive ScanCall where
  | ruleMatch (id : RuleId)
  | isPatternMatch (id : PatternId)
  | isPatternMatchAt (id : PatternId) (offset : Int64)
  | isPatternMatchIn (id : PatternId) (lower upper : Int64)
deriving DecidableEq, Repr

namespace ScanCall

/-- The rule that a call reports. -/
def report? : ScanCall → Option RuleId
  | ruleMatch id => some id
  | _ => none

/-- What an index answers to a call. -/
def answer? (index : PatternSource) : ScanCall → Option Bool
  | ruleMatch _ => none
  | isPatternMatch id => some (index.matched id)
  | isPatternMatchAt id offset => some (index.matchedAt id offset)
  | isPatternMatchIn id lower upper => some (index.matchedIn id lower upper)

end ScanCall

namespace ScanState

/-- Makes a call, which may give an answer. -/
def perform (s : ScanState) : ScanCall → ScanState × Option Bool
  | .ruleMatch id => (s.ruleMatch id, none)
  | .isPatternMatch id => (s, some (s.isPatternMatch id))
  | .isPatternMatchAt id offset => (s, some (s.isPatternMatchAt id offset))
  | .isPatternMatchIn id lower upper => (s, some (s.isPatternMatchIn id lower upper))

/-- The state after calls in turn. -/
def performAll (s : ScanState) (calls : List ScanCall) : ScanState :=
  calls.foldl (fun s call => (s.perform call).1) s

/-- What a call does: it makes the report that it is, if any, and is answered by the index. -/
theorem perform_eq (s : ScanState) (call : ScanCall) :
    s.perform call = (s.ruleMatchAll call.report?.toList, call.answer? s.index) := by
  cases call <;> rfl

/-- Calls in turn do what their reports do. -/
theorem performAll_eq (s : ScanState) (calls : List ScanCall) :
    s.performAll calls = s.ruleMatchAll (calls.filterMap ScanCall.report?) := by
  induction calls generalizing s with
  | nil => rfl
  | cons call calls ih =>
    have hstep : s.performAll (call :: calls) = (s.perform call).1.performAll calls := rfl
    rw [hstep, ih, perform_eq, ← ruleMatchAll_append]
    cases call <;> rfl

/-! ### Counting -/

/-- A report adds one to the list and one to the bits that are set, or nothing to either. -/
theorem ruleMatch_counts {s : ScanState} (h : s.latest.length = s.matchCount) (id : RuleId) :
    (s.ruleMatch id).latest.length = (s.ruleMatch id).matchCount := by
  rcases ruleMatch_cases s id with ⟨_, heq⟩ | ⟨hnot, heq⟩
  · rwa [heq]
  · have hcount := BitRow.count_setBit s.matching id.toInt.toNat (test_of_not_ignores hnot)
    rw [heq, matchCount, hcount, List.length_cons, h]
    rfl

theorem ruleMatchAll_counts {s : ScanState} (h : s.latest.length = s.matchCount)
    (ids : List RuleId) : (s.ruleMatchAll ids).latest.length = (s.ruleMatchAll ids).matchCount := by
  induction ids generalizing s with
  | nil => exact h
  | cons id ids ih => exact ih (ruleMatch_counts h id)

theorem new_counts (n : Int) (index : PatternSource) :
    (new n index).latest.length = (new n index).matchCount := by
  have hnone : (BitRow.new n.toNat).count true = 0 := by simp [BitRow.new, Array.count_replicate]
  exact hnone.symm

/-! ### Agreement -/

/-- The bits and the list of a scan of `n` rules agree. There is a bit for each rule. A row that cannot
be made for so many rules has the bits up to the largest rule that was reported. -/
structure Consistent (s : ScanState) (n : Int) : Prop where
  numRules : (s.numRules : Int) = max n 0
  size : n ≤ BitRow.maxBits → (s.matching.size : Int) = max n 0
  grown : BitRow.maxBits < n → ∀ i : Nat,
    i < s.matching.size ↔ ∃ id ∈ s.reported, (i : Int) ≤ id.toInt
  bit : ∀ i : Nat, s.matching.test i = true ↔ ∃ id ∈ s.reported, id.toInt = i
  nodup : s.reported.Nodup
  count : s.reported.length = s.matchCount

/-- Whatever is reported to a new scan, its bits and its list agree. -/
theorem consistent_ruleMatchAll (n : Int) (index : PatternSource) (ids : List RuleId) :
    ((new n index).ruleMatchAll ids).Consistent n := by
  have hrecords := records_ruleMatchAll n index ids
  have hknown : ∀ id ∈ ids.filter (known n.toNat), id.toInt < n.toNat := by
    intro id hid
    have hid' := (List.mem_filter.mp hid).2
    simp only [known, Bool.and_eq_true, decide_eq_true_eq] at hid'
    exact hid'.2
  refine ⟨?_, ?_, ?_, ?_, ?_, ?_⟩
  · rw [hrecords.numRules]
    omega
  · intro hn
    rw [hrecords.size_matching hknown (by omega)]
    omega
  · intro hn i
    have hempty : (BitRow.new n.toNat).size = 0 := by
      rw [BitRow.new, Array.size_replicate, if_neg (by omega)]
    rw [hrecords.length, hrecords.reported, hempty]
    simp only [Nat.not_lt_zero, false_or, List.mem_eraseDups]
  · intro i
    rw [hrecords.bit, hrecords.reported]
    simp only [List.mem_eraseDups]
  · rw [hrecords.reported]
    exact nodup_eraseDups _
  · rw [reported, List.length_reverse]
    exact ruleMatchAll_counts (new_counts n index) ids

end ScanState

/-! ### Runs -/

/-- A run does nothing to a scan but report rules to it, whatever the module. -/
theorem Engine.execute_reports (e : Engine) (limits : Limits) (x : Executable) (scan : ScanState) :
    ∃ ids, (e.execute limits false x scan).2 = scan.ruleMatchAll ids := by
  cases hclosed : e.closed with
  | true => exact ⟨[], by simp only [execute, hclosed]; rfl⟩
  | false =>
    obtain ⟨_, ids, huniform⟩ : Uniform scan.index (x.execution limits) := x.execution_uniform limits
    refine ⟨ids, ?_⟩
    rw [execute_eq_execution hclosed rfl, huniform scan (.refl scan.index)]

/-- A run that succeeds was not stopped by being canceled. -/
theorem Engine.execute_of_ok {e : Engine} {limits : Limits} {canceled : Bool} {x : Executable}
    {scan : ScanState} (h : (e.execute limits canceled x scan).1 = .ok ()) :
    e.execute limits canceled x scan = e.execute limits false x scan := by
  cases hstopped : canceled && e.created.closeOnDone with
  | false => simp only [execute, hstopped, Bool.false_and]
  | true =>
    exfalso
    simp only [execute, hstopped] at h
    split at h
    · contradiction
    · split at h
      · contradiction
      · split at h <;> contradiction

theorem Scanner.scan_ok {s : Scanner} {engine : Engine} {limits : Limits} {canceled : Bool}
    {metrics : Metrics} {index : PatternSource} {state : ScanState}
    (h : (s.scan engine limits canceled metrics index).1 = .ok state) :
    ∃ ids, state = (ScanState.new s.rules.numRules index).ruleMatchAll ids := by
  obtain ⟨ids, hids⟩ := engine.execute_reports limits s.executable (.new s.rules.numRules index)
  unfold Scanner.scan at h
  split at h
  · rename_i after hexecute
    rw [← Engine.execute_of_ok (congrArg Prod.fst hexecute), hexecute] at hids
    exact ⟨ids, (Except.ok.inj h).symm.trans hids⟩
  · contradiction

/-- After any calls of a new scan, of reports of any numbers and of queries, its bits and its list agree.
The list has the numbers that belong to rules, in the order of their first reports; the queries are
answered by the index and change nothing, so the state is that of the reports alone. Hence the bits and
the list agree after every scan that succeeds, of any module. -/
theorem ScanState.list_of_first_reports (numRules : Int) (index : PatternSource)
    (calls : List ScanCall) :
    let s := (new numRules index).performAll calls
    s.Consistent numRules ∧
    s.reported = ((calls.filterMap ScanCall.report?).filter fun id =>
      0 ≤ id.toInt && id.toInt < numRules).eraseDups ∧
    s = (new numRules index).ruleMatchAll (calls.filterMap ScanCall.report?) ∧
    (∀ call, call.report? = none → s.perform call = (s, call.answer? index)) ∧
    ∀ (scanner : Scanner) (engine : Engine) (limits : Limits) (canceled : Bool) (metrics : Metrics)
      (state : ScanState), (scanner.scan engine limits canceled metrics index).1 = .ok state →
        state.Consistent scanner.rules.numRules := by
  intro s
  have hs : s = (new numRules index).ruleMatchAll (calls.filterMap ScanCall.report?) :=
    performAll_eq _ calls
  refine ⟨?_, ?_, hs, ?_, ?_⟩
  · rw [hs]
    exact consistent_ruleMatchAll _ _ _
  · rw [hs, (records_ruleMatchAll _ _ _).reported]
    congr 1
    refine List.filter_congr ?_
    intro id _
    rw [Bool.eq_iff_iff]
    simp only [known, Bool.and_eq_true, decide_eq_true_eq]
    omega
  · intro call hcall
    have hindex : s.index = index := by rw [hs, ruleMatchAll_index]; rfl
    rw [perform_eq, hcall, hindex]
    rfl
  · intro scanner engine limits canceled metrics state hscan
    obtain ⟨ids, rfl⟩ := Scanner.scan_ok hscan
    exact consistent_ruleMatchAll _ _ _

example : ((ScanState.new 3 none).performAll [.ruleMatch 2, .isPatternMatch 0, .ruleMatch 7,
    .ruleMatch (-1), .ruleMatch 0, .ruleMatch 2]).reported = [2, 0] := by decide

end RuleScan
