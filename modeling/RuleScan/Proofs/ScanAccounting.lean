import Mathlib.Algebra.BigOperators.Group.List.Lemmas
import Mathlib.Algebra.GroupWithZero.Nat
import Mathlib.Data.List.ReduceOption
import RuleScan.Proofs.ScanConsistency

/-!
# The counts of scans

Scanners scan in any order, and options, a name among them, are set on them between the scans. What is
counted is what was done: each scan adds to the counts under the name that its scanner has, and to no
others, and options add nothing. A scan that fails may have reported rules before; they are not
counted.
-/
namespace RuleScan

namespace NameCounts

/-- The counts after one more scan, which failed or had a number of matching rules. -/
def add (c : NameCounts) : Option Nat → NameCounts
  | none => { c with durations := c.durations + 1, errors := c.errors + 1 }
  | some n => { c with durations := c.durations + 1, matched := some (c.matched.getD 0 + n) }

/-- The counts after scans with the given outcomes. -/
def addAll (c : NameCounts) (outcomes : List (Option Nat)) : NameCounts := outcomes.foldl add c

variable (c : NameCounts) (outcome : Option Nat) (outcomes : List (Option Nat))

theorem addAll_cons : c.addAll (outcome :: outcomes) = (c.add outcome).addAll outcomes := rfl

theorem addAll_durations : (c.addAll outcomes).durations = c.durations + outcomes.length := by
  induction outcomes generalizing c with
  | nil => rfl
  | cons outcome outcomes ih =>
    have hadd : (c.add outcome).durations = c.durations + 1 := by cases outcome <;> rfl
    rw [addAll_cons, ih, hadd, List.length_cons]
    omega

theorem addAll_errors :
    (c.addAll outcomes).errors = c.errors + outcomes.countP Option.isNone := by
  induction outcomes generalizing c with
  | nil => rfl
  | cons outcome outcomes ih =>
    have hadd : (c.add outcome).errors = c.errors + if outcome.isNone then 1 else 0 := by
      cases outcome <;> rfl
    rw [addAll_cons, ih, hadd, List.countP_cons]
    omega

theorem addAll_matched :
    (c.addAll outcomes).matched.getD 0 = c.matched.getD 0 + outcomes.reduceOption.sum := by
  induction outcomes generalizing c with
  | nil => rfl
  | cons outcome outcomes ih =>
    have hadd : (c.add outcome).matched.getD 0 = c.matched.getD 0 + outcome.getD 0 := by
      cases outcome <;> rfl
    have hsum : (outcome :: outcomes).reduceOption.sum =
        outcome.getD 0 + outcomes.reduceOption.sum := by
      cases outcome with
      | none => rw [List.reduceOption_cons_of_none, Option.getD_none, Nat.zero_add]
      | some n => rw [List.reduceOption_cons_of_some, Option.getD_some, List.sum_cons]
    rw [addAll_cons, ih, hadd, hsum, Nat.add_assoc]

end NameCounts

namespace Metrics

/-- The names that there are counts under. -/
def labels (m : Metrics) : List String := m.counts.map (·.1)

theorem lookup_filter {name other : String} (h : other ≠ name)
    (counts : List (String × NameCounts)) :
    (counts.filter (·.1 ≠ name)).lookup other = counts.lookup other := by
  induction counts with
  | nil => rfl
  | cons entry counts ih =>
    by_cases hname : entry.1 = name
    · have hother : (other == entry.1) = false := by
        rw [hname]
        exact beq_eq_false_iff_ne.mpr h
      rw [List.filter_cons_of_neg (by simpa using hname), ih, List.lookup_cons, hother]
    · rw [List.filter_cons_of_pos (by simpa using hname), List.lookup_cons, List.lookup_cons, ih]

variable (m : Metrics) (name : String)

theorem under_update (f : NameCounts → NameCounts) (other : String) :
    (m.update name f).under other = if other = name then f (m.under name) else m.under other := by
  by_cases h : other = name
  · rw [if_pos h, h, under, update, List.lookup_cons_self, Option.getD_some]
  · rw [if_neg h, under, update, List.lookup_cons, beq_eq_false_iff_ne.mpr h, lookup_filter h]
    rfl

/-- Two changes under one name make one change. -/
theorem update_update (f g : NameCounts → NameCounts) :
    (m.update name f).update name g = m.update name (g ∘ f) := by
  have hfilter : (m.update name f).counts.filter (·.1 ≠ name) = m.counts.filter (·.1 ≠ name) := by
    rw [update, List.filter_cons_of_neg (by simp), List.filter_filter]
    simp only [Bool.and_self]
  have hunder : (m.update name f).under name = f (m.under name) := by
    rw [under_update, if_pos rfl]
  rw [update, hfilter, hunder]
  rfl

/-- The counts after a whole scan with the given outcome. -/
def record (outcome : Option Nat) : Metrics := m.countScan.update name (·.add outcome)

/-- What a scan that succeeds does to the counts in turn. -/
theorem addMatches_observeDuration (n : Nat) :
    (m.countScan.addMatches name n).observeDuration name = m.record name (some n) :=
  update_update _ _ _ _

/-- What a scan that fails does to the counts in turn. -/
theorem countError_observeDuration :
    (m.countScan.countError name).observeDuration name = m.record name none :=
  update_update _ _ _ _

/-- A scan adds its outcome to the counts under its name and leaves those under other names. -/
theorem under_record (outcome : Option Nat) (other : String) :
    (m.record name outcome).under other =
      if other = name then (m.under name).add outcome else m.under other :=
  under_update _ _ _ _

theorem labels_record (outcome : Option Nat) :
    (m.record name outcome).labels = name :: m.labels.filter (· ≠ name) := by
  rw [labels, labels, record, update, List.map_cons, List.filter_map]
  rfl

end Metrics

/-! ### Single scans -/

namespace Scanner

variable (s : Scanner) (engine : Engine) (limits : Limits) (canceled : Bool) (metrics : Metrics)
  (index : PatternSource)

/-- A scan whose run succeeds returns the state after it and counts the rules that are listed in it. -/
theorem scan_of_ok {state : ScanState}
    (h : engine.execute limits canceled s.executable (.new s.rules.numRules index) = (.ok (), state)) :
    s.scan engine limits canceled metrics index =
      (.ok state, metrics.record s.name (some state.reported.length)) := by
  simp only [scan, h, Metrics.addMatches_observeDuration]

/-- A scan whose run fails returns the error and no state, whatever was reported before. -/
theorem scan_of_error {e : RunError}
    (h : (engine.execute limits canceled s.executable (.new s.rules.numRules index)).1 = .error e) :
    s.scan engine limits canceled metrics index =
      (.error ⟨s.name, e⟩, metrics.record s.name none) := by
  cases hrun : engine.execute limits canceled s.executable (.new s.rules.numRules index) with
  | mk result after =>
    rw [hrun] at h
    obtain rfl : result = .error e := h
    simp only [scan, hrun, Metrics.countError_observeDuration]

/-- A scan is recorded under the name of its scanner: by the number of bits that are set in the state
that it returns, or as failed. -/
theorem scan_metrics :
    (s.scan engine limits canceled metrics index).2 = metrics.record s.name
      ((s.scan engine limits canceled metrics index).1.toOption.map ScanState.matchCount) := by
  cases hrun : engine.execute limits canceled s.executable (.new s.rules.numRules index) with
  | mk result state =>
    cases result with
    | ok u =>
      have hscan := s.scan_of_ok engine limits canceled metrics index hrun
      obtain ⟨ids, hids⟩ := scan_ok (congrArg Prod.fst hscan)
      have hcount : state.reported.length = state.matchCount := by
        rw [hids]
        exact (ScanState.consistent_ruleMatchAll _ _ ids).count
      rw [hscan, hcount]
      rfl
    | error e =>
      rw [s.scan_of_error engine limits canceled metrics index (congrArg Prod.fst hrun)]
      rfl

end Scanner

/-! ### Runs of scans -/

/-- Something done with one of several scanners. The engine and the limits of a scan are those of the
time when it is made. -/
inductive ScannerAction (ι : Type) where
  | scan (scanner : ι) (engine : Engine) (limits : Limits) (canceled : Bool) (index : PatternSource)
  | setOptions (scanner : ι) (options : List ScannerOption)

def ScannerAction.isScan {ι : Type} : ScannerAction ι → Bool
  | scan .. => true
  | setOptions .. => false

/-- A scan that was made: the name that its scanner had, and what it returned. -/
structure MadeScan where
  name : String
  result : Except ScanError ScanState

/-- The number of bits that are set in the state that a scan returned, if it did. -/
def MadeScan.outcome (scan : MadeScan) : Option Nat := scan.result.toOption.map ScanState.matchCount

/-- What a list of scans comes to under a name. -/
def NameCounts.ofScans (made : List MadeScan) (name : String) : NameCounts :=
  zero.addAll ((made.filter (·.name = name)).map MadeScan.outcome)

namespace NameCounts

variable (made : List MadeScan) (name : String)

theorem ofScans_durations :
    (ofScans made name).durations = (made.filter (·.name = name)).length := by
  rw [ofScans, addAll_durations, List.length_map]
  exact Nat.zero_add _

theorem ofScans_errors : (ofScans made name).errors =
    (made.filter (·.name = name)).countP (·.result.toOption.isNone) := by
  have hfailed : Option.isNone ∘ MadeScan.outcome = (·.result.toOption.isNone) := by
    funext scan
    exact Option.isNone_map
  rw [ofScans, addAll_errors, List.countP_map, hfailed]
  exact Nat.zero_add _

theorem ofScans_matched : (ofScans made name).matched.getD 0 =
    (((made.filter (·.name = name)).filterMap (·.result.toOption)).map ScanState.matchCount).sum := by
  rw [ofScans, addAll_matched, List.map_filterMap, List.reduceOption, List.filterMap_map]
  exact Nat.zero_add _

end NameCounts

/-- Scanners that are counted together. -/
structure Scanners (ι : Type) where
  scanner : ι → Scanner
  metrics : Metrics

namespace Scanners

variable {ι : Type} [DecidableEq ι]

/-- Does something with a scanner, which may be a scan. -/
def perform (s : Scanners ι) : ScannerAction ι → Scanners ι × Option MadeScan
  | .scan k engine limits canceled index =>
    let after := (s.scanner k).scan engine limits canceled s.metrics index
    ({ s with metrics := after.2 }, some ⟨(s.scanner k).name, after.1⟩)
  | .setOptions k options =>
    let after := (s.scanner k).setOptions s.metrics options
    (⟨fun j => if j = k then after.1 else s.scanner j, after.2.1⟩, none)

/-- The scanners after actions in turn, and the scans that were made, in order. -/
def performAll (s : Scanners ι) : List (ScannerAction ι) → Scanners ι × List MadeScan
  | [] => (s, [])
  | action :: actions =>
    let after := s.perform action
    let rest := after.1.performAll actions
    (rest.1, after.2.toList ++ rest.2)

end Scanners

namespace Metrics

/-- The counts are those of the scans that were made, from none at all. -/
structure Accounts (m : Metrics) (made : List MadeScan) : Prop where
  scans : m.scans = made.length
  under : ∀ name, m.under name = .ofScans made name
  distinct : m.labels.Nodup
  labeled : ∀ name, name ∈ m.labels ↔ ∃ scan ∈ made, scan.name = name

theorem accounts_zero : zero.Accounts [] where
  scans := rfl
  under _ := rfl
  distinct := .nil
  labeled _ := by simp [labels, zero]

variable {m : Metrics} {made : List MadeScan}

theorem Accounts.record (h : m.Accounts made) (scan : MadeScan) :
    (m.record scan.name scan.outcome).Accounts (made ++ [scan]) where
  scans := by
    rw [List.length_append, ← h.scans]
    rfl
  under name := by
    rw [under_record, NameCounts.ofScans, List.filter_append]
    by_cases hname : name = scan.name
    · have hscan : [scan].filter (fun x => x.name = scan.name) = [scan] :=
        List.filter_cons_of_pos (decide_eq_true rfl)
      rw [if_pos hname, hname, h.under, hscan, List.map_append, NameCounts.addAll,
        List.foldl_append]
      rfl
    · rw [if_neg hname, h.under, List.filter_cons_of_neg (by simpa using Ne.symm hname),
        List.filter_nil, List.append_nil]
      rfl
  distinct := by
    rw [labels_record]
    refine List.nodup_cons.mpr ⟨?_, h.distinct.filter _⟩
    simp
  labeled name := by
    rw [labels_record, List.mem_cons, List.mem_filter, h.labeled]
    by_cases hname : name = scan.name <;> simp [hname, eq_comm]

/-- Whether the counts are exported does not matter to them. -/
theorem Accounts.register (h : m.Accounts made) (registered : Bool) :
    { m with registered := registered }.Accounts made :=
  ⟨h.scans, h.under, h.distinct, h.labeled⟩

/-- Every scan is under one of the labels. -/
theorem Accounts.sum_durations (h : m.Accounts made) :
    (m.labels.map fun name => (m.under name).durations).sum = made.length := by
  have hperm : m.labels.Perm (made.map MadeScan.name).dedup := by
    refine (List.perm_ext_iff_of_nodup h.distinct (List.nodup_dedup _)).mpr ?_
    intro name
    rw [h.labeled, List.mem_dedup, List.mem_map]
  have hcount : ∀ name, (m.under name).durations = (made.map MadeScan.name).count name := by
    intro name
    rw [h.under, NameCounts.ofScans_durations, ← List.countP_eq_length_filter, List.count,
      List.countP_map]
    rfl
  simp only [hcount]
  rw [(hperm.map _).sum_nat, List.sum_map_count_dedup_eq_length, List.length_map]

end Metrics

/-- Options change nothing in the counts but whether they are exported. -/
theorem ScannerSettings.applyAll_metrics (s : ScannerSettings) (m : Metrics)
    (options : List ScannerOption) :
    ∃ registered, (s.applyAll m options).2.1 = { m with registered := registered } := by
  induction options generalizing s m with
  | nil => exact ⟨m.registered, rfl⟩
  | cons option options ih =>
    rw [applyAll]
    split
    · rename_i t n hok
      have hn : ∃ registered, n = { m with registered := registered } := by
        cases option with
        | name text =>
          rw [apply] at hok
          split at hok
          · contradiction
          · exact ⟨m.registered, (Prod.mk.inj (Except.ok.inj hok)).2.symm⟩
        | register registry =>
          cases registry with
          | working => exact ⟨true, (Prod.mk.inj (Except.ok.inj hok)).2.symm⟩
          | failing reason => contradiction
        | _ => exact ⟨m.registered, (Prod.mk.inj (Except.ok.inj hok)).2.symm⟩
      obtain ⟨registered, rfl⟩ := hn
      exact ih t _
    · exact ⟨m.registered, rfl⟩

namespace Scanners

variable {ι : Type} [DecidableEq ι] {s : Scanners ι} {made : List MadeScan}

/-- An action is accounted for if those before it are. -/
theorem accounts_perform (h : s.metrics.Accounts made) (action : ScannerAction ι) :
    (s.perform action).1.metrics.Accounts (made ++ (s.perform action).2.toList) := by
  cases action with
  | scan k engine limits canceled index =>
    have hmetrics := (s.scanner k).scan_metrics engine limits canceled s.metrics index
    simp only [perform, Option.toList_some]
    rw [hmetrics]
    exact h.record ⟨_, _⟩
  | setOptions k options =>
    obtain ⟨registered, hmetrics⟩ := (s.scanner k).settings.applyAll_metrics s.metrics options
    have hperform : (s.perform (.setOptions k options)).1.metrics =
        { s.metrics with registered := registered } := hmetrics
    rw [hperform]
    simp only [perform, Option.toList_none, List.append_nil]
    exact h.register registered

theorem accounts_performAll (h : s.metrics.Accounts made) (actions : List (ScannerAction ι)) :
    (s.performAll actions).1.metrics.Accounts (made ++ (s.performAll actions).2) := by
  induction actions generalizing s made with
  | nil =>
    rw [performAll, List.append_nil]
    exact h
  | cons action actions ih =>
    rw [performAll, ← List.append_assoc]
    exact ih (accounts_perform h action)

theorem length_performAll (s : Scanners ι) (actions : List (ScannerAction ι)) :
    (s.performAll actions).2.length = actions.countP ScannerAction.isScan := by
  induction actions generalizing s with
  | nil => rfl
  | cons action actions ih =>
    rw [performAll, List.length_append, ih, List.countP_cons]
    cases action <;> simp [perform, ScannerAction.isScan, Nat.add_comm]

/-- Whatever scanners do from counts of zero, the counts are those of the scans that were made, each
under the name that its scanner had. The number of scans is also the sum of those that were timed over
the labels, which are the names that scans were made under. Under a name, the errors are the scans that
returned no state, and the matches are the bits that are set in the states that the others returned. A
scan leaves the counts under other names, and one whose run fails returns the error and adds no matches,
whatever was reported before. -/
theorem counts_of_made_scans (scanner : ι → Scanner) (actions : List (ScannerAction ι)) :
    let run := performAll ⟨scanner, .zero⟩ actions
    let metrics := run.1.metrics
    let made := run.2
    made.length = actions.countP ScannerAction.isScan ∧
    metrics.scans = made.length ∧
    metrics.scans = (metrics.labels.map fun name => (metrics.under name).durations).sum ∧
    metrics.labels.Nodup ∧
    (∀ name, name ∈ metrics.labels ↔ ∃ scan ∈ made, scan.name = name) ∧
    (∀ name,
      let mine := made.filter (·.name = name)
      (metrics.under name).durations = mine.length ∧
      (metrics.under name).errors = mine.countP (·.result.toOption.isNone) ∧
      (metrics.under name).matched.getD 0 =
        ((mine.filterMap (·.result.toOption)).map ScanState.matchCount).sum) ∧
    ∀ (s : Scanner) (engine : Engine) (limits : Limits) (canceled : Bool) (before : Metrics)
        (index : PatternSource),
      let after := s.scan engine limits canceled before index
      (∀ other, other ≠ s.name → after.2.under other = before.under other) ∧
      ∀ e, (engine.execute limits canceled s.executable (.new s.rules.numRules index)).1 =
          .error e →
        after.1 = .error ⟨s.name, e⟩ ∧
        (after.2.under s.name).matched = (before.under s.name).matched := by
  intro run metrics made
  have h : metrics.Accounts made := accounts_performAll (s := ⟨scanner, .zero⟩)
    Metrics.accounts_zero actions
  refine ⟨length_performAll _ actions, h.scans, ?_, h.distinct, h.labeled, ?_, ?_⟩
  · rw [h.sum_durations, h.scans]
  · intro name mine
    rw [h.under]
    exact ⟨NameCounts.ofScans_durations _ _, NameCounts.ofScans_errors _ _,
      NameCounts.ofScans_matched _ _⟩
  · intro s engine limits canceled before index after
    have hmetrics : after.2 = _ := s.scan_metrics engine limits canceled before index
    constructor
    · intro other hother
      rw [hmetrics, Metrics.under_record, if_neg hother]
    · intro e herror
      have hafter : after = _ := s.scan_of_error engine limits canceled before index herror
      rw [hafter]
      refine ⟨rfl, ?_⟩
      rw [Metrics.under_record, if_pos rfl]
      rfl

/-- Reports the rules 5 and 2. -/
def reportTwo : Code :=
  .plain (.i32Const 5) <| .plain (.call HostFunction.ruleMatch.index) <|
  .plain (.i32Const 2) <| .plain (.call HostFunction.ruleMatch.index) .done

/-- Two scanners, of which one reports two rules and the other traps after its reports. -/
def steadyAndFaulty (steady : Bool) : Scanner :=
  if steady then ⟨⟨"steady", false, false⟩, ⟨none, 8, 0⟩, .ofBody "" [] reportTwo⟩
  else ⟨⟨"faulty", false, false⟩, ⟨none, 8, 0⟩, .ofBody "" [] reportAndTrap⟩

/-- Both scan under their names; then the one that traps takes the name of the other, which takes a
name of its own. -/
def scanAndRename : List (ScannerAction Bool) :=
  [.scan true (.fresh .default) ⟨0, 0⟩ false none, .scan false (.fresh .default) ⟨0, 0⟩ false none,
   .setOptions false [.name "steady"], .scan false (.fresh .default) ⟨0, 0⟩ false none,
   .setOptions true [.name "renamed"], .scan true (.fresh .default) ⟨0, 0⟩ false none]

theorem counts_of_scanAndRename :
    let metrics := (performAll ⟨steadyAndFaulty, .zero⟩ scanAndRename).1.metrics
    metrics.scans = 4 ∧
    (metrics.under "steady").durations = 2 ∧ (metrics.under "steady").errors = 1 ∧
    (metrics.under "steady").matched.getD 0 = 2 ∧
    (metrics.under "faulty").durations = 1 ∧ (metrics.under "faulty").errors = 1 ∧
    (metrics.under "faulty").matched.getD 0 = 0 ∧
    (metrics.under "renamed").durations = 1 ∧ (metrics.under "renamed").errors = 0 ∧
    (metrics.under "renamed").matched.getD 0 = 2 := by
  intro metrics
  have hsteady : (Engine.fresh .default).execute ⟨0, 0⟩ false (.ofBody "" [] reportTwo) (.new 8 none) =
      (.ok (), (ScanState.new 8 none).ruleMatchAll [5, 2]) :=
    Engine.execute_ofBody rfl ⟨0, 0⟩ "" [] reportTwo (.new 8 none)
  have hfaulty : ((Engine.fresh .default).execute ⟨0, 0⟩ false (.ofBody "" [] reportAndTrap)
      (.new 8 none)).1 = .error (.halted (.trap .unreachable)) :=
    congrArg Prod.fst (Engine.execute_ofBody rfl ⟨0, 0⟩ "" [] reportAndTrap (.new 8 none))
  have hmade : (performAll ⟨steadyAndFaulty, .zero⟩ scanAndRename).2 =
      [⟨"steady", .ok ((ScanState.new 8 none).ruleMatchAll [5, 2])⟩,
       ⟨"faulty", .error ⟨"faulty", .halted (.trap .unreachable)⟩⟩,
       ⟨"steady", .error ⟨"steady", .halted (.trap .unreachable)⟩⟩,
       ⟨"renamed", .ok ((ScanState.new 8 none).ruleMatchAll [5, 2])⟩] := by
    have hstate (name : String) (metrics : Metrics) := Scanner.scan_of_ok
      ⟨⟨name, false, false⟩, ⟨none, 8, 0⟩, .ofBody "" [] reportTwo⟩ _ _ _ metrics _ hsteady
    have herror (name : String) (metrics : Metrics) := Scanner.scan_of_error
      ⟨⟨name, false, false⟩, ⟨none, 8, 0⟩, .ofBody "" [] reportAndTrap⟩ _ _ _ metrics _ hfaulty
    simp [scanAndRename, performAll, perform, steadyAndFaulty, Scanner.setOptions,
      ScannerSettings.applyAll, ScannerSettings.apply, hstate, herror, Scanner.name]
  obtain ⟨_, hscans, _, _, _, hcounts, _⟩ := counts_of_made_scans steadyAndFaulty scanAndRename
  simp only [hmade] at hscans hcounts
  obtain ⟨hd₁, he₁, hm₁⟩ := hcounts "steady"
  obtain ⟨hd₂, he₂, hm₂⟩ := hcounts "faulty"
  obtain ⟨hd₃, he₃, hm₃⟩ := hcounts "renamed"
  exact ⟨hscans, hd₁, he₁, hm₁, hd₂, he₂, hm₂, hd₃, he₃, hm₃⟩

end Scanners

end RuleScan
