import RuleScan.Proofs.EngineHistory
import RuleScan.Proofs.GeneratedExecution
import RuleScan.Proofs.IndexHistory
import RuleScan.Proofs.RuleModules
import RuleScan.Proofs.ScanReports
import RuleScan.Scanner.Basic

/-!
# A scan reports the rules that hold

Rules that make a rule set are all well typed, so the module has the code of each of them. A scanner
runs that module on the state of a new scan, which then holds the numbers of the rules that the
evaluator finds to hold.
-/
namespace RuleScan

/-! ### Rule sets -/

theorem Rule.errors_eq_nil {rules : List Rule} :
    rules.flatMap Rule.errors = [] ↔ ∀ r ∈ rules, r.faults = [] := by
  simp [Rule.errors]

theorem Rule.emitted_eq_self {rules : List Rule} (h : ∀ r ∈ rules, r.faults = []) :
    Rule.emitted rules = rules := by
  apply List.filter_eq_self.mpr
  intro r hr
  simp [h r hr]

/-- What rules have to satisfy to make a rule set. -/
structure Rule.Sound (count : Nat) (r : Rule) : Prop where
  faults : r.faults = []
  id_lt : r.id.toInt < count

theorem Rule.Sound.id_nonneg {count : Nat} {r : Rule} (h : r.Sound count) : 0 ≤ r.id.toInt := by
  have hid := (Rule.faults_eq_nil.mp h.faults).1
  have hzero : (0 : Int32).toInt = 0 := rfl
  rw [Int32.lt_iff_toInt_lt] at hid
  omega

theorem Rule.Sound.hasType {count : Nat} {r : Rule} (h : r.Sound count) :
    HasType r.condition .bool := (Rule.faults_eq_nil.mp h.faults).2

/-- Rules make a rule set exactly if they are sound, and then it has the module of all of them. -/
theorem RuleSet.ofRules_eq_ok {rules : List Rule} {numPatterns : Int} {compiled : RuleSet} :
    RuleSet.ofRules rules numPatterns = .ok compiled ↔ (∀ r ∈ rules, r.Sound rules.length) ∧
      compiled = ⟨some (Module.ofCode (Rule.codeAll rules .done)), rules.length, numPatterns⟩ := by
  rw [RuleSet.ofRules, Module.ofRules_eq]
  cases hfind : rules.find? fun r => (rules.length : Int) ≤ r.id.toInt with
  | some r =>
    have hid : (rules.length : Int) ≤ r.id.toInt := by simpa using List.find?_some hfind
    have hmem := List.mem_of_find?_eq_some hfind
    constructor
    · intro h
      contradiction
    · rintro ⟨hsound, _⟩
      have hlt := (hsound r hmem).id_lt
      omega
  | none =>
    have hids : ∀ r ∈ rules, r.id.toInt < rules.length := by
      intro r hr
      have hnot := List.find?_eq_none.mp hfind r hr
      simp only [decide_eq_true_eq] at hnot
      omega
    cases herrors : rules.flatMap Rule.errors with
    | nil =>
      have hfaults := Rule.errors_eq_nil.mp herrors
      have hcode : Rule.emittedCode rules = Rule.codeAll rules .done := by
        rw [Rule.emittedCode, Rule.emitted_eq_self hfaults]
      simp only [hcode, Except.ok.injEq]
      constructor
      · rintro rfl
        exact ⟨fun r hr => ⟨hfaults r hr, hids r hr⟩, rfl⟩
      · rintro ⟨_, rfl⟩
        rfl
    | cons err errs =>
      constructor
      · intro h
        contradiction
      · rintro ⟨hsound, _⟩
        rw [Rule.errors_eq_nil.mpr fun r hr => (hsound r hr).faults] at herrors
        contradiction

/-! ### Scanners -/

theorem Scanner.new_ok {engine : Engine} {compiled : RuleSet} {m : Module}
    (hmodule : compiled.module = some m) {options : List ScannerOption} {metrics : Metrics} {s : Scanner}
    (h : (Scanner.new engine compiled options metrics).1 = .ok s) :
    s.rules = compiled ∧ (engine.compile (some m)).2 = .ok s.executable := by
  have hvalidate : ∀ m', compiled.validate = .ok m' → m' = m := by
    intro m' hm'
    simp only [RuleSet.validate, hmodule] at hm'
    split at hm'
    · contradiction
    · split at hm'
      · contradiction
      · exact (Except.ok.inj hm').symm
  unfold Scanner.new at h
  split at h
  · contradiction
  · rename_i m' hm'
    obtain rfl := hvalidate m' hm'
    split at h
    · contradiction
    · cases hcompile : engine.compile (some m') with
      | mk after result =>
        cases result with
        | error err => simp [hcompile] at h
        | ok x =>
          simp only [hcompile, Except.ok.injEq] at h
          rw [← h]
          exact ⟨rfl, rfl⟩

/-- Without options, a module that compiles makes a scanner. -/
theorem Scanner.new_of_compile {engine : Engine} {m : Module} {x : Executable}
    (hx : (engine.compile (some m)).2 = .ok x) (numRules numPatterns : Nat) (metrics : Metrics) :
    ∃ s, (Scanner.new engine ⟨some m, numRules, numPatterns⟩ [] metrics).1 = .ok s := by
  have hvalidate : RuleSet.validate ⟨some m, numRules, numPatterns⟩ = .ok m := by
    simp only [RuleSet.validate]
    rw [if_neg (by omega), if_neg (by omega)]
  simp only [Scanner.new, hvalidate, ScannerSettings.applyAll]
  cases hcompile : engine.compile (some m) with
  | mk after result =>
    rw [hcompile] at hx
    simp only at hx
    subst hx
    exact ⟨_, rfl⟩

/-- Calling the main function of rules reports those that hold, whatever the limits. -/
theorem Instance.invoke_codeAll {rules : List Rule} (h : ∀ r ∈ rules, HasType r.condition .bool)
    (rounds calls : Nat) (scan : ScanState) :
    (Instance.ofCode (Rule.codeAll rules .done)).invoke rounds calls 0 [] scan =
      (.ok [], Rule.reportAll scan rules) := by
  have hown (callOwn : Nat → List Value → ScanState → Returned) :
      (Instance.ofCode (Rule.codeAll rules .done)).runOwn rounds callOwn 0 [] scan =
        (.ok [], Rule.reportAll scan rules) := by
    obtain ⟨w, n, _, hrun⟩ := Rule.exec_codeAll h
      (Surroundings.hasHost_append mainTypes [.own 0 mainType] rounds callOwn) .done [] 0 0 0 scan
    have hexec : (Rule.codeAll rules .done).exec
        ⟨mainTypes, HostFunction.all.map .host ++ [.own 0 mainType], rounds, callOwn⟩
        ⟨[], [] ++ [.i64 0, .i32 0, .i32 0], scan⟩ = _ := hrun
    have hmain : (Instance.ofCode (Rule.codeAll rules .done)).own[0]? =
        some (.main (Rule.codeAll rules .done)) := rfl
    simp only [Instance.runOwn, hmain]
    exact congrArg (Outcome.returned 0) hexec
  cases calls with
  | zero => exact hown _
  | succ calls => exact hown _

/-- The code of rules has at least a token for each of them. -/
theorem Rule.length_le_tokens (rules : List Rule) :
    rules.length ≤ (Rule.codeAll rules .done).tokens.length := by
  induction rules with
  | nil => exact Nat.zero_le _
  | cons r rules ih =>
    have hcode : (Rule.codeAll (r :: rules) .done).tokens =
        (r.code (Rule.codeAll rules .done)).tokens := rfl
    simp only [hcode, Rule.code, Code.const32, Code.store, Code.tokens, List.length_cons,
      List.length_append]
    omega

theorem Rule.eval_of_sound {count : Nat} {r : Rule} (h : r.Sound count) (index : PatternSource) :
    (∃ b, r.condition.eval index = .ok (.bool b)) ∨
      r.condition.eval index = .error .exception := (h.hasType.evaluates index).bool

/-- A scan reports exactly the rules whose condition evaluates to true, in the order of the rules and
each number once, and sets exactly their bits, in a row that has one for each rule. It never fails, and
a condition either has a truth value or raises an exception, which keeps its own rule from being
reported. The index is any that answers the queries; one of recorded matches, whether they are missing
or not, answers by them. The engine may have compiled any modules before, of which none has the hash of
the rules' module and another binary. -/
theorem Scanner.scan_reports_rules_that_hold {rules : List Rule} {numPatterns : Int}
    {compiled : RuleSet} (hcompiled : RuleSet.ofRules rules numPatterns = .ok compiled)
    {history : List Module} {engine : Engine} (hreached : engine.Reached history)
    (hdistinct : ∀ m ∈ compiled.module, ∀ m' ∈ history, m'.hash = m.hash → m'.binary = m.binary)
    {options : List ScannerOption} {metrics : Metrics} {scanner : Scanner}
    (hnew : (Scanner.new engine compiled options metrics).1 = .ok scanner) {later : Engine}
    (hopen : later.closed = false) (limits : Limits) (counts : Metrics) (index : PatternSource) :
    (∀ r ∈ rules, (∃ b, r.condition.eval index = .ok (.bool b)) ∨
      r.condition.eval index = .error .exception) ∧
    (∀ origin : IndexOrigin, index = origin.source → index.Answers origin.recorded) ∧
    ∃ state, (scanner.scan later limits false counts index).1 = .ok state ∧
      state.reported = ((rules.filter (·.holds index)).map (·.id)).eraseDups ∧
      state.matching.size = rules.length ∧
      ∀ i : Nat, state.matching.test i = true ↔
        ∃ r ∈ rules, r.holds index = true ∧ r.id.toInt = i := by
  obtain ⟨hsound, rfl⟩ := RuleSet.ofRules_eq_ok.mp hcompiled
  have htyped : ∀ r ∈ rules, HasType r.condition .bool := fun r hr => (hsound r hr).hasType
  -- the scanner has the executable of the module of the rules
  obtain ⟨hrules, hcompile⟩ := Scanner.new_ok rfl hnew
  have haccepts := hreached.compile_ok (hdistinct _ rfl) hcompile
  obtain ⟨hbytes, hexecutable⟩ :=
    (Executable.ofBinary?_ofCode (Rule.isValidBody_codeAll htyped) _).mp haccepts.valid
  -- the run reports the rules that hold
  have hscan : (scanner.scan later limits false counts index).1 =
      .ok (Rule.reportAll (ScanState.new rules.length index) rules) := by
    simp only [Scanner.scan, hexecutable, hrules, Engine.execute_ofBody hopen,
      Instance.invoke_codeAll htyped]
    rfl
  have hindex : (ScanState.new rules.length index).index = index := rfl
  have hrange : ∀ id ∈ (rules.filter (·.holds index)).map (·.id),
      0 ≤ id.toInt ∧ id.toInt < (rules.length : Int) := by
    intro id hid
    obtain ⟨r, hr, rfl⟩ := List.mem_map.mp hid
    have hr := hsound r (List.mem_filter.mp hr).1
    exact ⟨hr.id_nonneg, hr.id_lt⟩
  -- a module that compiles has few enough rules for a row of bits
  have hfew : rules.length ≤ BitRow.maxBits := by
    have htokens := Rule.length_le_tokens rules
    have hlength := Token.length_le_bytes (Rule.codeAll rules .done).tokens
    have hmost : UInt32.size ≤ BitRow.maxBits := by decide
    omega
  have hrecords := (ScanState.records_new rules.length index).foldl_ruleMatch hrange
  rw [List.nil_append] at hrecords
  rw [Rule.reportAll_eq, hindex] at hscan
  refine ⟨fun r hr => Rule.eval_of_sound (hsound r hr) index,
    fun origin horigin => horigin ▸ origin.answers, _, hscan, hrecords.reported,
    hrecords.size_matching (fun id hid => (hrange id hid).2) hfew, ?_⟩
  intro i
  rw [hrecords.bit]
  simp only [List.mem_map, List.mem_filter]
  constructor
  · rintro ⟨_, ⟨r, ⟨hr, hholds⟩, rfl⟩, hi⟩
    exact ⟨r, hr, hholds, hi⟩
  · rintro ⟨r, hr, hholds, hi⟩
    exact ⟨_, ⟨r, ⟨hr, hholds⟩, rfl⟩, hi⟩

/-- Four rules: the second raises an exception, the third is decided before it would, and the last
has the number of the first. -/
def fourRules : List Rule :=
  let quotient := Condition.compare .eq (.arith .div (.int 1) (.int 0)) (.int 0)
  [⟨1, "range", .patternIn 0 (.int 1) (.int 5)⟩, ⟨0, "quotient", quotient⟩,
   ⟨2, "decided", .or (.bool true) quotient⟩, ⟨1, "again", .bool true⟩]

/-- An index of one pattern, which matched at the offset 5. -/
def onePattern : PatternSource :=
  some (MatchSource.patternIndex (some ((MatchIndex.ofSize 1).addAll [(0, 5)])))

theorem Scanner.scan_fourRules :
    ∃ compiled engine scanner state, RuleSet.ofRules fourRules 1 = .ok compiled ∧
      Engine.new [] = .ok engine ∧ (Scanner.new engine compiled [] .zero).1 = .ok scanner ∧
      (scanner.scan engine ⟨0, 0⟩ false .zero onePattern).1 = .ok state ∧
      state.reported = [1, 2] ∧ state.matching.size = 4 ∧
      state.matching.test 0 = false ∧ state.matching.test 2 = true := by
  have hsound : ∀ r ∈ fourRules, r.Sound fourRules.length := by
    have hall : ∀ r ∈ fourRules, r.faults = [] ∧ r.id.toInt < fourRules.length := by decide
    exact fun r hr => ⟨(hall r hr).1, (hall r hr).2⟩
  have hcompiled : RuleSet.ofRules fourRules 1 =
      .ok ⟨some (Module.ofCode (Rule.codeAll fourRules .done)), fourRules.length, 1⟩ :=
    RuleSet.ofRules_eq_ok.mpr ⟨hsound, rfl⟩
  have hbody := Rule.isValidBody_codeAll fun r hr => (hsound r hr).hasType
  have hfresh : Engine.new [] = .ok ⟨.default, .default, .empty 16, false, 0, 0⟩ := rfl
  have hopen : (⟨.default, .default, .empty 16, false, 0, 0⟩ : Engine).closed = false := rfl
  obtain ⟨x, hx⟩ := (Engine.accepts_ofCode _ hbody (by decide +kernel)).compile hopen
  obtain ⟨scanner, hnew⟩ := Scanner.new_of_compile hx fourRules.length 1 .zero
  obtain ⟨_, _, state, hscan, hreported, hsize, hbit⟩ := Scanner.scan_reports_rules_that_hold hcompiled
    (.new hfresh) (by simp) hnew hopen ⟨0, 0⟩ .zero onePattern
  refine ⟨_, _, scanner, state, hcompiled, hfresh, hnew, hscan, ?_, hsize, ?_, ?_⟩
  · rw [hreported]
    decide
  · rw [← Bool.not_eq_true, hbit]
    decide
  · rw [hbit]
    decide

end RuleScan
