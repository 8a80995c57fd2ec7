import RuleScan.Proofs.LinkedModules

/-!
# What a module reports

A run that ends, on an engine that is open and not canceled, calls what is to be run as the module is
instantiated, and then the main function. Each call takes the same path over all scans whose indexes
answer alike, and the same path with more loop rounds if it ends. So for each bound on the call depth
all such runs over one index have one result and make one list of reports, whatever was reported before
and however many rules there are. If the module has only one function of its own, the bound on the
depth does not matter either.
-/
namespace RuleScan

/-! ### What runs as a module is instantiated -/

namespace Instance

variable {m : Instance} {limits limits' : Limits} {index : PatternSource}

/-- None of the functions, run in turn, uses up its rounds. -/
def StartEnds (m : Instance) (limits : Limits) : List Nat → ScanState → Prop
  | [], _ => True
  | i :: rest, scan => (m.run limits i scan).1 ≠ .error .unfinished ∧
      ∀ results after, m.run limits i scan = (.ok results, after) → StartEnds m limits rest after

/-- A start that does not succeed has failed in one of its functions. -/
theorem start_error {fs : List Nat} {scan after : ScanState} {err : RunError}
    (h : Engine.start limits false m fs scan = (.error err, after)) :
    err = .instantiation ∧ fs ≠ [] := by
  induction fs generalizing scan with
  | nil =>
    obtain ⟨hresult, _⟩ := Prod.mk.inj h
    contradiction
  | cons i fs ih =>
    refine ⟨?_, List.cons_ne_nil _ _⟩
    simp only [Engine.start, Bool.false_and] at h
    split at h
    · contradiction
    · split at h
      · exact (ih h).1
      · exact (Except.error.inj (Prod.mk.inj h).1).symm

theorem start_congr (h : ∀ i scan, m.run limits' i scan = m.run limits i scan) (fs : List Nat)
    (scan : ScanState) :
    Engine.start limits' false m fs scan = Engine.start limits false m fs scan := by
  induction fs generalizing scan with
  | nil => rfl
  | cons i fs ih => simp only [Engine.start, h, ih]

theorem StartEnds.congr (h : ∀ i scan, m.run limits' i scan = m.run limits i scan) {fs : List Nat}
    {scan : ScanState} (hends : m.StartEnds limits fs scan) : m.StartEnds limits' fs scan := by
  induction fs generalizing scan with
  | nil => trivial
  | cons i fs ih =>
    obtain ⟨hfirst, hrest⟩ := hends
    refine ⟨by rwa [h], ?_⟩
    intro results after hrun
    rw [h] at hrun
    exact ih (hrest results after hrun)

/-- With more rounds, a start that ends is the same. -/
theorem StartEnds.more_rounds {rounds more calls : Nat} (hle : rounds ≤ more) {fs : List Nat}
    {scan : ScanState} (hends : m.StartEnds ⟨rounds, calls⟩ fs scan) :
    m.StartEnds ⟨more, calls⟩ fs scan ∧
      Engine.start ⟨more, calls⟩ false m fs scan = Engine.start ⟨rounds, calls⟩ false m fs scan := by
  induction fs generalizing scan with
  | nil => exact ⟨trivial, rfl⟩
  | cons i fs ih =>
    obtain ⟨hfirst, hrest⟩ := hends
    have hsame := m.run_more_rounds hle hfirst
    constructor
    · refine ⟨by rwa [hsame], ?_⟩
      intro results after hrun
      rw [hsame] at hrun
      exact (ih (hrest results after hrun)).1
    · simp only [Engine.start, Bool.false_and, hsame]
      cases hrun : m.run ⟨rounds, calls⟩ i scan with
      | mk result after =>
        cases result with
        | ok results => exact (ih (hrest results after hrun)).2
        | error h => rfl

theorem start_uniform (m : Instance) (limits : Limits) (fs : List Nat) :
    Uniform index (Engine.start limits false m fs) := by
  induction fs with
  | nil => exact .const _
  | cons i fs ih =>
    obtain ⟨a, ids, hrun⟩ : Uniform index (m.run limits i) := m.run_uniform limits i
    cases a with
    | error h =>
      refine ⟨.error .instantiation, ids, ?_⟩
      intro scan hscan
      simp only [Engine.start, Bool.false_and, hrun scan hscan]
      rfl
    | ok results =>
      -- The first function leaves a scan with the same index, so the rest is uniform after it.
      obtain ⟨b, more, hrest⟩ := ih
      refine ⟨b, ids ++ more, ?_⟩
      intro scan hscan
      rw [ScanState.ruleMatchAll_append, ← hrest _ (hscan.ruleMatchAll ids)]
      simp only [Engine.start, Bool.false_and, hrun scan hscan]
      rfl

theorem StartEnds.of_agrees {fs : List Nat} {scan other : ScanState}
    (h : m.StartEnds limits fs scan) (hscan : scan.index.Agrees index)
    (hother : other.index.Agrees index) : m.StartEnds limits fs other := by
  induction fs generalizing scan other with
  | nil => trivial
  | cons i fs ih =>
    obtain ⟨hfirst, hrest⟩ := h
    obtain ⟨a, ids, hrun⟩ : Uniform index (m.run limits i) := m.run_uniform limits i
    rw [hrun scan hscan] at hfirst
    refine ⟨by rwa [hrun other hother], ?_⟩
    intro results after hafter
    obtain ⟨rfl, rfl⟩ := Prod.mk.inj ((hrun other hother).symm.trans hafter)
    exact ih (hrest results _ (hrun scan hscan)) (hscan.ruleMatchAll ids) (hother.ruleMatchAll ids)

end Instance

/-! ### Whole runs -/

namespace Executable

/-- What a run does on an engine that is open, if it is not canceled. -/
def execution (x : Executable) (limits : Limits) (scan : ScanState) :
    Except RunError Unit × ScanState :=
  match x.instantiate? with
  | none => (.error .instantiation, scan)
  | some m =>
    match Engine.start limits false m (Engine.startFunctions x) scan with
    | (.error err, after) => (.error err, after)
    | (.ok _, after) => Engine.runMain limits x m after

/-- Neither what runs at instantiation nor the main function after it uses up its rounds. -/
def EndsWithin (x : Executable) (limits : Limits) (scan : ScanState) : Prop :=
  ∀ m, x.instantiate? = some m → m.StartEnds limits (Engine.startFunctions x) scan ∧
    ∀ after, Engine.start limits false m (Engine.startFunctions x) scan = (.ok (), after) →
      (Engine.runMain limits x m after).1 ≠ .error (.halted .unfinished)

/-- A run of the executable on the scan, by some engine that is open and not canceled, has ended with
the given result, and has left the other scan. The run may have been given any number of loop rounds,
and calls to the given depth. -/
def RunsTo (x : Executable) (calls : Nat) (scan : ScanState) (result : Except RunError Unit)
    (after : ScanState) : Prop :=
  ∃ (e : Engine) (rounds : Nat) (canceled : Bool), e.closed = false ∧
    (canceled && e.created.closeOnDone) = false ∧ x.EndsWithin ⟨rounds, calls⟩ scan ∧
    e.run ⟨rounds, calls⟩ canceled (some x) (some scan) = (result, some after)

/-- The two bounds on the call depth are the same, or the module has only one function of its own. -/
def SameCalls (x : Executable) (calls calls' : Nat) : Prop := calls' = calls ∨ x.own.length = 1

/-- Nothing can fail as the module is instantiated: it imports functions only, its data fits in its
memory, and no function runs then. -/
structure StartsFreely (x : Executable) : Prop where
  imports : ∀ i ∈ x.layout.imports, ∃ t, i.kind = .function t
  data : x.layout.dataFits = true
  start : Engine.startFunctions x = []

/-- Success or a trap; for some modules also a failed instantiation. -/
def PossibleResult (x : Executable) (result : Except RunError Unit) : Prop :=
  result = .ok () ∨ (∃ t, result = .error (.halted (.trap t))) ∨
    result = .error .instantiation ∧ ¬ x.StartsFreely

end Executable

theorem Engine.execute_eq_execution {e : Engine} {canceled : Bool} (hopen : e.closed = false)
    (hgo : (canceled && e.created.closeOnDone) = false) (limits : Limits) (x : Executable)
    (scan : ScanState) : e.execute limits canceled x scan = x.execution limits scan := by
  simp only [execute, hopen, hgo, Executable.execution]
  rfl

theorem Engine.run_eq_execution {e : Engine} {canceled : Bool} (hopen : e.closed = false)
    (hgo : (canceled && e.created.closeOnDone) = false) (limits : Limits) (x : Executable)
    (scan : ScanState) : e.run limits canceled (some x) (some scan) =
      ((x.execution limits scan).1, some (x.execution limits scan).2) := by
  rw [run, execute_eq_execution hopen hgo]

namespace Executable

variable {x : Executable} {m : Instance} {index : PatternSource}

theorem all_isFunction {l : Layout} : l.imports.all Import.isFunction = true ↔
    ∀ i ∈ l.imports, ∃ t, i.kind = .function t := by
  rw [List.all_eq_true]
  refine forall₂_congr fun i _ => ?_
  unfold Import.isFunction
  cases i.kind <;> simp

theorem Linked.not_startsFreely (h : x.Linked) (hm : x.instantiate? = none) : ¬ x.StartsFreely := by
  intro hfree
  obtain ⟨m, hsome⟩ := h.exists_instance (all_isFunction.mpr hfree.imports) hfree.data
  rw [hm] at hsome
  contradiction

/-- The main function of a linked executable is one of the module's own functions. -/
theorem Linked.runMain_eq (h : x.Linked) (hm : x.instantiate? = some m) :
    ∃ n f, m.own[n]? = some f ∧ f.type = mainType ∧ ∀ limits scan,
      Engine.runMain limits x m scan =
        (((m.invoke limits.rounds limits.calls n [] scan).1.mapError RunError.halted).map fun _ => (),
          (m.invoke limits.rounds limits.calls n [] scan).2) := by
  obtain ⟨main, n, f, hexport, hmain, hf, htype⟩ := h.main hm
  refine ⟨n, f, hf, htype, ?_⟩
  intro limits scan
  have hrun : m.run limits main scan = m.invoke limits.rounds limits.calls n [] scan := by
    simp only [Instance.run, hmain]
    rfl
  simp only [Engine.runMain, hexport, hrun]
  obtain ⟨result, after⟩ := m.invoke limits.rounds limits.calls n [] scan
  cases result <;> rfl

/-- A main function that ends succeeds or traps. -/
theorem Linked.runMain_result (h : x.Linked) (hm : x.instantiate? = some m) {limits : Limits}
    {scan : ScanState} (hends : (Engine.runMain limits x m scan).1 ≠ .error (.halted .unfinished)) :
    (Engine.runMain limits x m scan).1 = .ok () ∨
      ∃ t, (Engine.runMain limits x m scan).1 = .error (.halted (.trap t)) := by
  obtain ⟨n, f, hf, htype, hmain⟩ := h.runMain_eq hm
  have hargs : ([] : List Value).map Value.type = f.type.params := by
    rw [htype]
    rfl
  have htyped := (h.valid_instance hm).invoke_typed limits.rounds limits.calls hf hargs scan
  unfold Returned.Typed at htyped
  simp only [hmain] at hends ⊢
  cases hresult : (m.invoke limits.rounds limits.calls n [] scan).1 with
  | ok results => exact .inl rfl
  | error halt =>
    rw [hresult] at htyped hends
    cases halt with
    | trap t => exact .inr ⟨t, rfl⟩
    | stuck => exact absurd rfl htyped
    | unfinished => exact absurd rfl hends

/-- A run that ends has one of the possible results. -/
theorem Linked.possibleResult (h : x.Linked) {limits : Limits} {scan : ScanState}
    (hends : x.EndsWithin limits scan) : x.PossibleResult (x.execution limits scan).1 := by
  unfold execution
  cases hm : x.instantiate? with
  | none => exact .inr (.inr ⟨rfl, h.not_startsFreely hm⟩)
  | some m =>
    cases hstart : Engine.start limits false m (Engine.startFunctions x) scan with
    | mk result after =>
      cases result with
      | error err =>
        obtain ⟨rfl, hne⟩ := Instance.start_error hstart
        exact .inr (.inr ⟨by simp only [hstart], fun hfree => hne hfree.start⟩)
      | ok u =>
        simp only [hstart]
        rcases h.runMain_result hm ((hends m hm).2 after hstart) with hok | htrap
        · exact .inl hok
        · exact .inr (.inl htrap)

/-! ### More rounds, and calls to another depth -/

theorem runMain_more_rounds {rounds more calls : Nat} (hle : rounds ≤ more) {scan : ScanState}
    (hends : (Engine.runMain ⟨rounds, calls⟩ x m scan).1 ≠ .error (.halted .unfinished)) :
    Engine.runMain ⟨more, calls⟩ x m scan = Engine.runMain ⟨rounds, calls⟩ x m scan := by
  unfold Engine.runMain at hends ⊢
  cases hmain : x.exported? mainName with
  | none => rfl
  | some i =>
    simp only [hmain] at hends ⊢
    have hrun : (m.run ⟨rounds, calls⟩ i scan).1 ≠ .error .unfinished := by
      intro hunfinished
      refine hends ?_
      cases hresult : m.run ⟨rounds, calls⟩ i scan with
      | mk result after =>
        rw [hresult] at hunfinished
        obtain rfl : result = .error .unfinished := hunfinished
        rfl
    rw [m.run_more_rounds hle hrun]

/-- With more rounds, a run that ends is the same. -/
theorem EndsWithin.more_rounds {rounds more calls : Nat} (hle : rounds ≤ more) {scan : ScanState}
    (hends : x.EndsWithin ⟨rounds, calls⟩ scan) :
    x.execution ⟨more, calls⟩ scan = x.execution ⟨rounds, calls⟩ scan := by
  unfold execution
  cases hm : x.instantiate? with
  | none => rfl
  | some m =>
    obtain ⟨hstart, hmain⟩ := hends m hm
    simp only [(hstart.more_rounds hle).2]
    cases hresult : Engine.start ⟨rounds, calls⟩ false m (Engine.startFunctions x) scan with
    | mk result after =>
      cases result with
      | error err => rfl
      | ok u => exact runMain_more_rounds hle (hmain after hresult)

/-- To whatever depth its function may call itself, a run of a module with one function is the same. -/
theorem Linked.same_calls (h : x.Linked) {calls calls' : Nat} (hcalls : x.SameCalls calls calls')
    (rounds : Nat) (scan : ScanState) :
    x.execution ⟨rounds, calls'⟩ scan = x.execution ⟨rounds, calls⟩ scan ∧
      (x.EndsWithin ⟨rounds, calls'⟩ scan → x.EndsWithin ⟨rounds, calls⟩ scan) := by
  rcases hcalls with rfl | hsingle
  · exact ⟨rfl, id⟩
  · have hrun {m : Instance} (hm : x.instantiate? = some m) (c c' i : Nat) (scan : ScanState) :
        m.run ⟨rounds, c'⟩ i scan = m.run ⟨rounds, c⟩ i scan :=
      Instance.run_calls (h.own_of_single hsingle hm) rounds c' c i scan
    constructor
    · unfold execution
      cases hm : x.instantiate? with
      | none => rfl
      | some m =>
        simp only [Instance.start_congr (hrun hm calls calls'), Engine.runMain, hrun hm calls calls']
    · intro hends m hm
      obtain ⟨hstart, hmain⟩ := hends m hm
      refine ⟨hstart.congr (hrun hm calls' calls), ?_⟩
      intro after hafter
      rw [Instance.start_congr (hrun hm calls' calls)] at hafter
      have hne := hmain after hafter
      simp only [Engine.runMain, hrun hm calls calls'] at hne ⊢
      exact hne

/-! ### Scans whose indexes answer alike -/

theorem runMain_uniform (limits : Limits) (x : Executable) (m : Instance) :
    Uniform index (Engine.runMain limits x m) := by
  unfold Engine.runMain
  split
  · exact .const _
  · rename_i i _
    obtain ⟨a, ids, hrun⟩ : Uniform index (m.run limits i) := m.run_uniform limits i
    refine ⟨(a.mapError RunError.halted).map fun _ => (), ids, ?_⟩
    intro scan hscan
    simp only [hrun scan hscan]
    cases a <;> rfl

theorem execution_uniform (x : Executable) (limits : Limits) : Uniform index (x.execution limits) := by
  unfold execution
  cases x.instantiate? with
  | none => exact .const _
  | some m =>
    obtain ⟨a, ids, hstart⟩ : Uniform index _ := m.start_uniform limits (Engine.startFunctions x)
    cases a with
    | error err =>
      refine ⟨.error err, ids, ?_⟩
      intro scan hscan
      simp only [hstart scan hscan]
    | ok u =>
      obtain ⟨b, more, hmain⟩ : Uniform index _ := runMain_uniform limits x m
      refine ⟨b, ids ++ more, ?_⟩
      intro scan hscan
      rw [ScanState.ruleMatchAll_append, ← hmain _ (hscan.ruleMatchAll ids)]
      simp only [hstart scan hscan]

/-- Whether a run ends within its limits is a matter of what the index answers. -/
theorem EndsWithin.of_agrees {limits : Limits} {scan other : ScanState}
    (h : x.EndsWithin limits scan) (hscan : scan.index.Agrees index)
    (hother : other.index.Agrees index) : x.EndsWithin limits other := by
  intro m hm
  obtain ⟨hstart, hmain⟩ := h m hm
  refine ⟨hstart.of_agrees hscan hother, ?_⟩
  intro after hafter
  obtain ⟨a, ids, hrun⟩ : Uniform index _ := m.start_uniform limits (Engine.startFunctions x)
  obtain ⟨b, more, hrest⟩ : Uniform index _ := runMain_uniform limits x m
  obtain ⟨rfl, rfl⟩ := Prod.mk.inj ((hrun other hother).symm.trans hafter)
  have hne := hmain _ (hrun scan hscan)
  rw [hrest _ (hscan.ruleMatchAll ids)] at hne
  rwa [hrest _ (hother.ruleMatchAll ids)]

/-- Over the scans whose indexes answer alike, all runs that end have one result and make one list of
reports. -/
theorem Linked.execution_alike (h : x.Linked) (index : PatternSource) (calls : Nat) :
    ∃ (result : Except RunError Unit) (ids : List RuleId), x.PossibleResult result ∧
      ∀ (calls' rounds : Nat) (scan : ScanState), x.SameCalls calls calls' →
        scan.index.Agrees index → x.EndsWithin ⟨rounds, calls'⟩ scan →
          x.execution ⟨rounds, calls'⟩ scan = (result, scan.ruleMatchAll ids) := by
  by_cases hsome : ∃ (rounds : Nat) (scan : ScanState), scan.index.Agrees index ∧
      x.EndsWithin ⟨rounds, calls⟩ scan
  · obtain ⟨first, start, hstart, hends⟩ := hsome
    obtain ⟨result, ids, huniform⟩ : Uniform index (x.execution ⟨first, calls⟩) :=
      x.execution_uniform ⟨first, calls⟩
    refine ⟨result, ids, ?_, ?_⟩
    · have hpossible := h.possibleResult hends
      rwa [huniform start hstart] at hpossible
    · intro calls' rounds scan hcalls hscan hscanEnds
      obtain ⟨hsame, hendsToo⟩ := h.same_calls hcalls rounds scan
      -- Both runs are the same as the one with the larger number of rounds.
      have hmost := (hendsToo hscanEnds).more_rounds (Nat.le_max_left rounds first)
      have hmost' := (hends.of_agrees hstart hscan).more_rounds (Nat.le_max_right rounds first)
      rw [hsame, ← hmost, hmost', huniform scan hscan]
  · -- No run ends, so any result will do.
    refine ⟨.ok (), [], .inl rfl, ?_⟩
    intro calls' rounds scan hcalls hscan hends
    exact absurd ⟨rounds, scan, hscan, (h.same_calls hcalls rounds scan).2 hends⟩ hsome

/-- Over the scans whose indexes answer alike, a run that has ended has one result and has made one
list of reports. -/
theorem Linked.runsTo_alike (h : x.Linked) (index : PatternSource) (calls : Nat) :
    ∃ (result : Except RunError Unit) (ids : List RuleId), x.PossibleResult result ∧
      ∀ (calls' : Nat) (scan : ScanState) (r : Except RunError Unit) (after : ScanState),
        x.SameCalls calls calls' → scan.index.Agrees index → x.RunsTo calls' scan r after →
          r = result ∧ after = scan.ruleMatchAll ids := by
  obtain ⟨result, ids, hpossible, halike⟩ := h.execution_alike index calls
  refine ⟨result, ids, hpossible, ?_⟩
  rintro calls' scan r after hcalls hscan ⟨e, rounds, canceled, hopen, hgo, hends, hrun⟩
  rw [Engine.run_eq_execution hopen hgo, halike calls' rounds scan hcalls hscan hends] at hrun
  obtain ⟨rfl, hafter⟩ := Prod.mk.inj hrun
  exact ⟨rfl, (Option.some.inj hafter).symm⟩

/-- A built module runs nothing at its instantiation, so its run is a call of its main function. -/
theorem runsTo_ofBody {code : Code} (limits : Limits) {scan after : ScanState}
    {result : Except Halt (List Value)}
    (h : (Instance.ofCode code).invoke limits.rounds limits.calls 0 [] scan = (result, after))
    (hends : result ≠ .error .unfinished) (hash : String) (bytes : List UInt8) :
    (ofBody hash bytes code).RunsTo limits.calls scan
      ((result.mapError RunError.halted).map fun _ => ()) after := by
  have hopen : (Engine.fresh .default).closed = false := rfl
  have hrun : (Engine.fresh .default).run limits false (some (ofBody hash bytes code)) (some scan) =
      ((result.mapError RunError.halted).map fun _ => (), some after) := by
    simp only [Engine.run, Engine.execute_ofBody hopen, h]
  refine ⟨.fresh .default, limits.rounds, false, hopen, rfl, ?_, hrun⟩
  intro m hm
  obtain rfl : Instance.ofCode code = m := Option.some.inj hm
  have hstart : Engine.startFunctions (ofBody hash bytes code) = [] := rfl
  rw [hstart]
  refine ⟨trivial, ?_⟩
  intro later hlater
  obtain ⟨_, rfl⟩ := Prod.mk.inj hlater
  have hmain : Engine.runMain limits (ofBody hash bytes code) (Instance.ofCode code) scan =
      ((result.mapError RunError.halted).map fun _ => (), after) := by
    have hexport : (ofBody hash bytes code).exported? mainName = some 4 := rfl
    have hcall : (Instance.ofCode code).run limits 4 scan = (result, after) := h
    simp only [Engine.runMain, hexport, hcall]
    cases result <;> rfl
  rw [hmain]
  cases result with
  | ok results =>
    intro heq
    contradiction
  | error halt =>
    intro heq
    exact hends (congrArg Except.error (RunError.halted.inj (Except.error.inj heq)))

end Executable

/-- What a compiled module reports does not depend on what was reported before or on the number of
rules. For each index, and each bound on the call depth, there are one result and one list of rules,
such that every run that ends has the result and reports the rules in turn; whether it ends is a matter
of its limits and the index. The result is success, a trap or, only for a module that does not start
freely, a failed instantiation. A second run on the same scan ends too, has the same result and changes
nothing. A new scan of fewer rules records, of what a new scan of more rules records, that which is
about its rules. -/
theorem Engine.reports_ignore_matches {history : List Module} {e : Engine}
    (hreached : e.Reached history) {m : Option Module} {x : Executable}
    (hcompile : (e.compile m).2 = .ok x) (index : PatternSource) (calls : Nat) :
    ∃ (result : Except RunError Unit) (ids : List RuleId), x.PossibleResult result ∧
      (∀ (limits : Limits) (scan other : ScanState), scan.index = index → other.index = index →
        x.EndsWithin limits scan → x.EndsWithin limits other) ∧
      (∀ (calls' : Nat) (scan : ScanState) (r : Except RunError Unit) (after : ScanState),
        x.SameCalls calls calls' → scan.index = index → x.RunsTo calls' scan r after →
          r = result ∧ after = scan.ruleMatchAll ids ∧ x.RunsTo calls' after r after ∧
          ∀ (r' : Except RunError Unit) (after' : ScanState), x.RunsTo calls' after r' after' →
            r' = r ∧ after' = after) ∧
      ∀ (calls' calls'' : Nat) (n n' : Int) (r r' : Except RunError Unit) (small large : ScanState),
        x.SameCalls calls calls' → x.SameCalls calls calls'' → n ≤ n' →
        x.RunsTo calls' (.new n index) r small → x.RunsTo calls'' (.new n' index) r' large →
          small.reported = large.reported.filter (fun id => id.toInt < n) ∧
          ∀ i < n.toNat, small.matching.getD i false = large.matching.getD i false := by
  obtain ⟨result, ids, hpossible, halike⟩ := (hreached.linked hcompile).runsTo_alike index calls
  have hsame (calls' : Nat) (scan : ScanState) (r : Except RunError Unit) (after : ScanState)
      (hcalls : x.SameCalls calls calls') (hscan : scan.index = index)
      (hruns : x.RunsTo calls' scan r after) : r = result ∧ after = scan.ruleMatchAll ids :=
    halike calls' scan r after hcalls (hscan ▸ .refl scan.index) hruns
  refine ⟨result, ids, hpossible, ?_, ?_, ?_⟩
  · intro limits scan other hscan hother hends
    exact hends.of_agrees (.refl scan.index) (hscan.trans hother.symm ▸ .refl other.index)
  · intro calls' scan r after hcalls hscan hruns
    obtain ⟨rfl, rfl⟩ := hsame calls' scan r after hcalls hscan hruns
    have hindex : (scan.ruleMatchAll ids).index = index := by rw [ScanState.ruleMatchAll_index, hscan]
    have hagain : ∀ r' after', x.RunsTo calls' (scan.ruleMatchAll ids) r' after' →
        r' = r ∧ after' = scan.ruleMatchAll ids := by
      intro r' after' hruns'
      obtain ⟨hr, hafter⟩ := hsame calls' _ r' after' hcalls hindex hruns'
      exact ⟨hr, by rw [hafter, ScanState.ruleMatchAll_twice]⟩
    refine ⟨rfl, rfl, ?_, hagain⟩
    obtain ⟨e', rounds, canceled, hopen, hgo, hends, _⟩ := hruns
    have hends' := hends.of_agrees (.refl scan.index)
      ((PatternSource.Agrees.refl scan.index).ruleMatchAll ids)
    have hrun := Engine.run_eq_execution hopen hgo ⟨rounds, calls'⟩ x (scan.ruleMatchAll ids)
    obtain ⟨hr, hafter⟩ := hagain _ _ ⟨e', rounds, canceled, hopen, hgo, hends', hrun⟩
    rw [hr, hafter] at hrun
    exact ⟨e', rounds, canceled, hopen, hgo, hends', hrun⟩
  · intro calls' calls'' n n' r r' small large hcalls hcalls' hle hsmall hlarge
    obtain ⟨_, rfl⟩ := hsame calls' _ r small hcalls rfl hsmall
    obtain ⟨_, rfl⟩ := hsame calls'' _ r' large hcalls' rfl hlarge
    exact ScanState.ruleMatchAll_fewer hle index ids

/-- Reports the rules 5, 2 and 5 again, and traps. -/
def reportAndTrap : Code :=
  .plain (.i32Const 5) <| .plain (.call HostFunction.ruleMatch.index) <|
  .plain (.i32Const 2) <| .plain (.call HostFunction.ruleMatch.index) <|
  .plain (.i32Const 5) <| .plain (.call HostFunction.ruleMatch.index) <|
  .plain .unreachable .done

theorem Engine.reports_of_reportAndTrap :
    ∃ e x small large, Engine.new [] = .ok e ∧
      (e.compile (some (Module.ofCode reportAndTrap))).2 = .ok x ∧
      x.RunsTo 0 (.new 3 none) (.error (.halted (.trap .unreachable))) small ∧
      x.RunsTo 9 (.new 8 none) (.error (.halted (.trap .unreachable))) large ∧
      large.reported = [5, 2] ∧
      small.reported = large.reported.filter (fun id => id.toInt < 3) ∧
      x.RunsTo 0 small (.error (.halted (.trap .unreachable))) small := by
  have hvalid : reportAndTrap.isValidBody mainScope = true := by decide
  have hnew : Engine.new [] = .ok (.fresh .default) := rfl
  have hx := (Engine.accepts_ofCode _ hvalid (by decide +kernel)).compile_new hnew
  obtain ⟨result, ids, _, _, htwice, hfewer⟩ :=
    Engine.reports_ignore_matches (.new hnew) hx none 0
  have hinvoke (n : Int) : (Instance.ofCode reportAndTrap).invoke 0 0 0 [] (.new n none) =
      (.error (.trap .unreachable), (ScanState.new n none).ruleMatchAll [5, 2, 5]) := rfl
  have hdeeper (n : Int) : (Instance.ofCode reportAndTrap).invoke 0 9 0 [] (.new n none) =
      (.error (.trap .unreachable), (ScanState.new n none).ruleMatchAll [5, 2, 5]) := rfl
  have hsmall := Executable.runsTo_ofBody ⟨0, 0⟩ (hinvoke 3) (by simp)
    (Module.ofCode reportAndTrap).hash (reportAndTrap.tokens.flatMap Token.bytes)
  have hlarge := Executable.runsTo_ofBody ⟨0, 9⟩ (hdeeper 8) (by simp)
    (Module.ofCode reportAndTrap).hash (reportAndTrap.tokens.flatMap Token.bytes)
  obtain ⟨_, _, hagain, _⟩ := htwice 0 _ _ _ (.inl rfl) rfl hsmall
  obtain ⟨hreported, _⟩ := hfewer 0 9 3 8 _ _ _ _ (.inl rfl) (.inr rfl) (by decide) hsmall hlarge
  exact ⟨_, _, _, _, hnew, hx, hsmall, hlarge, by decide, hreported, hagain⟩

/-- A module that does nothing and imports a memory. -/
def memoryModule : Module :=
  .ofLayout (.idle [("internal", "memory", none)] mainType [⟨mainName, .function 0⟩]) [] .unset

/-- A run of a module that imports a memory neither succeeds nor traps: the module compiles, and then
cannot be instantiated. -/
theorem Engine.reports_of_memoryModule :
    ∃ e x, Engine.new [] = .ok e ∧ (e.compile (some memoryModule)).2 = .ok x ∧
      ¬ ∃ (result : Except RunError Unit) (ids : List RuleId),
        (result = .ok () ∨ ∃ t, result = .error (.halted (.trap t))) ∧
        ∀ (scan : ScanState) (r : Except RunError Unit) (after : ScanState), scan.index = none →
          x.RunsTo 0 scan r after → r = result ∧ after = scan.ruleMatchAll ids := by
  let x : Executable := ⟨memoryModule.hash, .idle [("internal", "memory", none)] mainType
    [⟨mainName, .function 0⟩], [], [⟨mainType, [], .done⟩]⟩
  have hbinary : Executable.ofBinary? memoryModule.hash memoryModule.binary = some x := by
    simp only [Executable.ofBinary?, memoryModule, Module.ofLayout, Layout.decode_encode]
    rfl
  have hnew : Engine.new [] = .ok (.fresh .default) := rfl
  have haccepts : (Engine.fresh .default).Accepts memoryModule x := ⟨hbinary, rfl, rfl⟩
  have hx := haccepts.compile_new hnew
  have hends : x.EndsWithin ⟨0, 0⟩ (.new 2 none) := by
    intro m hm
    contradiction
  refine ⟨_, x, hnew, hx, ?_⟩
  rintro ⟨result, ids, hresult, hall⟩
  obtain ⟨rfl, _⟩ := hall (.new 2 none) (.error .instantiation) (.new 2 none) rfl
    ⟨.fresh .default, 0, false, rfl, rfl, hends, rfl⟩
  rcases hresult with hok | ⟨t, htrap⟩
  · contradiction
  · have hhalted := Except.error.inj htrap
    contradiction

end RuleScan
