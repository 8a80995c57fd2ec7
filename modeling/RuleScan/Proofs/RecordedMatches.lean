import RuleScan.Proofs.IndexHistory
import RuleScan.Proofs.ModuleReports

/-!
# Runs see the recorded matches

Two indexes that record the same matches answer every query alike, whatever numbers of patterns they
were made for and however their matches were added. Without an index no match is recorded. A run
therefore gives the same over both.
-/
namespace RuleScan

/-- Indexes that record the same matches answer alike. -/
theorem PatternSource.Agrees.of_recorded {a b : IndexOrigin}
    (h : ∀ p, p ∈ a.recorded ↔ p ∈ b.recorded) : a.source.Agrees b.source := by
  have ha := a.answers
  have hb := b.answers
  constructor
  · intro id
    rw [Bool.eq_iff_iff, ha.matched, hb.matched]
    simp only [h]
  · intro id offset
    rw [Bool.eq_iff_iff, ha.matchedAt, hb.matchedAt]
    simp only [h]
  · intro id lower upper
    rw [Bool.eq_iff_iff, ha.matchedIn, hb.matchedIn]
    simp only [h]

/-- A run of a compiled module sees an index only through the matches that it records. On new scans
over two indexes that record the same matches, it ends within the same limits, and if it ends it has
the same result and sets and lists the same rules. The bound on the call depth has to be the same, unless
the module has only one function of its own. -/
theorem Engine.runs_see_recorded_matches {history : List Module} {e : Engine}
    (hreached : e.Reached history) {m : Option Module} {x : Executable}
    (hcompile : (e.compile m).2 = .ok x) (numRules : Int) {a b : IndexOrigin}
    (hsame : ∀ p, p ∈ a.recorded ↔ p ∈ b.recorded) :
    (∀ limits, x.EndsWithin limits (.new numRules a.source) ↔
      x.EndsWithin limits (.new numRules b.source)) ∧
    ∀ (calls calls' : Nat) (r r' : Except RunError Unit) (after after' : ScanState),
      x.SameCalls calls calls' → x.RunsTo calls (.new numRules a.source) r after →
      x.RunsTo calls' (.new numRules b.source) r' after' →
        r' = r ∧ after'.matching = after.matching ∧ after'.reported = after.reported := by
  have hagrees : a.source.Agrees b.source := .of_recorded hsame
  have hrefl := PatternSource.Agrees.refl b.source
  constructor
  · intro limits
    exact ⟨fun h => h.of_agrees hagrees hrefl, fun h => h.of_agrees hrefl hagrees⟩
  · intro calls calls' r r' after after' hcalls hruns hruns'
    obtain ⟨result, ids, _, halike⟩ := (hreached.linked hcompile).runsTo_alike b.source calls
    obtain ⟨rfl, rfl⟩ := halike calls _ _ _ (.inl rfl) hagrees hruns
    obtain ⟨rfl, rfl⟩ := halike calls' _ _ _ hcalls hrefl hruns'
    have hother := ScanState.ruleMatchAll_withIndex (.new numRules a.source) b.source ids
    have hnew : ScanState.new numRules b.source =
      { ScanState.new numRules a.source with index := b.source } := rfl
    rw [hnew, hother]
    exact ⟨rfl, rfl, rfl⟩

/-- Reports rule 0 if pattern 3 has matched at the offset 7. -/
def reportMatchAt : Code :=
  .plain (.i32Const 3) <| .plain (.i64Const 7) <|
  .plain (.call HostFunction.isPatternMatchAt.index) <|
  .ifThen .void
    (.plain (.i32Const 0) <| .plain (.call HostFunction.ruleMatch.index) .done) .done

theorem Engine.runs_reportMatchAt :
    let a : IndexHistory := ⟨4, [(3, 7), (9, 1), (3, 7), (0, -1), (4, 2)]⟩
    let b : IndexHistory := ⟨5, [(3, -7), (3, 7)]⟩
    ∃ e x after after', Engine.new [] = .ok e ∧
      (e.compile (some (Module.ofCode reportMatchAt))).2 = .ok x ∧
      x.RunsTo 0 (.new 2 (IndexOrigin.filled a).source) (.ok ()) after ∧
      x.RunsTo 9 (.new 2 (IndexOrigin.filled b).source) (.ok ()) after' ∧
      after.reported = [0] ∧ after'.matching = after.matching ∧
      after'.reported = after.reported := by
  intro a b
  have hvalid : reportMatchAt.isValidBody mainScope = true := by decide
  have hnew : Engine.new [] = .ok (.fresh .default) := rfl
  have hx := (Engine.accepts_ofCode _ hvalid (by decide +kernel)).compile_new hnew
  have hrecorded : IndexOrigin.recorded (.filled a) = [(3, 7), (3, 7)] := by decide
  have hrecorded' : IndexOrigin.recorded (.filled b) = [(3, 7)] := by decide
  have hok : ∀ r : Returned, r.1.toOption = some [] → r = (.ok [], r.2) := by
    rintro ⟨_ | results, after⟩ hresult
    · contradiction
    · rw [← Option.some.inj hresult]
  have hinvoke := hok ((Instance.ofCode reportMatchAt).invoke 0 0 0 []
    (.new 2 (IndexOrigin.filled a).source)) (by decide +kernel)
  have hinvoke' := hok ((Instance.ofCode reportMatchAt).invoke 0 9 0 []
    (.new 2 (IndexOrigin.filled b).source)) (by decide +kernel)
  have ha := Executable.runsTo_ofBody ⟨0, 0⟩ hinvoke (by simp)
    (Module.ofCode reportMatchAt).hash (reportMatchAt.tokens.flatMap Token.bytes)
  have hb := Executable.runsTo_ofBody ⟨0, 9⟩ hinvoke' (by simp)
    (Module.ofCode reportMatchAt).hash (reportMatchAt.tokens.flatMap Token.bytes)
  obtain ⟨_, hsame⟩ := Engine.runs_see_recorded_matches (.new hnew) hx 2
    (a := .filled a) (b := .filled b) (by simp [hrecorded, hrecorded'])
  obtain ⟨_, hmatching, hreported⟩ := hsame 0 9 _ _ _ _ (.inr rfl) ha hb
  exact ⟨_, _, _, _, hnew, hx, ha, hb, by decide +kernel, hmatching, hreported⟩

end RuleScan
