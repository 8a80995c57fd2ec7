import RuleScan.Proofs.EngineHistory
import RuleScan.Proofs.TypeSoundness

/-!
# Runs of built modules

A module that was built and compiles has a valid body, whatever instructions it was built from. Its
run can trap or use up its loop rounds, and otherwise succeeds.
-/
namespace RuleScan

/-- An executable that an engine gives for a built module is that of a valid body. -/
theorem Engine.Reached.compile_built {e : Engine} {history : List Module} (h : e.Reached history)
    {b : Builder} {m : Module} (hbuild : b.build.2 = .ok m)
    (hdistinct : ∀ m' ∈ history, m'.hash = m.hash → m'.binary = m.binary) {x : Executable}
    (hcompile : (e.compile (some m)).2 = .ok x) :
    ∃ bytes code, code.isValidBody mainScope = true ∧ x = .ofBody m.hash bytes code := by
  obtain ⟨bytes, _, hm⟩ := Builder.build_ok hbuild
  have hbinary := (h.compile_ok hdistinct hcompile).valid
  have hlayout : m.binary = (Module.layoutOf bytes).encode := by
    rw [hm]
    rfl
  rw [hlayout] at hbinary
  obtain ⟨_, code, _, _, _, hvalid, hx⟩ := Executable.ofBinary?_layoutOf.mp hbinary
  exact ⟨bytes, code, hvalid, hx⟩

/-- A run of a built module never gets stuck. It succeeds, or fails in evaluating the rules: with a
trap, or because a loop has not ended within the rounds it was given. No host function fails when
it is called with arguments of its types, as it always is. -/
theorem Engine.run_never_stuck {b : Builder} {m : Module} (hbuild : b.build.2 = .ok m)
    {history : List Module} {e : Engine} (hreached : e.Reached history)
    (hdistinct : ∀ m' ∈ history, m'.hash = m.hash → m'.binary = m.binary) {x : Executable}
    (hcompile : (e.compile (some m)).2 = .ok x) {later : Engine} (hopen : later.closed = false)
    (limits : Limits) (scan : ScanState) :
    (∀ (h : HostFunction) (args : List Value) (s : ScanState),
      args.map Value.type = h.type.params → ∃ results, (h.invoke args s).1 = .ok results ∧
        results.map Value.type = h.type.results) ∧
    ∃ after, later.run limits false (some x) (some scan) = (.ok (), some after) ∨
      (∃ t : Trap, later.run limits false (some x) (some scan) =
          (.error (.halted (.trap t)), some after) ∧
        (RunError.halted (.trap t)).message = "evaluating rule conditions: " ++ t.message) ∨
      later.run limits false (some x) (some scan) = (.error (.halted .unfinished), some after) := by
  constructor
  · intro h args s hargs
    obtain ⟨results, after, hinvoke, hresults⟩ := h.invoke_ok hargs s
    exact ⟨results, by rw [hinvoke], hresults⟩
  · obtain ⟨bytes, code, hvalid, rfl⟩ := hreached.compile_built hbuild hdistinct hcompile
    have htyped := Instance.invoke_typed hvalid limits.rounds limits.calls scan
    simp only [Engine.run, Engine.execute_ofBody hopen]
    generalize (Instance.ofCode code).invoke limits.rounds limits.calls 0 [] scan = returned at htyped ⊢
    obtain ⟨result, after⟩ := returned
    refine ⟨after, ?_⟩
    cases result with
    | ok results => exact .inl rfl
    | error h =>
      cases h with
      | trap t => exact .inr (.inl ⟨t, rfl, rfl⟩)
      | unfinished => exact .inr (.inr rfl)
      | stuck => exact absurd rfl htyped

/-- A loop that carries a value and queries the host in each round, and then a call of the main
function itself. -/
def queryForever : Code :=
  .plain (.i32Const 5) <|
  .loop (.index HostFunction.isPatternMatch.index)
    (.plain (.call HostFunction.isPatternMatch.index) <| .plain (.localTee 1) <|
      .plain (.localGet 1) <| .plain (.brIf 0) .done) <|
  .plain .drop <| .plain (.call Module.mainIndex) .done

theorem Engine.run_queryForever :
    ∃ b m e x after, Builder.new.emit queryForever.instrs = .ok b ∧ b.build.2 = .ok m ∧
      Engine.new [] = .ok e ∧ (e.compile (some m)).2 = .ok x ∧
      (e.run ⟨3, 7⟩ false (some x) (some (.new 1 none)) = (.ok (), some after) ∨
        (∃ t : Trap, e.run ⟨3, 7⟩ false (some x) (some (.new 1 none)) =
            (.error (.halted (.trap t)), some after) ∧
          (RunError.halted (.trap t)).message = "evaluating rule conditions: " ++ t.message) ∨
        e.run ⟨3, 7⟩ false (some x) (some (.new 1 none)) =
          (.error (.halted .unfinished), some after)) := by
  have hvalid : queryForever.isValidBody mainScope = true := by decide
  obtain ⟨last, hcheck, _⟩ := Code.check_of_isValidBody hvalid
  have hemit : Builder.new.emit queryForever.instrs =
      .ok { Builder.new with body := Body.empty.extend queryForever.instrs } := by
    have happends : Body.empty.Appends queryForever.instrs :=
      Code.appends_instrs hcheck (Nat.le_refl 1)
    rw [← happends]
    rfl
  have hbuild := Code.build_extend queryForever
  have hnew : Engine.new [] = .ok ⟨.default, .default, .empty 16, false, 0, 0⟩ := rfl
  have hopen : (⟨.default, .default, .empty 16, false, 0, 0⟩ : Engine).closed = false := rfl
  obtain ⟨x, hx⟩ := (Engine.accepts_ofCode _ hvalid (by decide +kernel)).compile hopen
  obtain ⟨_, after, hrun⟩ := Engine.run_never_stuck hbuild (.new hnew) (by simp) hx hopen ⟨3, 7⟩
    (.new 1 none)
  exact ⟨_, _, _, x, after, hemit, hbuild, hnew, hx, hrun⟩

end RuleScan
