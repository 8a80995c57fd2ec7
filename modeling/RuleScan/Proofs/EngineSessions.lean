import RuleScan.Engine.Session
import RuleScan.Proofs.EngineHistory

/-!
# The engine of a session

Three kinds of steps change the engine of a session: compiling, setting options and closing. The
compilations of a session, each with its result, are the history that its engine has been through.
-/
namespace RuleScan.Session

variable {s : Session}

@[simp]
theorem performAll_nil (limits : Limits) (s : Session) : s.performAll limits [] = (s, []) := rfl

@[simp]
theorem performAll_cons (limits : Limits) (s : Session) (step : SessionStep)
    (steps : List SessionStep) :
    s.performAll limits (step :: steps) =
      (((s.perform limits step).1.performAll limits steps).1,
        (s.perform limits step).2 :: ((s.perform limits step).1.performAll limits steps).2) := rfl

theorem keepModule_engine (s : Session) (name : String) (built : Except BuildError Module) :
    (s.keepModule name built).1.engine = s.engine := by
  cases built <;> rfl

/-- What a step does to the engine. -/
theorem perform_engine (limits : Limits) (s : Session) (step : SessionStep) :
    (s.perform limits step).1.engine =
      match step with
      | .compile module _ => (s.engine.compile (s.modules.lookup module)).1
      | .setOptions options => (s.engine.setOptions options).1
      | .close => s.engine.close
      | _ => s.engine := by
  cases step with
  | build name is => exact keepModule_engine s name _
  | rules name rules =>
    simp only [perform]
    split
    · exact keepModule_engine s name _
    · rfl
  | define name layout => exact keepModule_engine s name _
  | compile module name =>
    simp only [perform]
    split <;> rfl
  | context name numRules index => rfl
  | run executable context canceled =>
    simp only [perform]
    split <;> rfl
  | setOptions options =>
    simp only [perform]
    split <;> simp [*]
  | close => rfl

/-- The module that a step compiles, if any. -/
def subject? (s : Session) : SessionStep → Option Module
  | .compile module _ => s.modules.lookup module
  | _ => none

/-- The modules that the steps compile, each with the result, in the order of the steps. -/
def compilations (limits : Limits) (s : Session) :
    List SessionStep → List (Module × Except CompileError Executable)
  | [] => []
  | step :: steps =>
    (s.subject? step).toList.map (fun m => (m, (s.engine.compile (some m)).2)) ++
      (s.perform limits step).1.compilations limits steps

theorem map_fst_compilations_cons (limits : Limits) (s : Session) (step : SessionStep)
    (steps : List SessionStep) :
    (s.compilations limits (step :: steps)).map (·.1) =
      (s.subject? step).toList ++ ((s.perform limits step).1.compilations limits steps).map (·.1) := by
  simp only [compilations, List.map_append, List.map_map, Function.comp_def, List.map_id']

/-- A step leads the engine on by the module that it compiles. -/
theorem perform_reached {history : List Module} (h : s.engine.Reached history) (limits : Limits)
    (step : SessionStep) :
    (s.perform limits step).1.engine.Reached ((s.subject? step).toList ++ history) := by
  rw [perform_engine]
  cases step with
  | compile module name =>
    simp only [subject?]
    cases s.modules.lookup module with
    | none => exact h
    | some m => exact h.compile m
  | setOptions options => exact h.setOptions options
  | close => exact h.close
  | build | rules | define | context | run => exact h

/-- A session leads the engine on by the modules that it compiles. -/
theorem performAll_reached {history : List Module} (h : s.engine.Reached history) (limits : Limits)
    (steps : List SessionStep) : ∃ later, (s.performAll limits steps).1.engine.Reached later := by
  induction steps generalizing s history with
  | nil => exact ⟨history, h⟩
  | cons step steps ih => exact ih (perform_reached h limits step)

/-- The engine is closed by a step that closes it, and stays closed. -/
theorem perform_closed (limits : Limits) (s : Session) (step : SessionStep) :
    (s.perform limits step).1.engine.closed = true ↔ s.engine.closed = true ∨ step = .close := by
  rw [perform_engine]
  cases step with
  | compile module name =>
    rw [(Engine.compile_keeps s.engine (s.modules.lookup module)).1]
    simp
  | close => simp [Engine.close]
  | setOptions | build | rules | define | context | run => simp [Engine.setOptions]

theorem performAll_closed (limits : Limits) (s : Session) (steps : List SessionStep) :
    (s.performAll limits steps).1.engine.closed = true ↔
      s.engine.closed = true ∨ .close ∈ steps := by
  induction steps generalizing s with
  | nil => simp
  | cons step steps ih =>
    rw [performAll_cons, ih, perform_closed, List.mem_cons, or_assoc, eq_comm (a := step)]

end RuleScan.Session
