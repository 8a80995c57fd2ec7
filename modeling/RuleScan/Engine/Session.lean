import RuleScan.Engine.Basic
import RuleScan.Module.Builder

/-!
Sessions with an engine: modules, executables and scans are kept by name, and steps refer to them
by their names.
-/
namespace RuleScan

/-- A step of a session. -/
inductive SessionStep where
  /-- Builds a module of instructions. -/
  | build (name : String) (is : List Instr)
  /-- Builds a module of rules. -/
  | rules (name : String) (rules : List Rule)
  /-- Takes a module as it is. -/
  | define (name : String) (layout : Layout)
  | compile (module name : String)
  /-- Starts a scan. -/
  | context (name : String) (numRules : Int) (index : PatternSource)
  | run (executable context : String) (canceled : Bool)
  | setOptions (options : List EngineOption)
  | close

/-- What a step answers. -/
inductive SessionAnswer where
  | ok
  | buildFailed (e : BuildError)
  | rulesRefused (errors : List RuleError)
  /-- How often the cache was hit and missed, and the executable. -/
  | compiled (hits misses : Nat) (result : Except CompileError Executable)
  | context (state : ScanState)
  | ran (result : Except RunError Unit) (state : Option ScanState)
  | optionRefused (e : EngineOptionError)

/-- An engine and what is kept by name. -/
structure Session where
  engine : Engine
  modules : List (String × Module)
  executables : List (String × Executable)
  contexts : List (String × ScanState)

namespace Session

def start (e : Engine) : Session := ⟨e, [], [], []⟩

def keepModule (s : Session) (name : String) (built : Except BuildError Module) :
    Session × SessionAnswer :=
  match built with
  | .ok m => ({ s with modules := (name, m) :: s.modules }, .ok)
  | .error e => (s, .buildFailed e)

def perform (limits : Limits) (s : Session) : SessionStep → Session × SessionAnswer
  | .build name is => s.keepModule name (Module.ofInstrs is)
  | .rules name rules =>
    match Module.ofRules rules with
    | (built, []) => s.keepModule name built
    | (_, errors) => (s, .rulesRefused errors)
  | .define name layout => s.keepModule name (.ok (Module.ofLayout layout [] .unset))
  | .compile module name =>
    let (e, result) := s.engine.compile (s.modules.lookup module)
    let answer := .compiled (e.hits - s.engine.hits) (e.misses - s.engine.misses) result
    match result with
    | .ok x => ({ s with engine := e, executables := (name, x) :: s.executables }, answer)
    | .error _ => ({ s with engine := e }, answer)
  | .context name numRules index =>
    let state := ScanState.new numRules index
    ({ s with contexts := (name, state) :: s.contexts }, .context state)
  | .run executable context canceled =>
    let (result, state) := s.engine.run limits canceled (s.executables.lookup executable)
      (s.contexts.lookup context)
    let answer := .ran result state
    match state with
    | some st => ({ s with contexts := (context, st) :: s.contexts }, answer)
    | none => (s, answer)
  | .setOptions options =>
    match s.engine.setOptions options with
    | (e, none) => ({ s with engine := e }, .ok)
    | (e, some error) => ({ s with engine := e }, .optionRefused error)
  | .close => ({ s with engine := s.engine.close }, .ok)

def performAll (limits : Limits) (s : Session) : List SessionStep → Session × List SessionAnswer
  | [] => (s, [])
  | step :: steps =>
    let (t, a) := s.perform limits step
    let (u, as) := t.performAll limits steps
    (u, a :: as)

end Session

end RuleScan
