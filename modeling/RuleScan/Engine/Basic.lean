import RuleScan.Engine.Cache
import RuleScan.Engine.Executable
import RuleScan.Module.Basic

/-!
The engine: it compiles modules into executables, of which it keeps the most recently used ones,
and runs them on the state of a scan. Some options take effect only when the engine is created.
-/
namespace RuleScan

/-- What can be set on an engine. -/
inductive EngineOption where
  | interpreter
  | memoryLimit (pages : Nat)
  | cacheSize (size : Int)
  /-- A run ends when whoever asked for it cancels it. -/
  | closeOnDone
deriving DecidableEq, Repr

/-- Why an option is refused. -/
inductive EngineOptionError where
  | memoryLimit (pages : Nat)
  | cacheSize (size : Int)
deriving DecidableEq, Repr

def EngineOptionError.message : EngineOptionError → String
  | memoryLimit n => "memory limit of " ++ toString n ++ " pages out of range"
  | cacheSize n => "cache size must be positive, got " ++ toString n

/-- What the options say. -/
structure EngineSettings where
  /-- Whether code is interpreted. It gives the same either way. -/
  interpreter : Bool
  memoryLimit : Option Nat
  cacheSize : Nat
  closeOnDone : Bool
deriving DecidableEq, Repr

namespace EngineSettings

def default : EngineSettings := ⟨false, none, 16, false⟩

def apply (s : EngineSettings) : EngineOption → Except EngineOptionError EngineSettings
  | .interpreter => .ok { s with interpreter := true }
  | .memoryLimit n =>
    if n = 0 ∨ maxPages < n then .error (.memoryLimit n) else .ok { s with memoryLimit := some n }
  | .cacheSize n =>
    if n ≤ 0 then .error (.cacheSize n) else .ok { s with cacheSize := n.toNat }
  | .closeOnDone => .ok { s with closeOnDone := true }

/-- Applies options in turn, up to the first that is refused; those before it stay applied. -/
def applyAll (s : EngineSettings) : List EngineOption → EngineSettings × Option EngineOptionError
  | [] => (s, none)
  | o :: os =>
    match s.apply o with
    | .ok t => t.applyAll os
    | .error e => (s, some e)

end EngineSettings

/-- Why a module does not compile. -/
inductive CompileError where
  | noModule
  /-- The module is not valid, or the engine is closed. -/
  | refused
  | link (e : LinkError)
deriving DecidableEq, Repr

def CompileError.message : CompileError → String
  | noModule => "nil module"
  | refused => "compiling module"
  | link e => e.message

/-- Why a run does not succeed. -/
inductive RunError where
  /-- There is no executable or no scan to run it on. -/
  | noSubject
  /-- The module cannot be instantiated, or the engine is closed. -/
  | instantiation
  | noMain
  /-- The run was canceled before what runs at instantiation. -/
  | startCanceled
  /-- The run was canceled before the main function. -/
  | canceled
  | halted (h : Halt)
deriving DecidableEq, Repr

def Halt.message : Halt → String
  | trap t => t.message
  | stuck => "no operand, local, label or function as needed"
  | unfinished => "out of loop rounds"

def RunError.message : RunError → String
  | noSubject => "Run needs an executable and a scan context"
  | instantiation => "instantiating module"
  | noMain => LinkError.noMain.message
  | startCanceled => "instantiating module: module closed with context canceled"
  | canceled => "evaluating rule conditions: module closed with context canceled"
  | halted h => "evaluating rule conditions: " ++ h.message

/-- The name under which a module exports what runs as it is instantiated. -/
def startName : String := "_start"

/-- An engine. -/
structure Engine where
  /-- The settings as they were when the engine was created. -/
  created : EngineSettings
  /-- The settings with the options set since. -/
  settings : EngineSettings
  cache : Cache String Executable
  closed : Bool
  hits : Nat
  misses : Nat
deriving DecidableEq, Repr

namespace Engine

def new (options : List EngineOption) : Except EngineOptionError Engine :=
  match EngineSettings.default.applyAll options with
  | (_, some e) => .error e
  | (s, none) => .ok ⟨s, s, .empty s.cacheSize, false, 0, 0⟩

/-- Sets options. The size of the cache, the limit on memories and the handling of cancellation stay as
created. -/
def setOptions (e : Engine) (options : List EngineOption) : Engine × Option EngineOptionError :=
  let (s, error) := e.settings.applyAll options
  ({ e with settings := s }, error)

/-- The most pages that a memory may start with. -/
def pageLimit (e : Engine) : Nat := e.created.memoryLimit.getD maxPages

/-- Compiles a module that is not in the cache. -/
def compileFresh (e : Engine) (m : Module) : Except CompileError Executable :=
  if e.closed then .error .refused
  else match Executable.ofBinary? m.hash m.binary with
    | none => .error .refused
    | some x =>
      if x.layout.memoriesWithin e.pageLimit then
        (x.checkLinks.mapError CompileError.link).map fun _ => x
      else .error .refused

/-- Compiles a module, or takes its executable from the cache. Failures are not kept. -/
def compile (e : Engine) (m : Option Module) : Engine × Except CompileError Executable :=
  match m with
  | none => (e, .error .noModule)
  | some m =>
    match e.cache.find? m.hash with
    | some x => ({ e with cache := e.cache.use m.hash x, hits := e.hits + 1 }, .ok x)
    | none =>
      let missed := { e with misses := e.misses + 1 }
      match e.compileFresh m with
      | .ok x => ({ missed with cache := e.cache.use m.hash x }, .ok x)
      | .error err => (missed, .error err)

/-- The functions that run as a module is instantiated: the one that it declares, and the one that it
exports for this. -/
def startFunctions (x : Executable) : List Nat :=
  x.layout.start.toList ++ (x.exported? startName).toList

/-- Runs functions in turn as a module is instantiated. A function that takes parameters is refused;
any other is not run if the run is canceled. -/
def start (limits : Limits) (canceled : Bool) (m : Instance) :
    List Nat → ScanState → Except RunError Unit × ScanState
  | [], scan => (.ok (), scan)
  | i :: rest, scan =>
    if canceled && m.runnable i then (.error .startCanceled, scan)
    else match m.run limits i scan with
    | (.ok _, after) => start limits canceled m rest after
    | (.error _, after) => (.error .instantiation, after)

def runMain (limits : Limits) (x : Executable) (m : Instance) (scan : ScanState) :
    Except RunError Unit × ScanState :=
  match x.exported? mainName with
  | none => (.error .noMain, scan)
  | some i =>
    match m.run limits i scan with
    | (.ok _, after) => (.ok (), after)
    | (.error h, after) => (.error (.halted h), after)

/-- Runs an executable on the state of a scan. Rules that were reported before an error stay
reported. -/
def execute (e : Engine) (limits : Limits) (canceled : Bool) (x : Executable) (scan : ScanState) :
    Except RunError Unit × ScanState :=
  let stopped := canceled && e.created.closeOnDone
  if e.closed then (.error .instantiation, scan)
  else match x.instantiate? with
    | none => (.error .instantiation, scan)
    | some m =>
      match start limits stopped m (startFunctions x) scan with
      | (.error err, after) => (.error err, after)
      | (.ok _, after) =>
        if stopped then (.error .canceled, after)
        else runMain limits x m after

/-- Runs an executable on a scan, if there are both. -/
def run (e : Engine) (limits : Limits) (canceled : Bool) (x : Option Executable)
    (scan : Option ScanState) : Except RunError Unit × Option ScanState :=
  match x, scan with
  | some x, some scan =>
    let (result, after) := e.execute limits canceled x scan
    (result, some after)
  | _, _ => (.error .noSubject, scan)

/-- Closes the engine and forgets its executables. -/
def close (e : Engine) : Engine := { e with cache := e.cache.clear, closed := true }

end Engine

end RuleScan
