import RuleScan.Engine.Basic
import RuleScan.Scanner.Metrics
import RuleScan.Scanner.RuleSet

/-!
Scanners: a rule set compiled on an engine, under a name. Each scan has a state of its own and is
counted under the name that the scanner has at the time.
-/
namespace RuleScan

/-- Where metrics are exported to. -/
inductive Registry where
  | working
  /-- A registry that refuses, for a reason. -/
  | failing (reason : String)
deriving DecidableEq, Repr

/-- What can be set on a scanner. -/
inductive ScannerOption where
  | name (n : String)
  /-- Logs the listing of the module. -/
  | logListing
  | logErrors
  | register (r : Registry)
deriving DecidableEq, Repr

/-- Why an option is refused. -/
inductive ScannerOptionError where
  | emptyName
  | registration (reason : String)
deriving DecidableEq, Repr

def ScannerOptionError.message : ScannerOptionError → String
  | emptyName => "empty scanner name"
  | registration reason => "registering scanner metrics: " ++ reason

/-- What the options say. The name is empty until one is given. -/
structure ScannerSettings where
  name : String
  logListing : Bool
  logErrors : Bool
deriving DecidableEq, Repr

namespace ScannerSettings

def default : ScannerSettings := ⟨"", false, false⟩

def apply (s : ScannerSettings) (m : Metrics) :
    ScannerOption → Except ScannerOptionError (ScannerSettings × Metrics)
  | .name n => if n = "" then .error .emptyName else .ok ({ s with name := n }, m)
  | .logListing => .ok ({ s with logListing := true }, m)
  | .logErrors => .ok ({ s with logErrors := true }, m)
  | .register .working => .ok (s, { m with registered := true })
  | .register (.failing reason) => .error (.registration reason)

/-- Applies options in turn, up to the first that is refused; those before it stay applied. -/
def applyAll (s : ScannerSettings) (m : Metrics) :
    List ScannerOption → ScannerSettings × Metrics × Option ScannerOptionError
  | [] => (s, m, none)
  | o :: os =>
    match s.apply m o with
    | .ok (t, n) => t.applyAll n os
    | .error e => (s, m, some e)

end ScannerSettings

/-- Why a scanner cannot be created. -/
inductive ScannerError where
  | noEngine
  | rules (e : RuleSetError)
  | option (e : ScannerOptionError)
  | compile (name : String) (e : CompileError)
deriving DecidableEq, Repr

def ScannerError.message : ScannerError → String
  | noEngine => "New needs an engine"
  | rules e => e.message
  | option e => e.message
  | compile name e => "compiling rule set " ++ name ++ ": " ++ e.message

/-- Why a scan failed, and under which name it was made. -/
structure ScanError where
  name : String
  cause : RunError
deriving DecidableEq, Repr

def ScanError.message (e : ScanError) : String := "scan with " ++ e.name ++ ": " ++ e.cause.message

/-- A scanner. -/
structure Scanner where
  settings : ScannerSettings
  rules : RuleSet
  executable : Executable
deriving DecidableEq, Repr

namespace Scanner

def name (s : Scanner) : String := s.settings.name

/-- Creates a scanner for a rule set on an engine, and gives the engine and the metrics after it.
Without a name the scanner is called by the hash of its module. -/
def new (engine : Engine) (rules : RuleSet) (options : List ScannerOption) (metrics : Metrics) :
    Except ScannerError Scanner × Engine × Metrics :=
  match rules.validate with
  | .error e => (.error (.rules e), engine, metrics)
  | .ok m =>
    match ScannerSettings.default.applyAll metrics options with
    | (_, metrics, some e) => (.error (.option e), engine, metrics)
    | (s, metrics, none) =>
      let settings := if s.name = "" then { s with name := m.shortHash } else s
      match engine.compile (some m) with
      | (engine, .ok x) => (.ok ⟨settings, rules, x⟩, engine, metrics)
      | (engine, .error e) => (.error (.compile settings.name e), engine, metrics)

def new? (engine : Option Engine) (rules : RuleSet) (options : List ScannerOption)
    (metrics : Metrics) : Except ScannerError Scanner × Option Engine × Metrics :=
  match engine with
  | none => (.error .noEngine, none, metrics)
  | some e =>
    let (result, e, metrics) := new e rules options metrics
    (result, some e, metrics)

def setOptions (s : Scanner) (metrics : Metrics) (options : List ScannerOption) :
    Scanner × Metrics × Option ScannerOptionError :=
  let (settings, metrics, error) := s.settings.applyAll metrics options
  ({ s with settings := settings }, metrics, error)

/-- One scan, on behalf of someone who may have canceled it. It is counted before its run and timed
after it, whether it fails or not. -/
def scan (s : Scanner) (engine : Engine) (limits : Limits) (canceled : Bool) (metrics : Metrics)
    (index : PatternSource) : Except ScanError ScanState × Metrics :=
  let metrics := metrics.countScan
  match engine.execute limits canceled s.executable (ScanState.new s.rules.numRules index) with
  | (.ok _, state) =>
    (.ok state, (metrics.addMatches s.name state.reported.length).observeDuration s.name)
  | (.error e, _) => (.error ⟨s.name, e⟩, (metrics.countError s.name).observeDuration s.name)

def scanAll (s : Scanner) (engine : Engine) (limits : Limits) (metrics : Metrics) :
    List PatternSource → List (Except ScanError ScanState) × Metrics
  | [] => ([], metrics)
  | index :: rest =>
    let (result, metrics) := s.scan engine limits false metrics index
    let (results, metrics) := s.scanAll engine limits metrics rest
    (result :: results, metrics)

end Scanner

end RuleScan
