import RuleScan.Condition.Code
import RuleScan.Module.Basic
import RuleScan.Module.Body

/-!
The module builder. Instructions and rules are added to the body of the main function until the
module is built. Building uses the builder up, whether it succeeds or not; the sequence of
instructions can still be extended by who kept it, without an effect on the module.
-/
namespace RuleScan

/-- Why a module cannot be built. -/
inductive BuildError where
  /-- The builder was never set up. -/
  | notSetUp
  | finalized
  /-- The body has a misuse after the given number of instructions. -/
  | misuse (position : Nat) (m : Misuse)
  | openBlocks (count : Nat)
  /-- The instruction at the given place has no encoding. -/
  | encoding (position : Nat) (e : EncodeError)
deriving DecidableEq, Repr

def BuildError.message : BuildError → String
  | notSetUp => "module builder not created with NewModuleBuilder"
  | finalized => "module builder already finalized"
  | misuse n m => "invalid main function: instruction " ++ toString n ++ ": " ++ m.message
  | openBlocks n => "invalid main function: " ++ toString n ++ " blocks left open"
  | encoding n e => "encoding instruction " ++ toString n ++ ": " ++ e.message

namespace Body

/-- The encoding of the instructions of a body, or the first one without an encoding. -/
def encode (b : Body) : Except BuildError (List UInt8) := do
  let parts ← b.program.toList.zipIdx.mapM fun (i, n) => i.encode.mapError (.encoding n)
  return parts.flatten

/-- Closes a body: there must be no misuse, no open block, and an encoding of each instruction. -/
def close (b : Body) : Except BuildError (List UInt8) :=
  match b.misuse with
  | some (n, m) => .error (.misuse n m)
  | none => if b.depth ≠ 0 then .error (.openBlocks b.depth) else b.encode

end Body

/-- What a builder can be used for. -/
inductive Phase where
  /-- It was never set up. -/
  | notSetUp
  | drafting
  /-- A module was built, or failed to build. -/
  | finalized
deriving DecidableEq, Repr

/-- A module builder. -/
structure Builder where
  phase : Phase
  symbols : Symbols
  body : Body
deriving DecidableEq, Repr

/-- The builder has no main function to add to. -/
inductive Unusable where
  | unusable
deriving DecidableEq, Repr

def Unusable.message : Unusable → String
  | unusable => "wasm: MainFn called on a finalized or uninitialized ModuleBuilder"

namespace Builder

def new : Builder := ⟨.drafting, .standard, .empty⟩

/-- A builder that was never set up. -/
def blank : Builder := ⟨.notSetUp, .unset, .empty⟩

def emit (b : Builder) (is : List Instr) : Except Unusable Builder :=
  match b.phase with
  | .drafting => .ok { b with body := b.body.emitAll is }
  | _ => .error .unusable

/-- Adds instructions to a sequence that was kept, which is possible also after the module was
built. -/
def emitKept (b : Builder) (is : List Instr) : Builder := { b with body := b.body.emitAll is }

/-- Adds the code of the rules that have no fault, and gives the errors of the others. -/
def addRules (b : Builder) (rules : List Rule) : Except Unusable (Builder × List RuleError) := do
  let sound := rules.filter fun r => r.faults.isEmpty
  let next ← b.emit (sound.flatMap Rule.program)
  return (next, rules.flatMap Rule.errors)

def build (b : Builder) : Builder × Except BuildError Module :=
  match b.phase with
  | .notSetUp => (b, .error .notSetUp)
  | .finalized => (b, .error .finalized)
  | .drafting =>
    let result := b.body.close.map fun bytes =>
      Module.ofLayout (Module.layoutOf bytes) b.body.program.toList b.symbols
    ({ b with phase := .finalized }, result)

/-- What is done with a builder. -/
inductive Operation where
  | emit (is : List Instr)
  | emitKept (is : List Instr)
  | symbols
  | addRules (rules : List Rule)
  | build
deriving DecidableEq, Repr

/-- What an operation answers. -/
inductive Answer where
  /-- The main function after an emission. -/
  | emitted (size depth : Nat)
  | unusable
  | symbols (s : Symbols)
  /-- The main function after rules were added, and their errors. -/
  | added (size depth : Nat) (errors : List RuleError)
  | built (m : Module)
  | failed (e : BuildError)
deriving DecidableEq, Repr

def perform (b : Builder) : Operation → Builder × Answer
  | .emit is =>
    match b.emit is with
    | .ok c => (c, .emitted c.body.size c.body.depth)
    | .error _ => (b, .unusable)
  | .emitKept is =>
    let c := b.emitKept is
    (c, .emitted c.body.size c.body.depth)
  | .symbols => (b, .symbols b.symbols)
  | .addRules rules =>
    match b.addRules rules with
    | .ok (c, errors) => (c, .added c.body.size c.body.depth errors)
    | .error _ => (b, .unusable)
  | .build =>
    match b.build with
    | (c, .ok m) => (c, .built m)
    | (c, .error e) => (c, .failed e)

def performAll (b : Builder) : List Operation → Builder × List Answer
  | [] => (b, [])
  | op :: ops =>
    let (c, a) := b.perform op
    let (d, as) := c.performAll ops
    (d, a :: as)

end Builder

/-- The module of hand-written instructions. -/
def Module.ofInstrs (is : List Instr) : Except BuildError Module :=
  ({ Builder.new with body := Body.empty.emitAll is }).build.2

/-- The module of rules, and their errors. The module has the code of the rules without fault. -/
def Module.ofRules (rules : List Rule) : Except BuildError Module × List RuleError :=
  match Builder.new.addRules rules with
  | .ok (b, errors) => (b.build.2, errors)
  | .error _ => (.error .finalized, [])

end RuleScan
