import RuleScan.Bytecode.Code
import RuleScan.Host
import RuleScan.Machine.Value

/-!
Execution of code. Code runs on a frame: an operand stack, locals and the scan it serves. It falls
through, branches out of some blocks, returns, or halts. A block runs on its own operands only and
puts its results back on those below. Code that has not been validated can get stuck, which is an
outcome of its own; so is running out of the bound on loop rounds.
-/
namespace RuleScan

/-- What code runs on. -/
structure Frame where
  /-- The operands of the innermost block, the top first. -/
  stack : List Value
  locals : List Value
  scan : ScanState

/-- Why a run ends before its end. -/
inductive Halt where
  | trap (t : Trap)
  /-- An operand, a local, a label or a function is missing or of the wrong type. -/
  | stuck
  /-- A loop used up its rounds. -/
  | unfinished
deriving DecidableEq, Repr

/-- How a piece of code ends. -/
inductive Outcome where
  /-- By reaching its end. -/
  | next (f : Frame)
  /-- By a branch to the label at the given depth outside of it. -/
  | branch (depth : Nat) (f : Frame)
  /-- By returning from the function. -/
  | return_ (f : Frame)
  | halt (h : Halt) (scan : ScanState)

/-- What a call gives: the results in order or a halt, and the scan after it. -/
abbrev Returned := Except Halt (List Value) × ScanState

/-- A function that code can call. -/
inductive Callee where
  | host (h : HostFunction)
  /-- A function of the module itself, by its place among them. -/
  | own (place : Nat) (type : FuncType)
deriving DecidableEq, Repr

def Callee.type : Callee → FuncType
  | host h => h.type
  | own _ t => t

/-- What code runs in. -/
structure Surroundings where
  types : List FuncType
  functions : List Callee
  /-- How many rounds each loop may take. -/
  rounds : Nat
  /-- What a call of one of the module's own functions gives, on given arguments. -/
  callOwn : Nat → List Value → ScanState → Returned

/-- The topmost operands and those below; `none` if there are not as many. -/
def splitStack (n : Nat) (stack : List Value) : Option (List Value × List Value) :=
  if n ≤ stack.length then some (stack.take n, stack.drop n) else none

/-- The arguments of a call in the order of its parameters, and the operands below; `none` if they
are missing or of the wrong types. -/
def takeArguments (params : List ValType) (stack : List Value) :
    Option (List Value × List Value) := do
  let (top, below) ← splitStack params.length stack
  guard (top.reverse.map Value.type = params)
  return (top.reverse, below)

def HostFunction.invoke (h : HostFunction) (args : List Value) (scan : ScanState) : Returned :=
  let (slots, after) := h.serve scan (args.map Value.slot)
  match (h.type.results.zip slots).mapM fun (t, s) => Value.ofSlot? t s with
  | some results => (.ok results, after)
  | none => (.error .stuck, after)

namespace Surroundings

def call (e : Surroundings) (i : Nat) : Frame → Outcome
  | ⟨stack, locals, scan⟩ =>
    match e.functions[i]? with
    | none => .halt .stuck scan
    | some callee =>
      match takeArguments callee.type.params stack with
      | none => .halt .stuck scan
      | some (args, below) =>
        let returned := match callee with
          | .host h => h.invoke args scan
          | .own n _ => e.callOwn n args scan
        match returned with
        | (.ok results, after) => .next ⟨results.reverse ++ below, locals, after⟩
        | (.error h, after) => .halt h after

/-- Enters a block: its type, the frame with its parameters as operands, and the operands below. -/
def enter (e : Surroundings) (t : BlockType) (f : Frame) :
    Option (FuncType × Frame × List Value) := do
  let type ← t.resolve? e.types
  let (args, below) ← splitStack type.params.length f.stack
  return (type, { f with stack := args }, below)

end Surroundings

namespace Outcome

/-- Goes on after code that falls through; any other outcome stays as it is. -/
@[inline]
def andThen (o : Outcome) (rest : Frame → Outcome) : Outcome :=
  match o with
  | next f => rest f
  | branch n f => branch n f
  | return_ f => return_ f
  | halt h s => halt h s

/-- Leaves a block that has results of the given number: a fall-through keeps the operands of the
block, a branch to it keeps the topmost ones, and other branches lose one level. -/
def leave (arity : Nat) (below : List Value) : Outcome → Outcome
  | next f => next { f with stack := f.stack ++ below }
  | branch 0 f =>
    match splitStack arity f.stack with
    | some (top, _) => next { f with stack := top ++ below }
    | none => halt .stuck f.scan
  | branch (n + 1) f => branch n f
  | return_ f => return_ f
  | halt h s => halt h s

/-- Runs the body of a loop again for each branch to the loop, which carries operands of the given
number. -/
def again (run : Frame → Outcome) (arity : Nat) : Nat → Frame → Outcome
  | 0, f => halt .unfinished f.scan
  | rounds + 1, f =>
    match run f with
    | branch 0 g =>
      match splitStack arity g.stack with
      | some (top, _) => again run arity rounds { g with stack := top }
      | none => halt .stuck g.scan
    | next g => next g
    | branch (n + 1) g => branch (n + 1) g
    | return_ g => return_ g
    | halt h s => halt h s

/-- The end of a function with results of the given number. Its body is the outermost label. -/
def returned (arity : Nat) : Outcome → Returned
  | next f => results f
  | branch 0 f => results f
  | return_ f => results f
  | branch (_ + 1) f => (.error .stuck, f.scan)
  | halt h s => (.error h, s)
where
  /-- The topmost operands as results. -/
  results (f : Frame) : Returned :=
    match splitStack arity f.stack with
    | some (top, _) => (.ok top.reverse, f.scan)
    | none => (.error .stuck, f.scan)

end Outcome

def Plain.exec (e : Surroundings) (f : Frame) : Plain → Outcome
  | unreachable => .halt (.trap .unreachable) f.scan
  | nop => .next f
  | br d => .branch d f
  | brIf d =>
    match f.stack with
    | .i32 v :: s => if v = 0 then .next { f with stack := s } else .branch d { f with stack := s }
    | _ => .halt .stuck f.scan
  | return_ => .return_ f
  | call i => e.call i f
  | drop =>
    match f.stack with
    | _ :: s => .next { f with stack := s }
    | [] => .halt .stuck f.scan
  | select =>
    match f.stack with
    | .i32 v :: b :: a :: s => .next { f with stack := (if v = 0 then b else a) :: s }
    | _ => .halt .stuck f.scan
  | localGet i =>
    match f.locals[i]? with
    | some v => .next { f with stack := v :: f.stack }
    | none => .halt .stuck f.scan
  | localSet i =>
    match f.stack with
    | v :: s =>
      if i < f.locals.length then .next { f with stack := s, locals := f.locals.set i v }
      else .halt .stuck f.scan
    | [] => .halt .stuck f.scan
  | localTee i =>
    match f.stack with
    | v :: _ =>
      if i < f.locals.length then .next { f with locals := f.locals.set i v }
      else .halt .stuck f.scan
    | [] => .halt .stuck f.scan
  | i32Const v => .next { f with stack := .i32 v :: f.stack }
  | i64Const v => .next { f with stack := .i64 v :: f.stack }
  | numeric n =>
    match n.apply f.stack with
    | some (.ok s) => .next { f with stack := s }
    | some (.error t) => .halt (.trap t) f.scan
    | none => .halt .stuck f.scan

namespace Code

def exec (e : Surroundings) : Code → Frame → Outcome
  | done, f => .next f
  | plain p k, f => (p.exec e f).andThen fun g => k.exec e g
  | block t b k, f =>
    match e.enter t f with
    | none => .halt .stuck f.scan
    | some (type, inner, below) =>
      ((b.exec e inner).leave type.results.length below).andThen fun g => k.exec e g
  | loop t b k, f =>
    match e.enter t f with
    | none => .halt .stuck f.scan
    | some (type, inner, below) =>
      let last := Outcome.again (fun g => b.exec e g) type.params.length e.rounds inner
      (last.leave type.results.length below).andThen fun g => k.exec e g
  | ifThen t b k, f =>
    match f.stack with
    | .i32 v :: s =>
      match e.enter t { f with stack := s } with
      | none => .halt .stuck f.scan
      | some (type, inner, below) =>
        let last := if v = 0 then Outcome.next inner else b.exec e inner
        (last.leave type.results.length below).andThen fun g => k.exec e g
    | _ => .halt .stuck f.scan
  | ifElse t b a k, f =>
    match f.stack with
    | .i32 v :: s =>
      match e.enter t { f with stack := s } with
      | none => .halt .stuck f.scan
      | some (type, inner, below) =>
        let last := if v = 0 then a.exec e inner else b.exec e inner
        (last.leave type.results.length below).andThen fun g => k.exec e g
    | _ => .halt .stuck f.scan

end Code

/-- The bounds of a run: how many rounds each loop may take, and how deep the module's own functions
may call each other. -/
structure Limits where
  rounds : Nat
  calls : Nat
deriving DecidableEq, Repr

/-- A function of a module, ready to run. -/
structure OwnFunction where
  type : FuncType
  /-- The values that its locals start with, after its parameters. -/
  locals : List Value
  code : Code
deriving DecidableEq, Repr

/-- A module ready to run. -/
structure Instance where
  types : List FuncType
  /-- All functions that code can call, in the order of their indexes. -/
  functions : List Callee
  own : List OwnFunction
deriving DecidableEq, Repr

namespace Instance

/-- Runs one of the module's own functions on arguments, given what calling them again does. -/
def runOwn (m : Instance) (rounds : Nat) (callOwn : Nat → List Value → ScanState → Returned)
    (place : Nat) (args : List Value) (scan : ScanState) : Returned :=
  match m.own[place]? with
  | none => (.error .stuck, scan)
  | some f =>
    let surroundings : Surroundings := ⟨m.types, m.functions, rounds, callOwn⟩
    (f.code.exec surroundings ⟨[], args ++ f.locals, scan⟩).returned f.type.results.length

/-- Calls one of the module's own functions, which may call each other to the given depth. -/
def invoke (m : Instance) (rounds : Nat) : Nat → Nat → List Value → ScanState → Returned
  | 0 => m.runOwn rounds fun _ _ scan => (.error (.trap .stackOverflow), scan)
  | depth + 1 => m.runOwn rounds (m.invoke rounds depth)

/-- Whether there is a function of that index and it takes no parameters. -/
def runnable (m : Instance) (i : Nat) : Bool := m.functions[i]?.any (·.type.params.isEmpty)

/-- Calls a function of the module that takes no parameters. -/
def run (m : Instance) (limits : Limits) (i : Nat) (scan : ScanState) : Returned :=
  match m.functions[i]? with
  | none => (.error .stuck, scan)
  | some callee =>
    if callee.type.params ≠ [] then (.error .stuck, scan)
    else match callee with
      | .host h => h.invoke [] scan
      | .own n _ => m.invoke limits.rounds limits.calls n [] scan

end Instance

end RuleScan
