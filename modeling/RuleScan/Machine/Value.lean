import RuleScan.Bytecode.Opcode
import RuleScan.Bytecode.ValueType

/-!
Values of the machine, their 64-bit slots, and the integer operators. Operators take their operands
from the top of the stack, the last one first. An operator without its operands has no result.
-/
namespace RuleScan

/-- The values that code computes with. -/
inductive Value where
  | i32 (v : Int32)
  | i64 (v : Int64)
  /-- The value that a local of any other type starts with. No instruction makes another one. -/
  | blank (type : ValType) (h : type.isInteger = false)
deriving DecidableEq, Repr

/-- Why a run is cut short by the machine itself. -/
inductive Trap where
  | unreachable
  | divideByZero
  | overflow
  | stackOverflow
deriving DecidableEq, Repr

def Trap.message : Trap → String
  | unreachable => "wasm error: unreachable"
  | divideByZero => "wasm error: integer divide by zero"
  | overflow => "wasm error: integer overflow"
  | stackOverflow => "wasm error: stack overflow"

namespace Value

def type : Value → ValType
  | i32 _ => .i32
  | i64 _ => .i64
  | blank t _ => t

/-- The value that a local starts with. -/
def zero : ValType → Value
  | .i32 => i32 0
  | .i64 => i64 0
  | .f32 => blank .f32 rfl
  | .f64 => blank .f64 rfl
  | .v128 => blank .v128 rfl
  | .funcref => blank .funcref rfl
  | .externref => blank .externref rfl

def ofBool (b : Bool) : Value := i32 (if b then 1 else 0)

/-- The slot that passes a value to the host. The high half of a 32-bit value is zero. -/
def slot : Value → UInt64
  | i32 v => v.toUInt32.toUInt64
  | i64 v => v.toUInt64
  | blank _ _ => 0

def ofSlot? (t : ValType) (s : UInt64) : Option Value :=
  match t with
  | .i32 => some (i32 s.toUInt32.toInt32)
  | .i64 => some (i64 s.toInt64)
  | _ => none

end Value

def Relation.holds32 (r : Relation) (a b : Int32) : Bool :=
  match r with
  | eq => a == b
  | ne => a != b
  | lt => a < b
  | gt => b < a
  | le => a ≤ b
  | ge => b ≤ a

def Relation.holds64 (r : Relation) (a b : Int64) : Bool :=
  match r with
  | eq => a == b
  | ne => a != b
  | lt => a < b
  | gt => b < a
  | le => a ≤ b
  | ge => b ≤ a

/-- Operations on 32-bit integers wrap. -/
def Arith32.eval (o : Arith32) (a b : Int32) : Int32 :=
  match o with
  | add => a + b
  | sub => a - b
  | and => a &&& b
  | or => a ||| b
  | xor => a ^^^ b

/-- Operations on 64-bit integers wrap, and shifts take their count modulo 64. Division traps on
zero and on the one quotient that is too large; the remainder traps on zero only. -/
def Arith64.eval (o : Arith64) (a b : Int64) : Except Trap Int64 :=
  match o with
  | add => .ok (a + b)
  | sub => .ok (a - b)
  | mul => .ok (a * b)
  | div =>
    if b = 0 then .error .divideByZero
    else if a = Int64.minValue ∧ b = -1 then .error .overflow
    else .ok (a / b)
  | rem => if b = 0 then .error .divideByZero else .ok (a % b)
  | and => .ok (a &&& b)
  | or => .ok (a ||| b)
  | xor => .ok (a ^^^ b)
  | shl => .ok (a <<< b)
  | shr => .ok (a >>> b)

namespace Numeric

def type : Numeric → FuncType
  | eqz32 => ⟨[.i32], [.i32]⟩
  | relation32 _ => ⟨[.i32, .i32], [.i32]⟩
  | eqz64 => ⟨[.i64], [.i32]⟩
  | relation64 _ => ⟨[.i64, .i64], [.i32]⟩
  | arith32 _ => ⟨[.i32, .i32], [.i32]⟩
  | arith64 _ => ⟨[.i64, .i64], [.i64]⟩
  | wrap => ⟨[.i64], [.i32]⟩
  | extendSigned => ⟨[.i32], [.i64]⟩
  | extendUnsigned => ⟨[.i32], [.i64]⟩

def apply : Numeric → List Value → Option (Except Trap (List Value))
  | eqz32, .i32 a :: s => some (.ok (.ofBool (a == 0) :: s))
  | relation32 r, .i32 b :: .i32 a :: s => some (.ok (.ofBool (r.holds32 a b) :: s))
  | eqz64, .i64 a :: s => some (.ok (.ofBool (a == 0) :: s))
  | relation64 r, .i64 b :: .i64 a :: s => some (.ok (.ofBool (r.holds64 a b) :: s))
  | arith32 o, .i32 b :: .i32 a :: s => some (.ok (.i32 (o.eval a b) :: s))
  | arith64 o, .i64 b :: .i64 a :: s => some ((o.eval a b).map fun v => .i64 v :: s)
  | wrap, .i64 a :: s => some (.ok (.i32 a.toInt32 :: s))
  | extendSigned, .i32 a :: s => some (.ok (.i64 a.toInt64 :: s))
  | extendUnsigned, .i32 a :: s => some (.ok (.i64 a.toUInt32.toUInt64.toInt64 :: s))
  | _, _ => none

end Numeric

end RuleScan
