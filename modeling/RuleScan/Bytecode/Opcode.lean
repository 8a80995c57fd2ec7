/-!
The operation codes of rule bytecode: a subset of WebAssembly with structured control, calls,
locals, constants and integer operators. Each has a byte, a name, and the kind of immediate that
follows its byte.
-/
namespace RuleScan

/-- The signed order relations on integers. -/
inductive Relation where
  | eq
  | ne
  | lt
  | gt
  | le
  | ge
deriving DecidableEq, Repr

/-- Operations on two 32-bit integers. -/
inductive Arith32 where
  | add
  | sub
  | and
  | or
  | xor
deriving DecidableEq, Repr

/-- Operations on two 64-bit integers. -/
inductive Arith64 where
  | add
  | sub
  | mul
  | div
  | rem
  | and
  | or
  | xor
  | shl
  | shr
deriving DecidableEq, Repr

/-- The operators that work on the operand stack alone. -/
inductive Numeric where
  | eqz32
  | relation32 (r : Relation)
  | eqz64
  | relation64 (r : Relation)
  | arith32 (o : Arith32)
  | arith64 (o : Arith64)
  /-- The low half of a 64-bit integer. -/
  | wrap
  /-- A 32-bit integer as a 64-bit one, with its sign. -/
  | extendSigned
  /-- A 32-bit integer as a 64-bit one, taken as a natural number. -/
  | extendUnsigned
deriving DecidableEq, Repr

/-- The operations of the bytecode. -/
inductive Opcode where
  | unreachable
  | nop
  | block
  | loop
  | if_
  | else_
  | end_
  | br
  | brIf
  | return_
  | call
  | drop
  | select
  | localGet
  | localSet
  | localTee
  | i32Const
  | i64Const
  | numeric (n : Numeric)
deriving DecidableEq, Repr

def Numeric.byte : Numeric → UInt8
  | eqz32 => 0x45
  | relation32 .eq => 0x46
  | relation32 .ne => 0x47
  | relation32 .lt => 0x48
  | relation32 .gt => 0x4a
  | relation32 .le => 0x4c
  | relation32 .ge => 0x4e
  | eqz64 => 0x50
  | relation64 .eq => 0x51
  | relation64 .ne => 0x52
  | relation64 .lt => 0x53
  | relation64 .gt => 0x55
  | relation64 .le => 0x57
  | relation64 .ge => 0x59
  | arith32 .add => 0x6a
  | arith32 .sub => 0x6b
  | arith32 .and => 0x71
  | arith32 .or => 0x72
  | arith32 .xor => 0x73
  | arith64 .add => 0x7c
  | arith64 .sub => 0x7d
  | arith64 .mul => 0x7e
  | arith64 .div => 0x7f
  | arith64 .rem => 0x81
  | arith64 .and => 0x83
  | arith64 .or => 0x84
  | arith64 .xor => 0x85
  | arith64 .shl => 0x86
  | arith64 .shr => 0x87
  | wrap => 0xa7
  | extendSigned => 0xac
  | extendUnsigned => 0xad

def Numeric.name : Numeric → String
  | eqz32 => "i32.eqz"
  | relation32 .eq => "i32.eq"
  | relation32 .ne => "i32.ne"
  | relation32 .lt => "i32.lt_s"
  | relation32 .gt => "i32.gt_s"
  | relation32 .le => "i32.le_s"
  | relation32 .ge => "i32.ge_s"
  | eqz64 => "i64.eqz"
  | relation64 .eq => "i64.eq"
  | relation64 .ne => "i64.ne"
  | relation64 .lt => "i64.lt_s"
  | relation64 .gt => "i64.gt_s"
  | relation64 .le => "i64.le_s"
  | relation64 .ge => "i64.ge_s"
  | arith32 .add => "i32.add"
  | arith32 .sub => "i32.sub"
  | arith32 .and => "i32.and"
  | arith32 .or => "i32.or"
  | arith32 .xor => "i32.xor"
  | arith64 .add => "i64.add"
  | arith64 .sub => "i64.sub"
  | arith64 .mul => "i64.mul"
  | arith64 .div => "i64.div_s"
  | arith64 .rem => "i64.rem_s"
  | arith64 .and => "i64.and"
  | arith64 .or => "i64.or"
  | arith64 .xor => "i64.xor"
  | arith64 .shl => "i64.shl"
  | arith64 .shr => "i64.shr_s"
  | wrap => "i32.wrap_i64"
  | extendSigned => "i64.extend_i32_s"
  | extendUnsigned => "i64.extend_i32_u"

def Relation.all : List Relation := [.eq, .ne, .lt, .gt, .le, .ge]

def Numeric.all : List Numeric :=
  [eqz32, eqz64, wrap, extendSigned, extendUnsigned] ++
  Relation.all.map relation32 ++ Relation.all.map relation64 ++
  [.add, .sub, .and, .or, .xor].map arith32 ++
  [.add, .sub, .mul, .div, .rem, .and, .or, .xor, .shl, .shr].map arith64

/-- What follows the byte of an operation. -/
inductive ImmediateKind where
  | nothing
  | blockType
  /-- The number of a label, a function or a local. -/
  | index
  | int32
  | int64
deriving DecidableEq, Repr

namespace Opcode

def byte : Opcode → UInt8
  | unreachable => 0x00
  | nop => 0x01
  | block => 0x02
  | loop => 0x03
  | if_ => 0x04
  | else_ => 0x05
  | end_ => 0x0b
  | br => 0x0c
  | brIf => 0x0d
  | return_ => 0x0f
  | call => 0x10
  | drop => 0x1a
  | select => 0x1b
  | localGet => 0x20
  | localSet => 0x21
  | localTee => 0x22
  | i32Const => 0x41
  | i64Const => 0x42
  | numeric n => n.byte

def name : Opcode → String
  | unreachable => "unreachable"
  | nop => "nop"
  | block => "block"
  | loop => "loop"
  | if_ => "if"
  | else_ => "else"
  | end_ => "end"
  | br => "br"
  | brIf => "br_if"
  | return_ => "return"
  | call => "call"
  | drop => "drop"
  | select => "select"
  | localGet => "local.get"
  | localSet => "local.set"
  | localTee => "local.tee"
  | i32Const => "i32.const"
  | i64Const => "i64.const"
  | numeric n => n.name

def immediateKind : Opcode → ImmediateKind
  | block => .blockType
  | loop => .blockType
  | if_ => .blockType
  | br => .index
  | brIf => .index
  | call => .index
  | localGet => .index
  | localSet => .index
  | localTee => .index
  | i32Const => .int32
  | i64Const => .int64
  | _ => .nothing

def all : List Opcode :=
  [unreachable, nop, block, loop, if_, else_, end_, br, brIf, return_, call, drop, select,
   localGet, localSet, localTee, i32Const, i64Const] ++ Numeric.all.map numeric

def ofByte? (b : UInt8) : Option Opcode := all.find? (·.byte == b)

/-- The name of the operation with a given byte; bytes without an operation are bad. -/
def nameOfByte (b : UInt8) : String := ((ofByte? b).map name).getD "bad"

end Opcode

end RuleScan
