import RuleScan.Bytecode.Leb128
import RuleScan.Bytecode.Opcode
import RuleScan.Bytecode.ValueType
import RuleScan.Text.Hex

/-!
Instructions as they are emitted: an operation byte with a dynamic immediate. Any byte can be
emitted with any immediate; only those whose byte is an operation and whose immediate is of its
kind have an encoding.
-/
namespace RuleScan

/-- The values that can be given as immediates. -/
inductive Immediate where
  | int32 (v : Int32)
  | uint32 (v : UInt32)
  | int64 (v : Int64)
  | uint64 (v : UInt64)
  | int (v : Int64)
  | uint8 (v : UInt8)
  | blockType (byte : UInt8)
  | opcode (byte : UInt8)
  | string (s : String)
  | bool (b : Bool)
  /-- A value of any other type, by the name of the type and its text. -/
  | other (type text : String)
deriving DecidableEq, Repr

namespace Immediate

def typeName : Option Immediate → String
  | none => "<nil>"
  | some (int32 _) => "int32"
  | some (uint32 _) => "uint32"
  | some (int64 _) => "int64"
  | some (uint64 _) => "uint64"
  | some (int _) => "int"
  | some (uint8 _) => "uint8"
  | some (blockType _) => "code.BlockType"
  | some (opcode _) => "code.Opcode"
  | some (string _) => "string"
  | some (bool _) => "bool"
  | some (other type _) => type

/-- An immediate in listings and messages. -/
def text : Immediate → String
  | int32 v => toString v.toInt
  | uint32 v => toString v.toNat
  | int64 v => toString v.toInt
  | uint64 v => toString v.toNat
  | int v => toString v.toInt
  | uint8 v => toString v.toNat
  | blockType b => BlockType.nameOfByte b
  | opcode b => Opcode.nameOfByte b
  | string s => s
  | bool b => if b then "true" else "false"
  | other _ text => text

end Immediate

/-- An emitted instruction. -/
structure Instr where
  opcode : UInt8
  immediate : Option Immediate := none
deriving DecidableEq, Repr

/-- Why an instruction has no encoding. -/
inductive EncodeError where
  | unknownOpcode (byte : UInt8)
  /-- The operation takes no immediate. -/
  | superfluous (op : Opcode) (given : Immediate)
  /-- The operation needs an immediate of another kind. -/
  | wrongKind (op : Opcode) (given : Option Immediate)
deriving DecidableEq, Repr

/-- What an operation needs, in messages. -/
def ImmediateKind.need : ImmediateKind → String
  | nothing => "nothing"
  | blockType => "a block type"
  | index => "an index"
  | int32 => "an int32"
  | int64 => "an int64"

def EncodeError.message : EncodeError → String
  | unknownOpcode b => "illegal instruction: 0x" ++ String.ofList (Text.hexFixed 2 b.toNat)
  | superfluous op given => op.name ++ " takes no operand, got " ++ given.text
  | wrongKind op given =>
    op.name ++ " needs " ++ op.immediateKind.need ++ ", got " ++ Immediate.typeName given

namespace Instr

def immediateBytes (op : Opcode) (given : Option Immediate) : Except EncodeError (List UInt8) :=
  match op.immediateKind, given with
  | .nothing, none => .ok []
  | .nothing, some i => .error (.superfluous op i)
  | .blockType, some (.blockType b) => .ok [b]
  | .index, some (.uint32 v) => .ok (Leb128.ofNat v.toNat)
  | .int32, some (.int32 v) => .ok (Leb128.ofInt v.toInt)
  | .int64, some (.int64 v) => .ok (Leb128.ofInt v.toInt)
  | _, given => .error (.wrongKind op given)

/-- The encoding of an instruction: the byte of its operation, then its immediate. -/
def encode (i : Instr) : Except EncodeError (List UInt8) :=
  match Opcode.ofByte? i.opcode with
  | none => .error (.unknownOpcode i.opcode)
  | some op => do return i.opcode :: (← immediateBytes op i.immediate)

/-- Appends the encoding of an instruction to a buffer. On an error in its immediate the buffer
still gets the byte of the operation. -/
def appendTo (buffer : List UInt8) (i : Instr) : List UInt8 × Option EncodeError :=
  match Opcode.ofByte? i.opcode with
  | none => (buffer, some (.unknownOpcode i.opcode))
  | some op =>
    match immediateBytes op i.immediate with
    | .ok bytes => (buffer ++ i.opcode :: bytes, none)
    | .error e => (buffer ++ [i.opcode], some e)

def text (i : Instr) : String :=
  match i.immediate with
  | none => "\x7b" ++ Opcode.nameOfByte i.opcode ++ "\x7d"
  | some v => "\x7b" ++ Opcode.nameOfByte i.opcode ++ " " ++ v.text ++ "\x7d"

def op (o : Opcode) : Instr := ⟨o.byte, none⟩

def i32Const (v : Int32) : Instr := ⟨Opcode.i32Const.byte, some (.int32 v)⟩

def i64Const (v : Int64) : Instr := ⟨Opcode.i64Const.byte, some (.int64 v)⟩

/-- An operation on a label, a function or a local. -/
def indexed (o : Opcode) (i : UInt32) : Instr := ⟨o.byte, some (.uint32 i)⟩

/-- The start of a block of the type with the given byte. -/
def opening (o : Opcode) (type : UInt8) : Instr := ⟨o.byte, some (.blockType type)⟩

end Instr

end RuleScan
