/-!
Value types, function types and block types, with their bytes and names.
-/
namespace RuleScan

/-- The types of values in a module's signatures. Rule bytecode computes with the two integer types
only. -/
inductive ValType where
  | i32
  | i64
  | f32
  | f64
  | v128
  | funcref
  | externref
deriving DecidableEq, Repr

namespace ValType

def byte : ValType → UInt8
  | i32 => 0x7f
  | i64 => 0x7e
  | f32 => 0x7d
  | f64 => 0x7c
  | v128 => 0x7b
  | funcref => 0x70
  | externref => 0x6f

def all : List ValType := [i32, i64, f32, f64, v128, funcref, externref]

def ofByte? (b : UInt8) : Option ValType := all.find? (·.byte == b)

def name : ValType → String
  | i32 => "i32"
  | i64 => "i64"
  | f32 => "f32"
  | f64 => "f64"
  | v128 => "unknown"
  | funcref => "unknown"
  | externref => "externref"

def isInteger : ValType → Bool
  | i32 | i64 => true
  | _ => false

def isReference : ValType → Bool
  | funcref | externref => true
  | _ => false

def listText (ts : List ValType) : String := "[" ++ " ".intercalate (ts.map name) ++ "]"

end ValType

/-- The type of a function. -/
structure FuncType where
  params : List ValType
  results : List ValType
deriving DecidableEq, Repr

def FuncType.text (t : FuncType) : String :=
  ValType.listText t.params ++ " -> " ++ ValType.listText t.results

/-- The type of a block: nothing, one result, or a function type of the module. -/
inductive BlockType where
  | void
  | value (t : ValType)
  | index (i : Nat)
deriving DecidableEq, Repr

namespace BlockType

/-- The byte of a block type. Only the first 64 function types can be named by a byte. -/
def byte : BlockType → UInt8
  | void => 0x40
  | value t => t.byte
  | index i => UInt8.ofNat i

/-- How the block type with a given byte is called in listings and messages. -/
def nameOfByte (b : UInt8) : String :=
  if b = void.byte then "void"
  else if b = ValType.i32.byte then "i32"
  else if b = ValType.i64.byte then "i64"
  else "unknown"

/-- The block type that a signed number stands for: function types count from zero, and the other
types are the negative numbers whose low seven bits are their bytes. -/
def ofInt? (n : Int) : Option BlockType :=
  if 0 ≤ n then some (index n.toNat)
  else if n = -64 then some void
  else if -64 < n then (ValType.ofByte? (UInt8.ofNat (n + 128).toNat)).map value
  else none

/-- The function type that a block type stands for, in a module with the given types. -/
def resolve? (types : List FuncType) : BlockType → Option FuncType
  | void => some ⟨[], []⟩
  | value t => some ⟨[], [t]⟩
  | index i => types[i]?

end BlockType

end RuleScan
