import RuleScan.Bytecode.Instr

/-!
Structured code: the instructions of a body with their immediates decoded and their blocks nested.
`Code.tokens` gives back the flat stream, and `Code.ofTokens?` nests a stream, from its last
instruction to its first.
-/
namespace RuleScan

/-- An instruction that neither opens nor closes a block. -/
inductive Plain where
  | unreachable
  | nop
  | br (depth : Nat)
  | brIf (depth : Nat)
  | return_
  | call (function : Nat)
  | drop
  | select
  | localGet (i : Nat)
  | localSet (i : Nat)
  | localTee (i : Nat)
  | i32Const (v : Int32)
  | i64Const (v : Int64)
  | numeric (n : Numeric)
deriving DecidableEq, Repr

/-- An instruction of a flat stream. -/
inductive Token where
  | plain (p : Plain)
  | block (t : BlockType)
  | loop (t : BlockType)
  | if_ (t : BlockType)
  | else_
  | end_
deriving DecidableEq, Repr

/-- Nested code: a sequence of instructions, some of which hold code of their own. -/
inductive Code where
  /-- The end of a sequence. -/
  | done
  | plain (p : Plain) (rest : Code)
  | block (t : BlockType) (body rest : Code)
  | loop (t : BlockType) (body rest : Code)
  /-- A conditional without an alternative. -/
  | ifThen (t : BlockType) (body rest : Code)
  | ifElse (t : BlockType) (body alternative rest : Code)
deriving DecidableEq, Repr

def Plain.instr : Plain → Instr
  | unreachable => .op .unreachable
  | nop => .op .nop
  | br d => .indexed .br (UInt32.ofNat d)
  | brIf d => .indexed .brIf (UInt32.ofNat d)
  | return_ => .op .return_
  | call f => .indexed .call (UInt32.ofNat f)
  | drop => .op .drop
  | select => .op .select
  | localGet i => .indexed .localGet (UInt32.ofNat i)
  | localSet i => .indexed .localSet (UInt32.ofNat i)
  | localTee i => .indexed .localTee (UInt32.ofNat i)
  | i32Const v => .i32Const v
  | i64Const v => .i64Const v
  | numeric n => .op (.numeric n)

namespace Token

def instr : Token → Instr
  | plain p => p.instr
  | block t => .opening .block t.byte
  | loop t => .opening .loop t.byte
  | if_ t => .opening .if_ t.byte
  | else_ => .op .else_
  | end_ => .op .end_

def readIndex (bytes : List UInt8) : Option (Nat × List UInt8) := do
  let (n, rest) ← Leb128.readNat bytes
  guard (n < UInt32.size)
  return (n, rest)

/-- A signed number below `half`, and not below its negative, at the start of the bytes. -/
def readSigned (half : Nat) (bytes : List UInt8) : Option (Int × List UInt8) := do
  let (n, rest) ← Leb128.readInt bytes
  guard (-(half : Int) ≤ n ∧ n < half)
  return (n, rest)

/-- A block type at the start of the bytes: a signed number of 33 bits. -/
def readBlockType (bytes : List UInt8) : Option (BlockType × List UInt8) := do
  let (n, rest) ← readSigned 0x100000000 bytes
  return (← BlockType.ofInt? n, rest)

/-- The immediate of an operation, read from the bytes after it. -/
def readOperands (op : Opcode) (bytes : List UInt8) : Option (Token × List UInt8) :=
  let index (make : Nat → Plain) := do
    let (i, rest) ← readIndex bytes
    return (plain (make i), rest)
  let opening (make : BlockType → Token) := do
    let (t, rest) ← readBlockType bytes
    return (make t, rest)
  match op with
  | .unreachable => some (plain .unreachable, bytes)
  | .nop => some (plain .nop, bytes)
  | .block => opening block
  | .loop => opening loop
  | .if_ => opening if_
  | .else_ => some (else_, bytes)
  | .end_ => some (end_, bytes)
  | .br => index .br
  | .brIf => index .brIf
  | .return_ => some (plain .return_, bytes)
  | .call => index .call
  | .drop => some (plain .drop, bytes)
  | .select => some (plain .select, bytes)
  | .localGet => index .localGet
  | .localSet => index .localSet
  | .localTee => index .localTee
  | .i32Const => do
    let (n, rest) ← readSigned 0x80000000 bytes
    return (plain (.i32Const (Int32.ofInt n)), rest)
  | .i64Const => do
    let (n, rest) ← readSigned 0x8000000000000000 bytes
    return (plain (.i64Const (Int64.ofInt n)), rest)
  | .numeric n => some (plain (.numeric n), bytes)

/-- The token at the start of the bytes, and the bytes after it. -/
def read : List UInt8 → Option (Token × List UInt8)
  | [] => none
  | b :: rest => do readOperands (← Opcode.ofByte? b) rest

/-- Reads at most `count` tokens, up to the end of the bytes; `none` if bytes are left. -/
def readUpTo : Nat → List UInt8 → Option (List Token)
  | _, [] => some []
  | 0, _ :: _ => none
  | count + 1, bytes => do
    let (t, rest) ← read bytes
    return t :: (← readUpTo count rest)

/-- The tokens of an instruction stream. Each takes at least one byte. -/
def readAll (bytes : List UInt8) : Option (List Token) := readUpTo bytes.length bytes

end Token

namespace Code

def tokens : Code → List Token
  | done => []
  | plain p k => .plain p :: k.tokens
  | block t b k => .block t :: (b.tokens ++ .end_ :: k.tokens)
  | loop t b k => .loop t :: (b.tokens ++ .end_ :: k.tokens)
  | ifThen t b k => .if_ t :: (b.tokens ++ .end_ :: k.tokens)
  | ifElse t b e k => .if_ t :: (b.tokens ++ .else_ :: (e.tokens ++ .end_ :: k.tokens))

/-- A block whose `end` has been read, on the way from the last instruction to the first: the code
that follows in it, and its alternative once `else` has been read. -/
structure Pending where
  code : Code
  alternative : Option Code
deriving DecidableEq, Repr

/-- Takes one more instruction in front of the innermost pending block. -/
def prepend : Token → List Pending → Option (List Pending)
  | .end_, ps => some (⟨done, none⟩ :: ps)
  | .plain p, ⟨c, a⟩ :: ps => some (⟨plain p c, a⟩ :: ps)
  | .else_, ⟨c, none⟩ :: ps => some (⟨done, some c⟩ :: ps)
  | .block t, ⟨b, none⟩ :: ⟨c, a⟩ :: ps => some (⟨block t b c, a⟩ :: ps)
  | .loop t, ⟨b, none⟩ :: ⟨c, a⟩ :: ps => some (⟨loop t b c, a⟩ :: ps)
  | .if_ t, ⟨b, none⟩ :: ⟨c, a⟩ :: ps => some (⟨ifThen t b c, a⟩ :: ps)
  | .if_ t, ⟨b, some e⟩ :: ⟨c, a⟩ :: ps => some (⟨ifElse t b e c, a⟩ :: ps)
  | _, _ => none

/-- Nests the stream of a whole body, which has one `end` of its own; `none` if the blocks of the
stream do not nest. -/
def ofTokens? (ts : List Token) : Option Code :=
  match ts.foldrM prepend [] with
  | some [⟨c, none⟩] => some c
  | _ => none

end Code

end RuleScan
