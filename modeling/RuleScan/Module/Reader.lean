import RuleScan.Bytecode.Code
import RuleScan.Module.Layout

/-!
Reading the layout of a module from its binary. The sections stand in the order of the format, each at
most once, and any of them may be missing; custom sections may stand anywhere, and of these only the
names are kept. Numbers may be written in more bytes than they need, and are not bounded here.
-/
namespace RuleScan.Layout

/-- A reader takes what it reads from the front of the bytes. -/
abbrev Reader (α : Type) := List UInt8 → Option (α × List UInt8)

/-! ### Readers -/

def readByte (b : UInt8) : Reader Unit
  | [] => none
  | c :: rest => if c = b then some ((), rest) else none

def readBytes (n : Nat) : Reader (List UInt8) := fun bytes =>
  if n ≤ bytes.length then some (bytes.take n, bytes.drop n) else none

/-- What is read from all of the bytes. -/
def whole {α : Type} (read : Reader α) (bytes : List UInt8) : Option α :=
  match read bytes with
  | some (a, []) => some a
  | _ => none

/-- A size and what is read from exactly as many bytes. -/
def readSized {α : Type} (read : Reader α) : Reader α := fun bytes => do
  let (n, bytes) ← Leb128.readNat bytes
  let (content, rest) ← readBytes n bytes
  return (← whole read content, rest)

def readTimes {α : Type} (read : Reader α) : Nat → Reader (List α)
  | 0, bytes => some ([], bytes)
  | n + 1, bytes => do
    let (a, bytes) ← read bytes
    let (as, bytes) ← readTimes read n bytes
    return (a :: as, bytes)

def readVector {α : Type} (read : Reader α) : Reader (List α) := fun bytes => do
  let (n, bytes) ← Leb128.readNat bytes
  readTimes read n bytes

/-- Reads at most `count` items, up to the end of the bytes; `none` if bytes are left. -/
def readUpTo {α : Type} (read : Reader α) : Nat → List UInt8 → Option (List α)
  | _, [] => some []
  | 0, _ :: _ => none
  | count + 1, b :: bytes => do
    let (a, rest) ← read (b :: bytes)
    return a :: (← readUpTo read count rest)

/-- The items that the bytes consist of. Each takes at least one byte. -/
def readAll {α : Type} (read : Reader α) (bytes : List UInt8) : Option (List α) :=
  readUpTo read bytes.length bytes

def readAs {α β : Type} (f : α → β) (read : Reader α) : Reader β := fun bytes => do
  let (a, bytes) ← read bytes
  return (f a, bytes)

/-- What is read after a first byte, which says how. -/
def readTagged {α : Type} (readers : List (UInt8 × Reader α)) : Reader α
  | [] => none
  | tag :: bytes => do (← readers.lookup tag) bytes

/-- All bytes that are left. -/
def readRest : Reader (List UInt8) := fun bytes => some (bytes, [])

def readString : Reader String := fun bytes => do
  let (content, rest) ← readSized readRest bytes
  return (← String.fromUTF8? ⟨content.toArray⟩, rest)

/-- A number of so many bytes, the lowest first. -/
def readLittleEndian : Nat → Reader Nat
  | 0, bytes => some (0, bytes)
  | _ + 1, [] => none
  | count + 1, b :: bytes => do
    let (n, rest) ← readLittleEndian count bytes
    return (b.toNat + 256 * n, rest)

/-! ### Items -/

def readValType : Reader ValType
  | [] => none
  | b :: rest => do return (← ValType.ofByte? b, rest)

def readFuncType : Reader FuncType := fun bytes => do
  let (_, bytes) ← readByte 0x60 bytes
  let (params, bytes) ← readVector readValType bytes
  let (results, bytes) ← readVector readValType bytes
  return (⟨params, results⟩, bytes)

def readMaximum : Reader SizeRange := fun bytes => do
  let (min, bytes) ← Leb128.readNat bytes
  let (max, bytes) ← Leb128.readNat bytes
  return (⟨min, some max⟩, bytes)

def readSizeRange : Reader SizeRange :=
  readTagged [(0x00, readAs (⟨·, none⟩) Leb128.readNat), (0x01, readMaximum)]

def readTableType : Reader TableType := fun bytes => do
  let (element, bytes) ← readValType bytes
  let (size, bytes) ← readSizeRange bytes
  return (⟨element, size⟩, bytes)

def readGlobalType : Reader GlobalType := fun bytes => do
  let (type, bytes) ← readValType bytes
  let (mutable, bytes) ←
    readTagged [(0x00, fun rest => some (false, rest)), (0x01, fun rest => some (true, rest))] bytes
  return (⟨type, mutable⟩, bytes)

def readImportKind : Reader ImportKind := readTagged [
  (0x00, readAs .function Leb128.readNat), (0x01, readAs .table readTableType),
  (0x02, readAs .memory readSizeRange), (0x03, readAs .global readGlobalType)]

def readImport : Reader Import := fun bytes => do
  let (module, bytes) ← readString bytes
  let (name, bytes) ← readString bytes
  let (kind, bytes) ← readImportKind bytes
  return (⟨module, name, kind⟩, bytes)

def readExportKind : Reader ExportKind := readTagged [
  (0x00, readAs .function Leb128.readNat), (0x01, readAs .table Leb128.readNat),
  (0x02, readAs .memory Leb128.readNat), (0x03, readAs .global Leb128.readNat)]

def readExport : Reader Export := fun bytes => do
  let (name, bytes) ← readString bytes
  let (kind, bytes) ← readExportKind bytes
  return (⟨name, kind⟩, bytes)

def readVector128 : Reader ConstExpr := fun bytes => do
  let (_, bytes) ← readByte 0x0c bytes
  readAs (fun n => .v128 (.ofNat 128 n)) (readLittleEndian 16) bytes

def readConst : Reader ConstExpr := readTagged [
  (0x41, readAs (fun n => .i32 (.ofInt n)) (Token.readSigned 0x80000000)),
  (0x42, readAs (fun n => .i64 (.ofInt n)) (Token.readSigned 0x8000000000000000)),
  (0x43, readAs (fun n => .f32 (.ofNat 32 n)) (readLittleEndian 4)),
  (0x44, readAs (fun n => .f64 (.ofNat 64 n)) (readLittleEndian 8)),
  (0xfd, readVector128),
  (0xd0, readAs .refNull readValType),
  (0xd2, readAs .refFunc Leb128.readNat),
  (0x23, readAs .globalGet Leb128.readNat)]

def readConstExpr : Reader ConstExpr := fun bytes => do
  let (e, bytes) ← readConst bytes
  let (_, bytes) ← readByte 0x0b bytes
  return (e, bytes)

def readGlobal : Reader Global := fun bytes => do
  let (type, bytes) ← readGlobalType bytes
  let (initial, bytes) ← readConstExpr bytes
  return (⟨type, initial⟩, bytes)

def readPlacement : Reader Placement := fun bytes => do
  let (target, bytes) ← Leb128.readNat bytes
  let (offset, bytes) ← readConstExpr bytes
  return (⟨target, offset⟩, bytes)

def readIndexes : Reader ElementItems := readAs .functions (readVector Leb128.readNat)

def readExpressions (type : ValType) : Reader ElementItems :=
  readAs (.expressions type) (readVector readConstExpr)

/-- The indexes of functions, after the byte that says so. -/
def readMarkedIndexes : Reader ElementItems := fun bytes => do
  let (_, bytes) ← readByte 0x00 bytes
  readIndexes bytes

def readTypedExpressions : Reader ElementItems := fun bytes => do
  let (type, bytes) ← readValType bytes
  readExpressions type bytes

/-- A segment with a place in front of its items. -/
def readPlaced (place : Reader Placement) (items : Reader ElementItems) : Reader ElementSegment :=
  fun bytes => do
    let (p, bytes) ← place bytes
    let (is, bytes) ← items bytes
    return (⟨.active p, is⟩, bytes)

/-- A segment. Some flags stand for the first table and for references to functions. -/
def readElement : Reader ElementSegment :=
  let first := readAs (⟨0, ·⟩) readConstExpr
  readTagged [
    (0x00, readPlaced first readIndexes),
    (0x01, readAs (⟨.passive, ·⟩) readMarkedIndexes),
    (0x02, readPlaced readPlacement readMarkedIndexes),
    (0x03, readAs (⟨.declarative, ·⟩) readMarkedIndexes),
    (0x04, readPlaced first (readExpressions .funcref)),
    (0x05, readAs (⟨.passive, ·⟩) readTypedExpressions),
    (0x06, readPlaced readPlacement readTypedExpressions),
    (0x07, readAs (⟨.declarative, ·⟩) readTypedExpressions)]

def readPlacedData (place : Reader Placement) : Reader DataSegment := fun bytes => do
  let (p, bytes) ← place bytes
  let (content, bytes) ← readSized readRest bytes
  return (⟨some p, content⟩, bytes)

def readData : Reader DataSegment := readTagged [
  (0x00, readPlacedData (readAs (⟨0, ·⟩) readConstExpr)),
  (0x01, readAs (⟨none, ·⟩) (readSized readRest)),
  (0x02, readPlacedData readPlacement)]

def readRun : Reader (Nat × ValType) := fun bytes => do
  let (n, bytes) ← Leb128.readNat bytes
  let (t, bytes) ← readValType bytes
  return ((n, t), bytes)

def readFunction : Reader (List ValType × List UInt8) := fun bytes => do
  let (rs, bytes) ← readVector readRun bytes
  return ((rs.flatMap fun r => List.replicate r.1 r.2, bytes), [])

def readName : Reader (Nat × String) := fun bytes => do
  let (n, bytes) ← Leb128.readNat bytes
  let (s, bytes) ← readString bytes
  return ((n, s), bytes)

def readLocalNames : Reader (Nat × List (Nat × String)) := fun bytes => do
  let (n, bytes) ← Leb128.readNat bytes
  let (ls, bytes) ← readVector readName bytes
  return ((n, ls), bytes)

/-! ### Sections -/

def readSection : Reader (UInt8 × List UInt8)
  | [] => none
  | id :: bytes => readAs (id, ·) (readSized readRest) bytes

def readPreamble : Reader Unit := fun bytes => do
  let (p, bytes) ← readBytes 8 bytes
  guard (p = preamble)
  return ((), bytes)

/-- The sections of a binary, as their sizes divide it. -/
def readSections (binary : List UInt8) : Option Sections := do
  let (_, bytes) ← readPreamble binary
  readAll readSection bytes

/-- The order of the sections of the format. -/
def order : List UInt8 :=
  [0x01, 0x02, 0x03, 0x04, 0x05, 0x06, 0x07, 0x08, 0x09, 0x0c, 0x0a, 0x0b]

/-- Whether the sections are in order, the custom ones aside. -/
def inOrder (parts : Sections) : Bool :=
  ((parts.map (·.1)).filter (· ≠ 0x00)).isSublist order

/-- The sequence in a section, which is empty if the section is missing. -/
def entries {α : Type} (read : Reader α) (parts : Sections) (id : UInt8) : Option (List α) :=
  match parts.lookup id with
  | none => some []
  | some content => whole (readVector read) content

/-- The number in a section, if the section is there. -/
def number? (parts : Sections) (id : UInt8) : Option (Option Nat) :=
  match parts.lookup id with
  | none => some none
  | some content => (whole Leb128.readNat content).map some

def readNameParts (content : List UInt8) : Option Names := do
  let parts ← readAll readSection content
  return ⟨← entries readName parts 0x01, ← entries readLocalNames parts 0x02⟩

/-- The names, from the one custom section with their title. Every custom section has a title. -/
def readNames (parts : Sections) : Option (Option Names) := do
  let customs ← (parts.filter (·.1 = 0x00)).mapM fun part => readString part.2
  match customs.filter (·.1 = "name") with
  | [] => return none
  | [(_, content)] => return some (← readNameParts content)
  | _ => none

/-- What the sections say. There are as many bodies as functions are declared. -/
def ofSections (parts : Sections) : Option Layout := do
  let declared ← entries Leb128.readNat parts 0x03
  let bodies ← entries (readSized readFunction) parts 0x0a
  guard (declared.length = bodies.length)
  return {
    types := ← entries readFuncType parts 0x01
    imports := ← entries readImport parts 0x02
    functions := declared.zipWith (fun t b => ⟨t, b.1, b.2⟩) bodies
    tables := ← entries readTableType parts 0x04
    memories := ← entries readSizeRange parts 0x05
    globals := ← entries readGlobal parts 0x06
    exports := ← entries readExport parts 0x07
    start := ← number? parts 0x08
    elements := ← entries readElement parts 0x09
    dataCount := ← number? parts 0x0c
    data := ← entries readData parts 0x0b
    names := ← readNames parts }

def decode (binary : List UInt8) : Option Layout := do
  let parts ← readSections binary
  guard (inOrder parts)
  ofSections parts

end RuleScan.Layout
