import RuleScan.Bytecode.Leb128
import RuleScan.Bytecode.ValueType

/-!
The layout of a module: what it declares, imports, defines and exports, and the names of its functions
and locals. `Layout.encode` writes it in the WebAssembly binary format. What there is none of has no
section; every section and every function body carries its size.
-/
namespace RuleScan

/-- The least and the largest size of a table in elements, or of a memory in pages. -/
structure SizeRange where
  min : Nat
  max : Option Nat := none
deriving DecidableEq, Repr

structure TableType where
  element : ValType
  size : SizeRange
deriving DecidableEq, Repr

structure GlobalType where
  type : ValType
  mutable : Bool
deriving DecidableEq, Repr

/-- What is imported. A function is of one of the module's types. -/
inductive ImportKind where
  | function (type : Nat)
  | table (type : TableType)
  | memory (size : SizeRange)
  | global (type : GlobalType)
deriving DecidableEq, Repr

/-- An import. -/
structure Import where
  module : String
  name : String
  kind : ImportKind
deriving DecidableEq, Repr

/-- What is exported, by its index among all of its kind; those that are imported come first. -/
inductive ExportKind where
  | function (index : Nat)
  | table (index : Nat)
  | memory (index : Nat)
  | global (index : Nat)
deriving DecidableEq, Repr

/-- An export. -/
structure Export where
  name : String
  kind : ExportKind
deriving DecidableEq, Repr

/-- A function of the module itself. -/
structure FunctionBody where
  /-- Its type, by its place among the types. -/
  type : Nat
  /-- The types of its locals, after its parameters. -/
  locals : List ValType
  /-- Its instructions in bytes, with the `end` that closes it. -/
  body : List UInt8
deriving DecidableEq, Repr

/-- An expression that is evaluated as a module is instantiated. -/
inductive ConstExpr where
  | i32 (v : Int32)
  | i64 (v : Int64)
  | f32 (bits : BitVec 32)
  | f64 (bits : BitVec 64)
  | v128 (bits : BitVec 128)
  | refNull (type : ValType)
  | refFunc (function : Nat)
  | globalGet (global : Nat)
deriving DecidableEq, Repr

/-- A global of the module itself. -/
structure Global where
  type : GlobalType
  initial : ConstExpr
deriving DecidableEq, Repr

/-- Where the content of a segment is put: in which table or memory, and from which offset on. -/
structure Placement where
  target : Nat
  offset : ConstExpr
deriving DecidableEq, Repr

/-- What becomes of a segment of elements as the module is instantiated. -/
inductive ElementMode where
  | passive
  | declarative
  | active (place : Placement)
deriving DecidableEq, Repr

/-- References to functions by their indexes, or references of a type by expressions. -/
inductive ElementItems where
  | functions (indexes : List Nat)
  | expressions (type : ValType) (items : List ConstExpr)
deriving DecidableEq, Repr

/-- A segment of elements for a table. -/
structure ElementSegment where
  mode : ElementMode
  items : ElementItems
deriving DecidableEq, Repr

/-- A segment of bytes for a memory; a passive one has no place. -/
structure DataSegment where
  place : Option Placement
  bytes : List UInt8
deriving DecidableEq, Repr

/-- Names for listings: those of functions, and those of the locals of functions. -/
structure Names where
  functions : List (Nat × String)
  locals : List (Nat × List (Nat × String))
deriving DecidableEq, Repr

/-- A module. -/
structure Layout where
  types : List FuncType := []
  imports : List Import := []
  functions : List FunctionBody := []
  tables : List TableType := []
  memories : List SizeRange := []
  globals : List Global := []
  exports : List Export := []
  /-- The function that runs as the module is instantiated. -/
  start : Option Nat := none
  elements : List ElementSegment := []
  /-- The number of data segments, if it is declared before the code. -/
  dataCount : Option Nat := none
  data : List DataSegment := []
  names : Option Names := none
deriving DecidableEq, Repr

namespace Layout

/-- A module whose function does nothing but trap if it has to give results. Function imports are
given with their types. -/
def idle (imports : List (String × String × Option FuncType)) (type : FuncType)
    (exports : List Export) : Layout :=
  let types := imports.filterMap fun i => i.2.2
  { types := types ++ [type]
    imports := number imports 0
    functions := [⟨types.length, [], if type.results.isEmpty then [0x0b] else [0x00, 0x0b]⟩]
    exports := exports }
where
  /-- Numbers the types of the functions; what has no type is a memory of one page. -/
  number : List (String × String × Option FuncType) → Nat → List Import
    | [], _ => []
    | (module, name, some _) :: rest, n => ⟨module, name, .function n⟩ :: number rest (n + 1)
    | (module, name, none) :: rest, n => ⟨module, name, .memory ⟨1, none⟩⟩ :: number rest n

/-! ### Items -/

/-- Bytes after their number. -/
def sized (bytes : List UInt8) : List UInt8 := Leb128.ofNat bytes.length ++ bytes

/-- A sequence after its length. -/
def vector {α : Type} (write : α → List UInt8) (xs : List α) : List UInt8 :=
  Leb128.ofNat xs.length ++ xs.flatMap write

/-- A string in UTF-8, after its number of bytes. -/
def string (s : String) : List UInt8 := sized s.toUTF8.toList

/-- The lowest bytes of a number, the lowest first. -/
def littleEndian : Nat → Nat → List UInt8
  | 0, _ => []
  | count + 1, n => UInt8.ofNat (n % 256) :: littleEndian count (n / 256)

def writeValType (t : ValType) : List UInt8 := [t.byte]

def writeFuncType (t : FuncType) : List UInt8 :=
  0x60 :: (vector writeValType t.params ++ vector writeValType t.results)

def writeSizeRange (r : SizeRange) : List UInt8 :=
  match r.max with
  | none => 0x00 :: Leb128.ofNat r.min
  | some max => 0x01 :: (Leb128.ofNat r.min ++ Leb128.ofNat max)

def writeTableType (t : TableType) : List UInt8 := writeValType t.element ++ writeSizeRange t.size

def writeGlobalType (t : GlobalType) : List UInt8 :=
  writeValType t.type ++ [if t.mutable then 0x01 else 0x00]

def writeImportKind : ImportKind → List UInt8
  | .function t => 0x00 :: Leb128.ofNat t
  | .table t => 0x01 :: writeTableType t
  | .memory size => 0x02 :: writeSizeRange size
  | .global t => 0x03 :: writeGlobalType t

def writeImport (i : Import) : List UInt8 :=
  string i.module ++ string i.name ++ writeImportKind i.kind

def writeExportKind : ExportKind → List UInt8
  | .function i => 0x00 :: Leb128.ofNat i
  | .table i => 0x01 :: Leb128.ofNat i
  | .memory i => 0x02 :: Leb128.ofNat i
  | .global i => 0x03 :: Leb128.ofNat i

def writeExport (e : Export) : List UInt8 := string e.name ++ writeExportKind e.kind

/-- An expression up to its `end`. -/
def writeConst : ConstExpr → List UInt8
  | .i32 v => 0x41 :: Leb128.ofInt v.toInt
  | .i64 v => 0x42 :: Leb128.ofInt v.toInt
  | .f32 bits => 0x43 :: littleEndian 4 bits.toNat
  | .f64 bits => 0x44 :: littleEndian 8 bits.toNat
  | .v128 bits => 0xfd :: 0x0c :: littleEndian 16 bits.toNat
  | .refNull t => 0xd0 :: writeValType t
  | .refFunc i => 0xd2 :: Leb128.ofNat i
  | .globalGet i => 0x23 :: Leb128.ofNat i

def writeConstExpr (e : ConstExpr) : List UInt8 := writeConst e ++ [0x0b]

def writeGlobal (g : Global) : List UInt8 := writeGlobalType g.type ++ writeConstExpr g.initial

def writePlacement (p : Placement) : List UInt8 := Leb128.ofNat p.target ++ writeConstExpr p.offset

def writeElementItems : ElementItems → List UInt8
  | .functions is => 0x00 :: vector Leb128.ofNat is
  | .expressions t es => writeValType t ++ vector writeConstExpr es

/-- The flag of a segment says how it is used, and whether its items are expressions. -/
def writeElement (s : ElementSegment) : List UInt8 :=
  match s.mode, s.items with
  | .passive, .functions _ => 0x01 :: writeElementItems s.items
  | .active p, .functions _ => 0x02 :: (writePlacement p ++ writeElementItems s.items)
  | .declarative, .functions _ => 0x03 :: writeElementItems s.items
  | .passive, .expressions _ _ => 0x05 :: writeElementItems s.items
  | .active p, .expressions _ _ => 0x06 :: (writePlacement p ++ writeElementItems s.items)
  | .declarative, .expressions _ _ => 0x07 :: writeElementItems s.items

def writeData (s : DataSegment) : List UInt8 :=
  match s.place with
  | none => 0x01 :: sized s.bytes
  | some p => 0x02 :: (writePlacement p ++ sized s.bytes)

/-- Locals of one type in a row, as their number and their type. -/
def runs : List ValType → List (Nat × ValType)
  | [] => []
  | t :: ts =>
    match runs ts with
    | (n, u) :: rest => if t = u then (n + 1, u) :: rest else (1, t) :: (n, u) :: rest
    | [] => [(1, t)]

/-- A run of locals. -/
def writeRun (r : Nat × ValType) : List UInt8 := Leb128.ofNat r.1 ++ [r.2.byte]

/-- The locals and the instructions of a function, after their size. -/
def writeBody (f : List ValType × List UInt8) : List UInt8 :=
  sized (vector writeRun (runs f.1) ++ f.2)

def writeName (n : Nat × String) : List UInt8 := Leb128.ofNat n.1 ++ string n.2

def writeLocalNames (l : Nat × List (Nat × String)) : List UInt8 :=
  Leb128.ofNat l.1 ++ vector writeName l.2

/-! ### Sections -/

/-- Sections, each with its number and its content. -/
abbrev Sections := List (UInt8 × List UInt8)

/-- A section: its number, its size and its content. -/
def section_ (id : UInt8) (content : List UInt8) : List UInt8 := id :: sized content

def writeSections (parts : Sections) : List UInt8 := parts.flatMap fun part => section_ part.1 part.2

/-- The content of a section for a sequence; there is none for an empty one. -/
def content? {α : Type} (write : α → List UInt8) (xs : List α) : Option (List UInt8) :=
  if xs.isEmpty then none else some (vector write xs)

/-- The sections that have a content. -/
def present (slots : List (UInt8 × Option (List UInt8))) : Sections :=
  slots.filterMap fun slot => slot.2.map fun content => (slot.1, content)

def nameSlots (n : Names) : List (UInt8 × Option (List UInt8)) :=
  [(0x01, content? writeName n.functions), (0x02, content? writeLocalNames n.locals)]

/-- The names: a custom section with one part for functions and one for locals. -/
def writeNames (n : Names) : List UInt8 := string "name" ++ writeSections (present (nameSlots n))

/-- The contents of all sections that a module can have, in the order of the sections. -/
def slots (l : Layout) : List (UInt8 × Option (List UInt8)) := [
  (0x01, content? writeFuncType l.types),
  (0x02, content? writeImport l.imports),
  (0x03, content? Leb128.ofNat (l.functions.map (·.type))),
  (0x04, content? writeTableType l.tables),
  (0x05, content? writeSizeRange l.memories),
  (0x06, content? writeGlobal l.globals),
  (0x07, content? writeExport l.exports),
  (0x08, l.start.map Leb128.ofNat),
  (0x09, content? writeElement l.elements),
  (0x0c, l.dataCount.map Leb128.ofNat),
  (0x0a, content? writeBody (l.functions.map fun f => (f.locals, f.body))),
  (0x0b, content? writeData l.data),
  (0x00, l.names.map writeNames)]

def sections (l : Layout) : Sections := present l.slots

/-- The bytes before the first section: the magic number and the version. -/
def preamble : List UInt8 := [0x00, 0x61, 0x73, 0x6d, 0x01, 0x00, 0x00, 0x00]

def encode (l : Layout) : List UInt8 := preamble ++ writeSections l.sections

end Layout

end RuleScan
