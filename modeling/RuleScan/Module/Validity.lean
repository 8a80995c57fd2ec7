import RuleScan.Module.Layout

/-!
Validity of what a module declares around its code: sizes, expressions, segments, exports and the
function to start with. What is imported comes before what the module has itself, so that indexes count
both; expressions can only refer to globals that are imported. How many items of a kind there may be is
not bounded here.
-/
namespace RuleScan

/-- The largest size of a memory in pages. -/
def maxPages : Nat := 65536

/-- The size of a page in bytes. -/
def pageSize : Nat := 65536

/-- The largest size that a table may start with. -/
def maxElements : Nat := 134217728

namespace SizeRange

/-- Whether the sizes are those of a memory. -/
def isMemory (r : SizeRange) : Bool :=
  r.min ≤ maxPages && r.max.all fun max => r.min ≤ max && max ≤ maxPages

/-- Whether the sizes are those of a table. -/
def isTable (r : SizeRange) : Bool := r.min ≤ maxElements && r.max.all fun max => r.min ≤ max

end SizeRange

/-- The type of an expression, where globals of the given types are imported; `none` if it refers to
something that does not exist. -/
def ConstExpr.type? (globals : List GlobalType) (numFunctions : Nat) : ConstExpr → Option ValType
  | i32 _ => some .i32
  | i64 _ => some .i64
  | f32 _ => some .f32
  | f64 _ => some .f64
  | v128 _ => some .v128
  | refNull t => if t.isReference then some t else none
  | refFunc i => if i < numFunctions then some .funcref else none
  | globalGet i => (globals[i]?).map (·.type)

def ElementItems.type : ElementItems → ValType
  | functions _ => .funcref
  | expressions t _ => t

namespace Import

def isFunction (i : Import) : Bool :=
  match i.kind with
  | .function _ => true
  | _ => false

def table? (i : Import) : Option TableType :=
  match i.kind with
  | .table t => some t
  | _ => none

def memory? (i : Import) : Option SizeRange :=
  match i.kind with
  | .memory size => some size
  | _ => none

def global? (i : Import) : Option GlobalType :=
  match i.kind with
  | .global t => some t
  | _ => none

end Import

namespace Layout

def importedMemories (l : Layout) : List SizeRange := l.imports.filterMap Import.memory?

def importedGlobals (l : Layout) : List GlobalType := l.imports.filterMap Import.global?

def allTables (l : Layout) : List TableType := l.imports.filterMap Import.table? ++ l.tables

def allMemories (l : Layout) : List SizeRange := l.importedMemories ++ l.memories

def allGlobals (l : Layout) : List GlobalType := l.importedGlobals ++ l.globals.map (·.type)

/-- Whether every import names the module that it is from. -/
def importsNamed (l : Layout) : Bool := l.imports.all fun i => i.module ≠ ""

/-- Whether the sizes are in range. A module has at most one memory of its own, and none if it imports
one. -/
def sizesValid (l : Layout) : Bool :=
  l.allMemories.all SizeRange.isMemory &&
  (l.memories.isEmpty || l.memories.length = 1 && l.importedMemories.isEmpty) &&
  l.allTables.all fun t => t.element.isReference && t.size.isTable

def globalsValid (l : Layout) (numFunctions : Nat) : Bool :=
  l.globals.all fun g => g.initial.type? l.importedGlobals numFunctions = some g.type.type

/-- Whether what is exported exists. Only the first memory can be exported. -/
def exportExists (l : Layout) (numFunctions : Nat) : ExportKind → Bool
  | .function i => i < numFunctions
  | .table i => i < l.allTables.length
  | .memory i => i = 0 && !l.allMemories.isEmpty
  | .global i => i < l.allGlobals.length

def distinct : List String → Bool
  | [] => true
  | n :: ns => !ns.contains n && distinct ns

/-- Whether the exports have different names and exist. -/
def exportsValid (l : Layout) (numFunctions : Nat) : Bool :=
  l.exports.all (fun e => l.exportExists numFunctions e.kind) && distinct (l.exports.map (·.name))

/-- Whether the function to start with takes and gives nothing. -/
def startValid (l : Layout) (functions : List FuncType) : Bool :=
  l.start.all fun i => functions[i]? = some ⟨[], []⟩

def offsetValid (l : Layout) (offset : ConstExpr) : Bool :=
  offset.type? l.importedGlobals 0 = some .i32

def itemsValid (l : Layout) (numFunctions : Nat) : ElementItems → Bool
  | .functions is => is.all (· < numFunctions)
  | .expressions t es =>
    t.isReference && es.all fun e => e.type? l.importedGlobals numFunctions = some t

/-- Whether the items of each segment have its type, and so has the table that it is put in. -/
def elementsValid (l : Layout) (numFunctions : Nat) : Bool :=
  l.elements.all fun s => l.itemsValid numFunctions s.items &&
    match s.mode with
    | .active p =>
      l.allTables[p.target]?.any (·.element = s.items.type) && l.offsetValid p.offset
    | _ => true

/-- Whether each segment is put in the first memory, if anywhere, and all of them were announced. -/
def dataValid (l : Layout) : Bool :=
  l.dataCount.all (· = l.data.length) &&
  l.data.all fun s => s.place.all fun p =>
    p.target = 0 && !l.allMemories.isEmpty && l.offsetValid p.offset

/-- Whether what the module declares is valid, given the types of all its functions. -/
def isValid (l : Layout) (functions : List FuncType) : Bool :=
  l.importsNamed && l.sizesValid && l.globalsValid functions.length &&
  l.exportsValid functions.length && l.startValid functions &&
  l.elementsValid functions.length && l.dataValid

/-- Whether no memory starts with more pages than the limit. -/
def memoriesWithin (l : Layout) (limit : Nat) : Bool := l.allMemories.all (·.min ≤ limit)

/-- Whether a segment that is put in a memory of its module fits there. -/
def segmentFits (pages : Nat) (s : DataSegment) : Bool :=
  match s.place with
  | none => true
  | some ⟨_, .i32 offset⟩ =>
    0 ≤ offset.toInt && offset.toInt.toNat + s.bytes.length ≤ pages * pageSize
  | some _ => false

/-- Whether all segments fit in the memory of the module. Segments of a table need not fit. -/
def dataFits (l : Layout) : Bool :=
  l.data.all (segmentFits ((l.memories.head?.map (·.min)).getD 0))

end Layout

end RuleScan
