import Mathlib.Data.List.Nodup
import RuleScan.Proofs.LinkedModules

/-!
# The link check

Compiling a valid module that is not in the cache asks for two things: that the host provides each
function that is imported, and that a function which neither takes nor gives anything is exported as
the main function. If one of them is missing, the error is that of the first imported function that is
not provided, and one about the main function only if there is no such function. No host function is
like a main function, so the main function of a module that links is never one that it imports.

The check itself sees only the functions that are imported and exported. What is proved of it holds of
all such functions, whatever else there is in the module.
-/
namespace RuleScan

/-! ### What a module has to do with its host -/

namespace ImportedFunction

/-- The host provides the function: it is of the host's module, with the name and of the type that a
function has there. -/
def Provided (f : ImportedFunction) : Prop :=
  f.module = HostFunction.moduleName ∧ ∃ h : HostFunction, h.name = f.name ∧ f.type = h.type

/-- What is wrong with a function that is imported: the first of its module, its name and its type that
the host does not know. -/
inductive Fault (f : ImportedFunction) : LinkError → Prop where
  | unknownModule : f.module ≠ HostFunction.moduleName → Fault f (.unknownModule f.module)
  | unknownFunction : f.module = HostFunction.moduleName → (∀ h : HostFunction, h.name ≠ f.name) →
      Fault f (.unknownFunction f.module f.name)
  | signature {h : HostFunction} : f.module = HostFunction.moduleName → h.name = f.name →
      f.type ≠ h.type → Fault f (.signature f.module f.name f.type h.type)

end ImportedFunction

namespace Interface

/-- The module links: what it imports is provided, and it exports a main function. -/
def Links (i : Interface) : Prop :=
  (∀ f ∈ i.imported, f.Provided) ∧ ∃ e ∈ i.exported, e.name = mainName ∧ e.type = mainType

/-- Why a module does not link. -/
inductive LinkFault (i : Interface) : LinkError → Prop where
  /-- The first imported function that is not provided. -/
  | import_ {before after : List ImportedFunction} {f : ImportedFunction} {err : LinkError} :
      i.imported = before ++ f :: after → (∀ g ∈ before, g.Provided) → f.Fault err → LinkFault i err
  | noMain : (∀ f ∈ i.imported, f.Provided) → (∀ e ∈ i.exported, e.name ≠ mainName) →
      LinkFault i .noMain
  | mainType {e : ExportedFunction} : (∀ f ∈ i.imported, f.Provided) → e ∈ i.exported →
      e.name = mainName → e.type ≠ mainType → LinkFault i .mainType

/-- The functions can be those of one module: no two are exported under one name, and a function that
is imported and exported again keeps its type. -/
structure Consistent (i : Interface) : Prop where
  names : (i.exported.map (·.name)).Nodup
  types : ∀ e ∈ i.exported, ∀ f, i.imported[e.index]? = some f → e.type = f.type

/-- What is exported as the main function comes after the functions that are imported. -/
def MainIsOwn (i : Interface) : Prop :=
  (∃ e ∈ i.exported, e.name = mainName) ∧
    ∀ e ∈ i.exported, e.name = mainName → i.imported.length ≤ e.index

end Interface

namespace Layout

/-- The function that is imported, by an import of a function. -/
def importedFunction? (l : Layout) (i : Import) : Option ImportedFunction :=
  match i.kind with
  | .function t => (l.types[t]?).map fun type => ⟨i.module, i.name, type⟩
  | _ => none

/-- The types of all functions. Those that are imported come first, the module's own after them. -/
def functionTypes (l : Layout) : List FuncType :=
  (l.imports.filterMap l.importedFunction?).map (·.type) ++
    l.functions.filterMap fun f => l.types[f.type]?

/-- The functions that the module shares with its host, as its sections list them. -/
def interface (l : Layout) : Interface where
  imported := l.imports.filterMap l.importedFunction?
  exported := l.exports.filterMap fun e =>
    match e.kind with
    | .function i => (l.functionTypes[i]?).map fun type => ⟨e.name, i, type⟩
    | _ => none

/-- What is exported as the main function is one of the module's own functions. -/
def MainIsOwn (l : Layout) : Prop :=
  (∃ e ∈ l.exports, e.name = mainName) ∧ ∀ e ∈ l.exports, e.name = mainName →
    ∃ n < l.functions.length, e.kind = .function (l.interface.imported.length + n)

end Layout

/-! ### Imported functions -/

theorem HostFunction.ofName?_name (f : HostFunction) : ofName? f.name = some f := by
  cases f <;> decide

theorem HostFunction.ofName?_eq_none {name : String} (h : ∀ f : HostFunction, f.name ≠ name) :
    ofName? name = none := by
  refine List.find?_eq_none.mpr fun f _ hf => h f ?_
  exact beq_iff_eq.mp hf

namespace ImportedFunction

variable {f : ImportedFunction} {imported : List ImportedFunction}

theorem check_of_provided (h : f.Provided) : f.check = .ok () := by
  obtain ⟨hmodule, host, hname, htype⟩ := h
  simp only [check, hmodule, ← hname, HostFunction.ofName?_name, htype]
  simp

theorem check_of_fault {err : LinkError} (h : f.Fault err) : f.check = .error err := by
  cases h with
  | unknownModule hmodule => rw [check, if_pos hmodule]
  | unknownFunction hmodule hname =>
    simp only [check, if_neg (not_not.mpr hmodule), HostFunction.ofName?_eq_none hname]
  | signature hmodule hname hne =>
    simp only [check, if_neg (not_not.mpr hmodule), ← hname, HostFunction.ofName?_name, if_neg hne]

theorem provided_or_fault (f : ImportedFunction) : f.Provided ∨ ∃ err, f.Fault err := by
  by_cases hmodule : f.module = HostFunction.moduleName
  · by_cases hname : ∃ h : HostFunction, h.name = f.name
    · obtain ⟨host, hname⟩ := hname
      by_cases htype : f.type = host.type
      · exact .inl ⟨hmodule, host, hname, htype⟩
      · exact .inr ⟨_, .signature hmodule hname htype⟩
    · exact .inr ⟨_, .unknownFunction hmodule (not_exists.mp hname)⟩
  · exact .inr ⟨_, .unknownModule hmodule⟩

/-- All functions are provided, or there is a first one that is not. -/
theorem all_provided_or_first_fault (imported : List ImportedFunction) :
    (∀ f ∈ imported, f.Provided) ∨ ∃ before f after err,
      imported = before ++ f :: after ∧ (∀ g ∈ before, g.Provided) ∧ f.Fault err := by
  induction imported with
  | nil => exact .inl fun f hf => absurd hf List.not_mem_nil
  | cons f imported ih =>
    rcases f.provided_or_fault with hf | ⟨err, hfault⟩
    · rcases ih with hall | ⟨before, g, after, err, rfl, hbefore, hfault⟩
      · exact .inl (List.forall_mem_cons.mpr ⟨hf, hall⟩)
      · exact .inr ⟨f :: before, g, after, err, rfl, List.forall_mem_cons.mpr ⟨hf, hbefore⟩, hfault⟩
    · exact .inr ⟨[], f, imported, err, rfl, fun g hg => absurd hg List.not_mem_nil, hfault⟩

theorem forM_check_of_provided (h : ∀ f ∈ imported, f.Provided) : imported.forM check = .ok () := by
  induction imported with
  | nil => rfl
  | cons f imported ih =>
    obtain ⟨hf, hrest⟩ := List.forall_mem_cons.mp h
    rw [List.forM_eq_forM, List.forM_cons, check_of_provided hf]
    exact ih hrest

theorem forM_check_of_fault {before after : List ImportedFunction} {err : LinkError}
    (hbefore : ∀ g ∈ before, g.Provided) (h : f.Fault err) :
    (before ++ f :: after).forM check = .error err := by
  have hpass := forM_check_of_provided hbefore
  rw [List.forM_eq_forM] at hpass ⊢
  rw [List.forM_append, List.forM_cons, hpass, check_of_fault h]
  rfl

end ImportedFunction

/-! ### The check -/

namespace Interface

variable {i : Interface}

/-- A module links, or there is a reason why it does not. -/
theorem links_or_fault (i : Interface) : i.Links ∨ ∃ err, i.LinkFault err := by
  rcases ImportedFunction.all_provided_or_first_fault i.imported
    with hall | ⟨before, f, after, err, himported, hbefore, hfault⟩
  · by_cases hmain : ∃ e ∈ i.exported, e.name = mainName
    · obtain ⟨e, he, hname⟩ := hmain
      by_cases htype : e.type = mainType
      · exact .inl ⟨hall, e, he, hname, htype⟩
      · exact .inr ⟨_, .mainType hall he hname htype⟩
    · exact .inr ⟨_, .noMain hall fun e he hname => hmain ⟨e, he, hname⟩⟩
  · exact .inr ⟨err, .import_ himported hbefore hfault⟩

namespace Consistent

/-- An exported function is found by its name. -/
theorem exported?_of_mem (h : i.Consistent) {e : ExportedFunction} (he : e ∈ i.exported)
    {name : String} (hname : e.name = name) : i.exported? name = some e := by
  cases hfound : i.exported? name with
  | none =>
    have hnone := List.find?_eq_none.mp hfound e he
    exact absurd (beq_iff_eq.mpr hname) hnone
  | some d =>
    have hd : d.name = name := by simpa using List.find?_some hfound
    rw [List.inj_on_of_nodup_map h.names (List.mem_of_find?_eq_some hfound) he (hd.trans hname.symm)]

theorem check_of_links (h : i.Consistent) (hlinks : i.Links) : i.check = .ok () := by
  obtain ⟨hall, e, he, hname, htype⟩ := hlinks
  have hmain : i.checkMain = .ok () := by
    simp only [checkMain, h.exported?_of_mem he hname, htype, if_true]
  rw [check, ImportedFunction.forM_check_of_provided hall]
  exact hmain

/-- The check gives the reason why a module does not link. -/
theorem check_of_fault (h : i.Consistent) {err : LinkError} (hfault : i.LinkFault err) :
    i.check = .error err := by
  unfold check
  cases hfault with
  | import_ himported hbefore hfault =>
    rw [himported, ImportedFunction.forM_check_of_fault hbefore hfault]
    rfl
  | noMain hall hnone =>
    have hmain : i.exported? mainName = none :=
      List.find?_eq_none.mpr fun e he hname => hnone e he (beq_iff_eq.mp hname)
    have hcheck : i.checkMain = .error .noMain := by simp only [checkMain, hmain]
    rw [ImportedFunction.forM_check_of_provided hall]
    exact hcheck
  | mainType hall he hname hne =>
    have hcheck : i.checkMain = .error .mainType := by
      simp only [checkMain, h.exported?_of_mem he hname, if_neg hne]
    rw [ImportedFunction.forM_check_of_provided hall]
    exact hcheck

theorem check_eq_ok_iff (h : i.Consistent) : i.check = .ok () ↔ i.Links := by
  refine ⟨?_, h.check_of_links⟩
  intro hok
  rcases i.links_or_fault with hlinks | ⟨err, hfault⟩
  · exact hlinks
  · rw [h.check_of_fault hfault] at hok
    contradiction

theorem check_eq_error_iff (h : i.Consistent) {err : LinkError} :
    i.check = .error err ↔ i.LinkFault err := by
  refine ⟨?_, h.check_of_fault⟩
  intro herror
  rcases i.links_or_fault with hlinks | ⟨err', hfault⟩
  · rw [h.check_of_links hlinks] at herror
    contradiction
  · rw [h.check_of_fault hfault] at herror
    exact Except.error.inj herror ▸ hfault

/-- The main function of a module that links is not one that it imports: the types of those are the
types of host functions. -/
theorem mainIsOwn (h : i.Consistent) (hlinks : i.Links) : i.MainIsOwn := by
  obtain ⟨hall, main, hmain, hname, htype⟩ := hlinks
  refine ⟨⟨main, hmain, hname⟩, ?_⟩
  intro e he hsame
  obtain rfl := List.inj_on_of_nodup_map h.names he hmain (hsame.trans hname.symm)
  by_contra hlt
  -- Were it imported, its type would be that of a host function.
  have hindex := List.getElem?_eq_getElem (Nat.lt_of_not_le hlt)
  obtain ⟨_, host, _, hhost⟩ := hall _ (List.mem_of_getElem? hindex)
  have hfunction := h.types e he _ hindex
  exact host.type_ne_mainType (hhost.symm.trans (hfunction.symm.trans htype))

end Consistent

end Interface

/-! ### Valid modules -/

theorem Layout.nodup_of_distinct {names : List String} (h : distinct names = true) :
    names.Nodup := by
  induction names with
  | nil => exact List.nodup_nil
  | cons n names ih =>
    simp only [distinct, Bool.and_eq_true, Bool.not_eq_true', List.contains_eq_mem,
      decide_eq_false_iff_not] at h
    exact List.nodup_cons.mpr ⟨h.1, ih h.2⟩

theorem Layout.importedFunctions?_some {l : Layout} {imports : List Import}
    {imported : List ImportedFunction} (h : importedFunctions? l.types imports = some imported) :
    imports.filterMap l.importedFunction? = imported := by
  induction imports generalizing imported with
  | nil => exact Option.some.inj h
  | cons i imports ih =>
    unfold importedFunctions? at h
    split at h
    · rename_i t hkind
      simp only [Option.bind_eq_bind, Option.bind_eq_some_iff] at h
      obtain ⟨type, htype, rest, hrest, himported⟩ := h
      have hsome : l.importedFunction? i = some ⟨i.module, i.name, type⟩ := by
        simp only [importedFunction?, hkind, htype, Option.map_some]
      rw [List.filterMap_cons_some hsome, ih hrest]
      exact Option.some.inj himported
    · rename_i hother
      have hnone : l.importedFunction? i = none := by
        unfold importedFunction?
        split
        · exact absurd ‹_› (hother _)
        · rfl
      rw [List.filterMap_cons_none hnone, ih h]

namespace Executable.Validated

variable {x : Executable}

theorem functionTypes_eq (h : x.Validated) : x.functionTypes = x.layout.functionTypes := by
  have hown : x.layout.functions.filterMap (fun f => x.layout.types[f.type]?) =
      x.own.map (·.type) := by
    have hsome := congrArg (List.filterMap id) h.own
    rw [List.filterMap_map, List.filterMap_map] at hsome
    exact hsome.trans (List.filterMap_eq_map ▸ rfl)
  rw [functionTypes, Layout.functionTypes, Layout.importedFunctions?_some h.imported, hown]

/-- The check is given the functions that the sections list. -/
theorem interface_eq (h : x.Validated) : x.interface = x.layout.interface := by
  unfold interface Layout.interface
  rw [Layout.importedFunctions?_some h.imported, ← h.functionTypes_eq]
  rfl

theorem nodup_exports (h : x.Validated) : (x.layout.exports.map (·.name)).Nodup := by
  have hvalid := h.declarations
  simp only [Layout.isValid, Layout.exportsValid, Bool.and_eq_true] at hvalid
  exact Layout.nodup_of_distinct hvalid.1.1.1.2.2

theorem consistent (h : x.Validated) : x.interface.Consistent := by
  constructor
  · have hnames := List.pairwise_map.mp h.nodup_exports
    refine List.pairwise_map.mpr (hnames.filterMap _ ?_)
    intro d d' hne e he e' he'
    rw [(exportedFunction?_eq_some.mp he).1, (exportedFunction?_eq_some.mp he').1] at hne
    exact hne
  · intro e he f hf
    obtain ⟨_, htype⟩ := mem_exported.mp he
    have hlt : e.index < (x.imported.map (·.type)).length := by
      rw [List.length_map]
      exact (List.getElem?_eq_some_iff.mp hf).1
    rw [functionTypes, List.getElem?_append_left hlt, List.getElem?_map] at htype
    have hf' : x.imported[e.index]? = some f := hf
    rw [hf'] at htype
    exact (Option.some.inj htype).symm

/-- The main function of a valid module that links is one of its own functions. -/
theorem mainIsOwn (h : x.Validated) (hlinks : x.interface.Links) : x.layout.MainIsOwn := by
  obtain ⟨⟨main, hmain, hname⟩, hown⟩ := h.consistent.mainIsOwn hlinks
  obtain ⟨hmem, htype⟩ := mem_exported.mp hmain
  refine ⟨⟨_, hmem, hname⟩, ?_⟩
  intro e he hsame
  obtain rfl := List.inj_on_of_nodup_map h.nodup_exports he hmem (hsame.trans hname.symm)
  have hle : x.imported.length ≤ main.index := hown main hmain hname
  have hlt : main.index < x.imported.length + x.layout.functions.length := by
    have hlength : x.layout.functions.length = x.own.length := by
      simpa using congrArg List.length h.own
    have hindex := (List.getElem?_eq_some_iff.mp htype).1
    rw [functionTypes, List.length_append, List.length_map, List.length_map] at hindex
    omega
  refine ⟨main.index - x.imported.length, by omega, ?_⟩
  have himported : x.layout.interface.imported.length = x.imported.length := by
    rw [← h.interface_eq]
    rfl
  rw [himported, Nat.add_sub_cancel' hle]

end Executable.Validated

/-- Compiling a valid module that is not in the cache of an open engine succeeds exactly if the module
links. Otherwise there is one reason why it does not, which is the error, and nothing but the count of
misses changes. Whatever an engine compiles has one of its own functions as its main function. The
check gives the same for any functions that a module may share with its host, whatever else the module
has. -/
theorem Engine.compile_iff_links {e : Engine} {m : Module} {l : Layout} {x : Executable}
    (hread : Layout.decode m.binary = some l) (hvalid : Executable.ofLayout? m.hash l = some x)
    (hlimit : l.memoriesWithin e.pageLimit = true) (hopen : e.closed = false)
    (hmiss : e.cache.find? m.hash = none) :
    ((∃ y, (e.compile (some m)).2 = .ok y) ↔ l.interface.Links) ∧
    (l.interface.Links → (e.compile (some m)).2 = .ok x ∧ l.MainIsOwn) ∧
    (¬ l.interface.Links → ∃ fault, l.interface.LinkFault fault) ∧
    (∀ fault, l.interface.LinkFault fault →
      e.compile (some m) = ({ e with misses := e.misses + 1 }, .error (.link fault))) ∧
    (∀ (history : List Module) (other : Engine) (m' : Option Module) (y : Executable),
      other.Reached history → (other.compile m').2 = .ok y → y.layout.MainIsOwn) ∧
    ∀ i : Interface, i.Consistent → (i.check = .ok () ↔ i.Links) ∧
      (∀ fault, i.check = .error fault ↔ i.LinkFault fault) ∧ (i.Links → i.MainIsOwn) := by
  obtain ⟨rfl, hx⟩ := Executable.validated_of_ofLayout? hvalid
  rw [← hx.interface_eq]
  have hbinary : Executable.ofBinary? m.hash m.binary = some x := by
    rw [Executable.ofBinary?, hread]
    exact hvalid
  have hok (hlinks : x.interface.Links) : (e.compile (some m)).2 = .ok x := by
    have haccepts : e.Accepts m x := ⟨hbinary, hlimit, hx.consistent.check_of_links hlinks⟩
    simp only [compile, hmiss, haccepts.compileFresh hopen]
  have herror (fault : LinkError) (hfault : x.interface.LinkFault fault) :
      e.compile (some m) = ({ e with misses := e.misses + 1 }, .error (.link fault)) := by
    have hcheck : x.checkLinks = .error fault := hx.consistent.check_of_fault hfault
    simp only [compile, hmiss, compileFresh, hopen, hbinary, hlimit, hcheck]
    rfl
  refine ⟨⟨?_, fun hlinks => ⟨x, hok hlinks⟩⟩, fun hlinks => ⟨hok hlinks, hx.mainIsOwn hlinks⟩,
    x.interface.links_or_fault.resolve_left, herror, ?_, ?_⟩
  · rintro ⟨y, hy⟩
    rcases x.interface.links_or_fault with hlinks | ⟨fault, hfault⟩
    · exact hlinks
    · rw [herror fault hfault] at hy
      contradiction
  · intro history other m' y hreached hcompile
    have hlinked := hreached.linked hcompile
    exact hlinked.validated.mainIsOwn (hlinked.validated.consistent.check_eq_ok_iff.mp hlinked.links)
  · intro i hi
    exact ⟨hi.check_eq_ok_iff, fun fault => hi.check_eq_error_iff, hi.mainIsOwn⟩

/-- A module with two imported functions that the host does not provide, the first of them for its type,
and a memory as its main function. -/
def mismatchedLayout : Layout where
  types := [⟨[.i32], []⟩, ⟨[.i64], [.i32]⟩, mainType]
  imports := [⟨"internal", "rule_match", .function 0⟩, ⟨"env", "table", .table ⟨.funcref, ⟨1, none⟩⟩⟩,
    ⟨"internal", "is_pat_match", .function 1⟩, ⟨"env", "log", .function 2⟩]
  memories := [⟨1, some 2⟩]
  exports := [⟨mainName, .memory 0⟩]

/-- The error of such a module is about the type of its second imported function. -/
theorem Engine.compile_mismatchedLayout :
    ∃ e, Engine.new [.memoryLimit 1] = .ok e ∧
      e.compile (some (.ofLayout mismatchedLayout [] .unset)) =
        ({ e with misses := 1 }, .error (.link (.signature "internal" "is_pat_match"
          ⟨[.i64], [.i32]⟩ ⟨[.i32], [.i32]⟩))) := by
  let e := Engine.fresh { EngineSettings.default with memoryLimit := some 1 }
  refine ⟨e, rfl, ?_⟩
  obtain ⟨_, _, _, hfault, _⟩ := Engine.compile_iff_links (e := e)
    (m := .ofLayout mismatchedLayout [] .unset) (Layout.decode_encode _) rfl rfl rfl rfl
  have himported : mismatchedLayout.interface.imported =
    [⟨"internal", "rule_match", ⟨[.i32], []⟩⟩] ++
      ⟨"internal", "is_pat_match", ⟨[.i64], [.i32]⟩⟩ :: [⟨"env", "log", mainType⟩] := rfl
  refine hfault _ (.import_ himported ?_ (.signature (h := .isPatternMatch) rfl rfl (by decide)))
  intro f hf
  obtain rfl := List.mem_singleton.mp hf
  exact ⟨rfl, .ruleMatch, rfl, rfl⟩

end RuleScan
