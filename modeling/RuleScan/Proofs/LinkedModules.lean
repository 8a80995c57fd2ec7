import RuleScan.Proofs.EngineHistory
import RuleScan.Proofs.RunLimits
import RuleScan.Proofs.TypeSoundness

/-!
# Linked modules

What an executable that was validated and passed the link check is like. Its main function is one of
the module's own functions, and neither takes nor gives anything. An instance of it has a host function
for each import, of the type that the import has in the module; so the code of each of its functions is
valid. There is an instance exactly if only functions are imported and the data fits in its memory,
neither of which the link check looks at.
-/
namespace RuleScan

theorem Value.type_zero (t : ValType) : (zero t).type = t := by
  cases t <;> rfl

/-- No host function has the type of a main function. -/
theorem HostFunction.type_ne_mainType (h : HostFunction) : h.type ≠ mainType := by
  cases h <;> decide

/-- `mapM` gives a result for each element. -/
theorem map_of_mapM {α β : Type} {f : α → Option β} {xs : List α} {ys : List β}
    (h : xs.mapM f = some ys) : xs.map f = ys.map some := by
  induction xs generalizing ys with
  | nil =>
    obtain rfl : [] = ys := Option.some.inj h
    rfl
  | cons x xs ih =>
    simp only [List.mapM_cons, Option.bind_eq_bind, Option.bind_eq_some_iff] at h
    obtain ⟨y, hy, rest, hrest, heq⟩ := h
    obtain rfl : y :: rest = ys := Option.some.inj heq
    rw [List.map_cons, List.map_cons, hy, ih hrest]

theorem exists_of_mapM {α β : Type} {f : α → Option β} {xs : List α} {ys : List β}
    (h : xs.mapM f = some ys) {y : β} (hy : y ∈ ys) : ∃ x ∈ xs, f x = some y := by
  have hmem : some y ∈ xs.map f := map_of_mapM h ▸ List.mem_map_of_mem hy
  exact List.mem_map.mp hmem

/-! ### Validation -/

namespace Layout

/-- Each import of a function gives one, of a type that exists. -/
theorem mem_of_importedFunctions? {types : List FuncType} {imports : List Import}
    {imported : List ImportedFunction} (h : importedFunctions? types imports = some imported)
    {i : Import} (hi : i ∈ imports) {t : Nat} (hkind : i.kind = .function t) :
    ∃ type, types[t]? = some type ∧ ⟨i.module, i.name, type⟩ ∈ imported := by
  induction imports generalizing imported with
  | nil => contradiction
  | cons j imports ih =>
    unfold importedFunctions? at h
    split at h
    · rename_i t' hkind'
      simp only [Option.bind_eq_bind, Option.bind_eq_some_iff] at h
      obtain ⟨type, htype, rest, hrest, himported⟩ := h
      obtain rfl := Option.some.inj himported
      rcases List.mem_cons.mp hi with rfl | hmem
      · obtain rfl := ImportKind.function.inj (hkind.symm.trans hkind')
        exact ⟨type, htype, List.mem_cons_self⟩
      · obtain ⟨type', htype', hmem'⟩ := ih hrest hmem
        exact ⟨type', htype', List.mem_cons_of_mem _ hmem'⟩
    · rename_i hother
      rcases List.mem_cons.mp hi with rfl | hmem
      · exact absurd hkind (hother t)
      · exact ih h hmem

/-- What validation has established of a function. -/
theorem ownFunction?_some {types functions : List FuncType} {b : FunctionBody} {f : OwnFunction}
    (h : ownFunction? types functions b = some f) :
    types[b.type]? = some f.type ∧ f.code.isValidBody
      ⟨types, functions, f.type.params ++ f.locals.map Value.type, [], f.type.results⟩ = true := by
  simp only [ownFunction?, Option.bind_eq_bind, Option.bind_eq_some_iff, Option.guard_eq_some'] at h
  obtain ⟨_, _, type, htype, _, _, code, _, _, hvalid, hf⟩ := h
  obtain rfl := Option.some.inj hf
  have hlocals : (b.locals.map Value.zero).map Value.type = b.locals := by
    rw [List.map_map]
    exact List.map_id'' Value.type_zero b.locals
  rw [hlocals]
  exact ⟨htype, hvalid⟩

/-- The functions that were validated have the types that were declared. -/
theorem map_type_ownFunctions {types functions : List FuncType} {bodies : List FunctionBody}
    {own : List OwnFunction} {declared : List FuncType}
    (hown : bodies.mapM (ownFunction? types functions) = some own)
    (hdeclared : bodies.mapM (fun b => types[b.type]?) = some declared) :
    own.map (·.type) = declared := by
  induction bodies generalizing own declared with
  | nil =>
    obtain rfl : [] = own := Option.some.inj hown
    exact Option.some.inj hdeclared
  | cons b bodies ih =>
    simp only [List.mapM_cons, Option.bind_eq_bind, Option.bind_eq_some_iff] at hown hdeclared
    obtain ⟨f, hf, fs, hfs, hown⟩ := hown
    obtain ⟨t, ht, ts, hts, hdeclared⟩ := hdeclared
    obtain rfl := Option.some.inj hown
    obtain rfl := Option.some.inj hdeclared
    obtain ⟨htype, _⟩ := ownFunction?_some hf
    rw [List.map_cons, ih hfs hts, Option.some.inj (htype.symm.trans ht)]

end Layout

namespace Executable

variable {x : Executable}

/-- What validation has established of an executable. -/
structure Validated (x : Executable) : Prop where
  imported : Layout.importedFunctions? x.layout.types x.layout.imports = some x.imported
  own : x.layout.functions.map (fun f => x.layout.types[f.type]?) = x.own.map (some ·.type)
  declarations : x.layout.isValid x.functionTypes = true
  code : ∀ f ∈ x.own, f.code.isValidBody ⟨x.layout.types, x.functionTypes,
    f.type.params ++ f.locals.map Value.type, [], f.type.results⟩ = true

theorem validated_of_ofLayout? {hash : String} {l : Layout} (h : ofLayout? hash l = some x) :
    x.layout = l ∧ x.Validated := by
  simp only [ofLayout?, Option.bind_eq_bind, Option.bind_eq_some_iff, Option.guard_eq_some'] at h
  obtain ⟨imported, himported, declared, hdeclared, _, hvalid, own, hown, hx⟩ := h
  obtain rfl := Option.some.inj hx
  obtain rfl := Layout.map_type_ownFunctions hown hdeclared
  refine ⟨rfl, himported, by rw [map_of_mapM hdeclared, List.map_map]; rfl, hvalid, ?_⟩
  intro f hf
  obtain ⟨b, _, hb⟩ := exists_of_mapM hown hf
  exact (Layout.ownFunction?_some hb).2

theorem validated_of_ofBinary? {hash : String} {binary : List UInt8}
    (h : ofBinary? hash binary = some x) : x.Validated := by
  obtain ⟨l, _, hl⟩ := Option.bind_eq_some_iff.mp h
  exact (validated_of_ofLayout? hl).2

end Executable

/-! ### The link check -/

namespace ImportedFunction

variable {f : ImportedFunction}

theorem resolve?_eq_some {h : HostFunction} : f.resolve? = some h ↔
    f.module = HostFunction.moduleName ∧ HostFunction.ofName? f.name = some h ∧ f.type = h.type := by
  simp only [resolve?, Option.bind_eq_bind, Option.bind_eq_some_iff, Option.guard_eq_some']
  constructor
  · rintro ⟨_, hmodule, g, hname, _, htype, hg⟩
    obtain rfl := Option.some.inj hg
    exact ⟨hmodule, hname, htype⟩
  · rintro ⟨hmodule, hname, htype⟩
    exact ⟨(), hmodule, h, hname, (), htype, rfl⟩

/-- The link check passes a function exactly if it can be resolved. -/
theorem check_eq_ok : f.check = .ok () ↔ ∃ h, f.resolve? = some h := by
  simp only [resolve?_eq_some, check]
  by_cases hmodule : f.module = HostFunction.moduleName
  · cases hname : HostFunction.ofName? f.name with
    | none => simp [hmodule]
    | some h =>
      by_cases htype : f.type = h.type
      · simp [hmodule, htype]
      · simp [hmodule, htype]
  · simp [hmodule]

/-- Functions that pass the link check are resolved to host functions of their types. -/
theorem mapM_resolve? {imported : List ImportedFunction} (h : ∀ f ∈ imported, f.check = .ok ()) :
    ∃ hosts, imported.mapM resolve? = some hosts ∧ hosts.map (·.type) = imported.map (·.type) := by
  induction imported with
  | nil => exact ⟨[], rfl, rfl⟩
  | cons f imported ih =>
    obtain ⟨hf, hrest⟩ := List.forall_mem_cons.mp h
    obtain ⟨host, hhost⟩ := check_eq_ok.mp hf
    obtain ⟨hosts, hhosts, htypes⟩ := ih hrest
    refine ⟨host :: hosts, ?_, ?_⟩
    · rw [List.mapM_cons, hhost, hhosts]
      rfl
    · rw [List.map_cons, List.map_cons, htypes, (resolve?_eq_some.mp hhost).2.2]

end ImportedFunction

theorem check_of_forM {imported : List ImportedFunction}
    (h : imported.forM ImportedFunction.check = .ok ()) {f : ImportedFunction} (hf : f ∈ imported) :
    f.check = .ok () := by
  induction imported with
  | nil => contradiction
  | cons g imported ih =>
    rw [List.forM_eq_forM, List.forM_cons] at h
    cases hg : g.check with
    | error err =>
      rw [hg] at h
      contradiction
    | ok u =>
      rw [hg] at h
      rcases List.mem_cons.mp hf with rfl | hrest
      · exact hg
      · exact ih h hrest

/-- What the link check has established. -/
theorem Interface.check_ok {i : Interface} (h : i.check = .ok ()) :
    (∀ f ∈ i.imported, f.check = .ok ()) ∧
      ∃ e, i.exported? mainName = some e ∧ e.type = mainType := by
  unfold check at h
  cases himports : i.imported.forM ImportedFunction.check with
  | error err =>
    rw [himports] at h
    contradiction
  | ok u =>
    rw [himports] at h
    have hmain : i.checkMain = .ok () := h
    refine ⟨fun f hf => check_of_forM himports hf, ?_⟩
    unfold checkMain at hmain
    split at hmain
    · contradiction
    · rename_i e he
      split at hmain
      · exact ⟨e, he, ‹_›⟩
      · contradiction

/-! ### Instances -/

namespace Executable

variable {x : Executable}

/-- An executable that was validated and passed the link check. -/
structure Linked (x : Executable) : Prop where
  validated : x.Validated
  links : x.checkLinks = .ok ()

theorem exportedFunction?_eq_some {d : Export} {e : ExportedFunction} :
    x.exportedFunction? d = some e ↔
      d = ⟨e.name, .function e.index⟩ ∧ x.functionTypes[e.index]? = some e.type := by
  obtain ⟨name, kind⟩ := d
  obtain ⟨name', index, type⟩ := e
  unfold exportedFunction?
  cases kind with
  | function i =>
    simp only [Option.map_eq_some_iff, ExportedFunction.mk.injEq, Export.mk.injEq,
      ExportKind.function.injEq]
    constructor
    · rintro ⟨_, htype, rfl, rfl, rfl⟩
      exact ⟨⟨rfl, rfl⟩, htype⟩
    · rintro ⟨⟨rfl, rfl⟩, htype⟩
      exact ⟨type, htype, rfl, rfl, rfl⟩
  | table i => simp
  | memory i => simp
  | global i => simp

/-- The functions that are exported are functions of their indexes and types. -/
theorem mem_exported {e : ExportedFunction} : e ∈ x.interface.exported ↔
    ⟨e.name, .function e.index⟩ ∈ x.layout.exports ∧ x.functionTypes[e.index]? = some e.type := by
  simp only [interface, List.mem_filterMap, exportedFunction?_eq_some]
  constructor
  · rintro ⟨_, hmem, rfl, htype⟩
    exact ⟨hmem, htype⟩
  · rintro ⟨hmem, htype⟩
    exact ⟨_, hmem, rfl, htype⟩

/-- A linked executable can be instantiated exactly if it imports functions only and its data fits. -/
theorem Linked.instantiate?_eq_some (h : x.Linked) {m : Instance} :
    x.instantiate? = some m ↔ x.layout.imports.all Import.isFunction = true ∧
      x.layout.dataFits = true ∧ ∃ hosts, hosts.map (·.type) = x.imported.map (·.type) ∧
        x.imported.mapM ImportedFunction.resolve? = some hosts ∧
        m = ⟨x.layout.types, x.callees hosts, x.own⟩ := by
  obtain ⟨hchecks, _⟩ := Interface.check_ok h.links
  obtain ⟨hosts, hhosts, htypes⟩ := ImportedFunction.mapM_resolve? hchecks
  have himported : x.imported.mapM ImportedFunction.resolve? = some hosts := hhosts
  simp only [instantiate?, himported, Option.bind_eq_bind, Option.bind_some,
    Option.bind_eq_some_iff, Option.guard_eq_some']
  constructor
  · rintro ⟨_, hfunctions, _, hdata, hm⟩
    exact ⟨hfunctions, hdata, hosts, htypes, rfl, (Option.some.inj hm).symm⟩
  · rintro ⟨hfunctions, hdata, hosts', _, hsame, rfl⟩
    obtain rfl := Option.some.inj hsame
    exact ⟨(), hfunctions, (), hdata, rfl⟩

theorem Linked.exists_instance (h : x.Linked)
    (himports : x.layout.imports.all Import.isFunction = true) (hdata : x.layout.dataFits = true) :
    ∃ m, x.instantiate? = some m := by
  obtain ⟨hchecks, _⟩ := Interface.check_ok h.links
  obtain ⟨hosts, hhosts, htypes⟩ := ImportedFunction.mapM_resolve? hchecks
  exact ⟨_, h.instantiate?_eq_some.mpr ⟨himports, hdata, hosts, htypes, hhosts, rfl⟩⟩

theorem map_type_callees {hosts : List HostFunction}
    (h : hosts.map (·.type) = x.imported.map (·.type)) :
    (x.callees hosts).map Callee.type = x.functionTypes := by
  have hown : (x.own.mapIdx fun n f => Callee.own n f.type).map Callee.type = x.own.map (·.type) := by
    refine List.ext_getElem? fun n => ?_
    simp only [List.getElem?_map, List.getElem?_mapIdx]
    cases x.own[n]? <;> rfl
  rw [callees, functionTypes, List.map_append, hown, List.map_map, ← h]
  rfl

theorem own_of_mem_callees {hosts : List HostFunction} {n : Nat} {t : FuncType}
    (h : .own n t ∈ x.callees hosts) : ∃ f, x.own[n]? = some f ∧ f.type = t := by
  rcases List.mem_append.mp h with hhost | hown
  · obtain ⟨_, _, heq⟩ := List.mem_map.mp hhost
    contradiction
  · obtain ⟨i, hi, heq⟩ := List.mem_mapIdx.mp hown
    obtain ⟨rfl, rfl⟩ := Callee.own.inj heq
    exact ⟨x.own[i], List.getElem?_eq_getElem hi, rfl⟩

theorem Linked.valid_instance (h : x.Linked) {m : Instance} (hm : x.instantiate? = some m) :
    m.Valid := by
  obtain ⟨_, _, hosts, htypes, _, rfl⟩ := h.instantiate?_eq_some.mp hm
  refine ⟨fun n t ht => own_of_mem_callees ht, ?_⟩
  intro f hf
  show f.code.isValidBody ⟨_, (x.callees hosts).map Callee.type, _, _, _⟩ = true
  rw [map_type_callees htypes]
  exact h.validated.code f hf

/-- The main function of a linked executable is one of the module's own functions, and neither takes
nor gives anything. -/
theorem Linked.main (h : x.Linked) {m : Instance} (hm : x.instantiate? = some m) :
    ∃ main n f, x.exported? mainName = some main ∧ m.functions[main]? = some (.own n mainType) ∧
      m.own[n]? = some f ∧ f.type = mainType := by
  obtain ⟨_, _, hosts, htypes, _, rfl⟩ := h.instantiate?_eq_some.mp hm
  obtain ⟨_, e, hexported, htype⟩ := Interface.check_ok h.links
  obtain ⟨_, hindex⟩ := mem_exported.mp (List.mem_of_find?_eq_some hexported)
  rw [htype, ← map_type_callees htypes, List.getElem?_map, Option.map_eq_some_iff] at hindex
  obtain ⟨callee, hcallee, hcalleeType⟩ := hindex
  cases callee with
  | host host => exact absurd hcalleeType host.type_ne_mainType
  | own n t =>
    obtain rfl : t = mainType := hcalleeType
    obtain ⟨f, hf, hftype⟩ := own_of_mem_callees (List.mem_of_getElem? hcallee)
    exact ⟨e.index, n, f, by rw [exported?, hexported]; rfl, hcallee, hf, hftype⟩

/-- If a linked executable has only one function of its own, that is the main function. -/
theorem Linked.own_of_single (h : x.Linked) (hsingle : x.own.length = 1) {m : Instance}
    (hm : x.instantiate? = some m) (n : Nat) (t : FuncType) (ht : .own n t ∈ m.functions) :
    n = 0 ∧ t.params = [] := by
  obtain ⟨_, n', f', _, _, hf', htype'⟩ := h.main hm
  obtain ⟨f, hf, rfl⟩ := (h.valid_instance hm).own n t ht
  obtain ⟨_, _, hosts, _, _, rfl⟩ := h.instantiate?_eq_some.mp hm
  have hn : n < x.own.length := (List.getElem?_eq_some_iff.mp hf).1
  have hn' : n' < x.own.length := (List.getElem?_eq_some_iff.mp hf').1
  -- Both the main function and the one at hand are at the only place.
  obtain rfl : n = 0 := by omega
  obtain rfl : n' = 0 := by omega
  obtain rfl : f = f' := Option.some.inj (hf.symm.trans hf')
  exact ⟨rfl, by rw [htype']; rfl⟩

end Executable

/-- What an engine compiles is linked. -/
theorem Engine.Reached.linked {history : List Module} {e : Engine} (h : e.Reached history)
    {m : Option Module} {x : Executable} (hcompile : (e.compile m).2 = .ok x) : x.Linked := by
  obtain ⟨m', haccepts⟩ := h.compile_accepted hcompile
  exact ⟨Executable.validated_of_ofBinary? haccepts.valid, haccepts.links⟩

end RuleScan
