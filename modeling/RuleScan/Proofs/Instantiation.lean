import RuleScan.Proofs.ModuleReports

/-!
# Instantiation of compiled modules

Two steps look at the imports of a module: the link check when it is compiled, and the resolution of
imports when it is run. They agree on functions, so a compiled module only imports functions that the
host provides. The link check passes over tables, memories and globals, of which the host provides
none. Nor does it look at what else is done at an instantiation. A compiled module can therefore always
be instantiated exactly if it imports functions only, its data fits in its memory, and no function runs
at its instantiation; built modules are of this kind.
-/
namespace RuleScan

/-- The run has failed before its main function was looked for. -/
def RunError.AtInstantiation (e : RunError) : Prop := e = .instantiation ∨ e = .startCanceled

/-- A function that takes parameters or does not exist is refused. -/
theorem Instance.run_of_not_runnable {m : Instance} {i : Nat} (h : ¬ m.runnable i = true)
    (limits : Limits) (scan : ScanState) : m.run limits i scan = (.error .stuck, scan) := by
  unfold Instance.run
  cases hi : m.functions[i]? with
  | none => rfl
  | some callee =>
    refine if_pos ?_
    intro hparams
    refine h ?_
    rw [runnable, hi, Option.any_some, hparams]
    rfl

/-- If the run is canceled, a function that is to run at the instantiation does not: it is refused, or
the run is reported as canceled there. -/
theorem Instance.start_canceled (m : Instance) (limits : Limits) {fs : List Nat} (hfs : fs ≠ [])
    (scan : ScanState) :
    ∃ err, Engine.start limits true m fs scan = (.error err, scan) ∧ err.AtInstantiation := by
  obtain ⟨i, rest, rfl⟩ := List.exists_cons_of_ne_nil hfs
  by_cases hrunnable : m.runnable i = true
  · refine ⟨.startCanceled, ?_, .inr rfl⟩
    simp only [Engine.start, hrunnable]
    rfl
  · refine ⟨.instantiation, ?_, .inl rfl⟩
    simp only [Engine.start, Bool.true_and, if_neg hrunnable, run_of_not_runnable hrunnable]

namespace Executable

variable {x : Executable}

/-- No run on an open engine fails at the instantiation. -/
def AlwaysInstantiates (x : Executable) : Prop :=
  ∀ (e : Engine) (limits : Limits) (canceled : Bool) (scan : ScanState) (err : RunError),
    e.closed = false → (e.run limits canceled (some x) (some scan)).1 = .error err →
      ¬ err.AtInstantiation

/-! ### The two looks at an import -/

/-- The functions that a linked executable imports are provided by the host. -/
theorem Linked.function_provided (h : x.Linked) {i : Import} (hi : i ∈ x.layout.imports) {t : Nat}
    (hkind : i.kind = .function t) :
    ∃ f, i.module = HostFunction.moduleName ∧ HostFunction.ofName? i.name = some f ∧
      x.layout.types[t]? = some f.type := by
  obtain ⟨type, htype, hmem⟩ := Layout.mem_of_importedFunctions? h.validated.imported hi hkind
  obtain ⟨hchecks, _⟩ := Interface.check_ok h.links
  obtain ⟨f, hresolve⟩ := ImportedFunction.check_eq_ok.mp (hchecks _ hmem)
  obtain ⟨hmodule, hname, hsame⟩ := ImportedFunction.resolve?_eq_some.mp hresolve
  exact ⟨f, hmodule, hname, htype.trans (congrArg some hsame)⟩

/-- A function that cannot be resolved is found by the link check. -/
theorem checkLinks_of_unresolved {f : ImportedFunction} (hf : f ∈ x.imported)
    (hnone : f.resolve? = none) : ∃ err, x.checkLinks = .error err := by
  cases hlinks : x.checkLinks with
  | error err => exact ⟨err, rfl⟩
  | ok u =>
    obtain ⟨hchecks, _⟩ := Interface.check_ok hlinks
    obtain ⟨host, hresolve⟩ := ImportedFunction.check_eq_ok.mp (hchecks f hf)
    rw [hnone] at hresolve
    contradiction

/-- There is no instance without all imports being of functions and all data fitting. -/
theorem of_instantiate? {m : Instance} (h : x.instantiate? = some m) :
    (∀ i ∈ x.layout.imports, ∃ t, i.kind = .function t) ∧ x.layout.dataFits = true := by
  simp only [instantiate?, Option.bind_eq_bind, Option.bind_eq_some_iff, Option.guard_eq_some'] at h
  obtain ⟨_, hfunctions, _, _, _, hdata, _⟩ := h
  exact ⟨all_isFunction.mp hfunctions, hdata⟩

/-! ### Runs -/

theorem run_of_no_instance (hnone : x.instantiate? = none) (e : Engine) (limits : Limits)
    (canceled : Bool) (scan : ScanState) :
    e.run limits canceled (some x) (some scan) = (.error .instantiation, some scan) := by
  simp only [Engine.run, Engine.execute, hnone]
  split <;> rfl

/-- An import that is not of a function cannot be resolved, wherever it is from. -/
theorem run_of_other_import {i : Import} (hi : i ∈ x.layout.imports)
    (hkind : ∀ t, i.kind ≠ .function t) (e : Engine) (limits : Limits) (canceled : Bool)
    (scan : ScanState) :
    e.run limits canceled (some x) (some scan) = (.error .instantiation, some scan) := by
  refine run_of_no_instance ?_ e limits canceled scan
  cases hm : x.instantiate? with
  | none => rfl
  | some m =>
    obtain ⟨t, ht⟩ := (of_instantiate? hm).1 i hi
    exact absurd ht (hkind t)

/-- Where nothing runs at the instantiation, an instance gets as far as its main function. -/
theorem Linked.not_atInstantiation (h : x.Linked) {m : Instance} (hm : x.instantiate? = some m)
    (hstart : Engine.startFunctions x = []) {e : Engine} (hopen : e.closed = false)
    {limits : Limits} {canceled : Bool} {scan : ScanState} {err : RunError}
    (herr : (e.run limits canceled (some x) (some scan)).1 = .error err) :
    ¬ err.AtInstantiation := by
  obtain ⟨n, _, _, _, hmain⟩ := h.runMain_eq hm
  simp only [Engine.run, Engine.execute, hopen, hm, hstart, Engine.start, hmain] at herr
  split at herr
  · contradiction
  · split at herr
    · obtain rfl := Except.error.inj herr
      exact fun hat => hat.elim RunError.noConfusion RunError.noConfusion
    · cases hresult : (m.invoke limits.rounds limits.calls n [] scan).1 with
      | ok results =>
        rw [hresult] at herr
        contradiction
      | error halt =>
        rw [hresult] at herr
        obtain rfl := Except.error.inj herr
        exact fun hat => hat.elim RunError.noConfusion RunError.noConfusion

/-- What can always be instantiated has an instance, and runs nothing that a canceled run could fail
in. -/
theorem AlwaysInstantiates.startsFreely (h : x.AlwaysInstantiates) : x.StartsFreely := by
  cases hm : x.instantiate? with
  | none =>
    have hrun := run_of_no_instance hm (.fresh .default) ⟨0, 0⟩ false (.new 0 none)
    exact absurd (.inl rfl) (h _ _ _ _ _ rfl (congrArg Prod.fst hrun))
  | some m =>
    obtain ⟨himports, hdata⟩ := of_instantiate? hm
    refine ⟨himports, hdata, ?_⟩
    by_contra hfs
    -- A run that is canceled fails in the first of the functions.
    let e := Engine.fresh { EngineSettings.default with closeOnDone := true }
    obtain ⟨err, hstart, hat⟩ := m.start_canceled ⟨0, 0⟩ hfs (.new 0 none)
    have hstopped : (true && e.created.closeOnDone) = true := rfl
    have hrun : (e.run ⟨0, 0⟩ true (some x) (some (.new 0 none))).1 = .error err := by
      simp only [Engine.run, Engine.execute, hm, hstopped, hstart]
      rfl
    exact h e _ _ _ _ rfl hrun hat

theorem Linked.alwaysInstantiates_iff (h : x.Linked) : x.AlwaysInstantiates ↔ x.StartsFreely := by
  refine ⟨AlwaysInstantiates.startsFreely, ?_⟩
  intro hfree e limits canceled scan err hopen herr
  obtain ⟨m, hm⟩ := h.exists_instance (all_isFunction.mpr hfree.imports) hfree.data
  exact h.not_atInstantiation hm hfree.start hopen herr

/-- A built module imports functions only, has no data, and only its main function is exported. -/
theorem startsFreely_ofBody (hash : String) (bytes : List UInt8) (code : Code) :
    (ofBody hash bytes code).StartsFreely := ⟨all_isFunction.mp rfl, rfl, rfl⟩

end Executable

/-- What a compiled module needs to be instantiated. Each function that it imports is provided by the
host. If it imports anything else, every run fails before its main function and reports nothing. It can
always be instantiated exactly if it imports functions only, its data fits in its memory, and no
function runs at its instantiation. Among modules of which no two share a hash without sharing their
binary, the built ones can always be instantiated, and a function that cannot be resolved is an error
of linking. -/
theorem Engine.compiled_instantiates {history : List Module} {e : Engine}
    (hreached : e.Reached history) (hopen : e.closed = false) (m : Module) :
    (∀ x, (e.compile (some m)).2 = .ok x →
      (∀ i ∈ x.layout.imports, ∀ t, i.kind = .function t → ∃ f,
        i.module = HostFunction.moduleName ∧ HostFunction.ofName? i.name = some f ∧
        x.layout.types[t]? = some f.type) ∧
      ((∃ i ∈ x.layout.imports, ∀ t, i.kind ≠ .function t) →
        ∀ (later : Engine) (limits : Limits) (canceled : Bool) (scan : ScanState),
          later.run limits canceled (some x) (some scan) = (.error .instantiation, some scan)) ∧
      (x.AlwaysInstantiates ↔ x.StartsFreely)) ∧
    ((∀ m' ∈ history, m'.hash = m.hash → m'.binary = m.binary) →
      (∀ (b : Builder) (x : Executable), b.build.2 = .ok m → (e.compile (some m)).2 = .ok x →
        x.AlwaysInstantiates) ∧
      ∀ x, Executable.ofBinary? m.hash m.binary = some x →
        x.layout.memoriesWithin e.pageLimit = true → (∃ f ∈ x.imported, f.resolve? = none) →
        ∃ err, (e.compile (some m)).2 = .error (.link err)) := by
  refine ⟨?_, fun hdistinct => ⟨?_, ?_⟩⟩
  · intro x hcompile
    have hlinked := hreached.linked hcompile
    refine ⟨fun i hi t hkind => hlinked.function_provided hi hkind, ?_, hlinked.alwaysInstantiates_iff⟩
    rintro ⟨i, hi, hkind⟩
    exact Executable.run_of_other_import hi hkind
  · intro b x hbuild hcompile
    obtain ⟨bytes, _, rfl⟩ := Builder.build_ok hbuild
    have haccepts := hreached.compile_ok hdistinct hcompile
    obtain ⟨_, code, _, _, _, _, rfl⟩ := Executable.ofBinary?_layoutOf.mp haccepts.valid
    exact (hreached.linked hcompile).alwaysInstantiates_iff.mpr
      (Executable.startsFreely_ofBody _ bytes code)
  · rintro x hbinary hlimit ⟨f, hf, hnone⟩
    obtain ⟨err, hlinks⟩ := Executable.checkLinks_of_unresolved hf hnone
    refine ⟨err, ?_⟩
    rw [hreached.compile_eq_compileFresh hdistinct]
    simp only [compileFresh, hopen, hbinary, hlimit, hlinks]
    rfl

/-- A built module whose run always traps can always be instantiated. -/
theorem Engine.compiled_instantiates_reportAndTrap :
    ∃ e x, Engine.new [.closeOnDone] = .ok e ∧
      (e.compile (some (Module.ofCode reportAndTrap))).2 = .ok x ∧ x.AlwaysInstantiates ∧
      (e.run ⟨0, 0⟩ false (some x) (some (.new 8 none))).1 =
        .error (.halted (.trap .unreachable)) := by
  have hvalid : reportAndTrap.isValidBody mainScope = true := by decide
  have hnew : Engine.new [.closeOnDone] =
      .ok (.fresh { EngineSettings.default with closeOnDone := true }) := rfl
  have hx := (Engine.accepts_ofCode _ hvalid (by decide +kernel)).compile_new hnew
  obtain ⟨_, hdistinct⟩ :=
    Engine.compiled_instantiates (.new hnew) rfl (Module.ofCode reportAndTrap)
  obtain ⟨hbuilt, _⟩ := hdistinct fun _ hmem => absurd hmem List.not_mem_nil
  have halways := hbuilt _ _ reportAndTrap.build_extend hx
  exact ⟨_, _, hnew, hx, halways, rfl⟩

/-- A module that does nothing and imports a memory from a module that the host does not have. -/
def foreignMemoryModule : Module :=
  .ofLayout (.idle [("env", "memory", none)] mainType [⟨mainName, .function 0⟩]) [] .unset

/-- The module compiles, although the host provides no such import, and no run of it gets past its
instantiation. -/
theorem Engine.run_foreignMemoryModule :
    ∃ e x, Engine.new [] = .ok e ∧ e.closed = false ∧
      (e.compile (some foreignMemoryModule)).2 = .ok x ∧ ¬ x.AlwaysInstantiates ∧
      ∀ (limits : Limits) (canceled : Bool) (scan : ScanState),
        e.run limits canceled (some x) (some scan) = (.error .instantiation, some scan) := by
  let x : Executable := ⟨foreignMemoryModule.hash, .idle [("env", "memory", none)] mainType
    [⟨mainName, .function 0⟩], [], [⟨mainType, [], .done⟩]⟩
  have hbinary : Executable.ofBinary? foreignMemoryModule.hash foreignMemoryModule.binary =
      some x := by
    simp only [Executable.ofBinary?, foreignMemoryModule, Module.ofLayout, Layout.decode_encode]
    rfl
  have hnew : Engine.new [] = .ok (.fresh .default) := rfl
  have haccepts : (Engine.fresh .default).Accepts foreignMemoryModule x := ⟨hbinary, rfl, rfl⟩
  have hx := haccepts.compile_new hnew
  have hrun := Executable.run_of_no_instance (x := x) rfl (.fresh .default)
  refine ⟨_, x, hnew, rfl, hx, ?_, hrun⟩
  intro halways
  exact halways _ _ _ _ _ rfl (congrArg Prod.fst (hrun ⟨0, 0⟩ false (.new 1 none))) (.inl rfl)

end RuleScan
