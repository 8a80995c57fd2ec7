import RuleScan.Engine.Basic

/-!
# What an engine keeps

The executables that an engine keeps come from modules that it compiled: each is kept under the hash
of a module whose binary it was validated from. As long as no two of the modules share a hash without
sharing their binary, a successful compilation therefore gives the executable of the module itself,
from the cache or afresh.
-/
namespace RuleScan

namespace Cache

variable {κ α : Type} [DecidableEq κ] {c : Cache κ α} {k : κ} {a : α}

theorem mem_of_find? (h : c.find? k = some a) : (k, a) ∈ c.entries := by
  simp only [find?, Option.map_eq_some_iff] at h
  obtain ⟨⟨key, value⟩, hfind, rfl⟩ := h
  have hkey : key = k := by simpa using List.find?_some hfind
  rw [← hkey]
  exact List.mem_of_find?_eq_some hfind

theorem mem_use {p : κ × α} (h : p ∈ (c.use k a).entries) : p = (k, a) ∨ p ∈ c.entries := by
  rcases List.mem_cons.mp (List.mem_of_mem_take h) with hnew | hold
  · exact .inl hnew
  · exact .inr (List.mem_filter.mp hold).1

end Cache

/-- The size of the cache that an option asks for. -/
def EngineOption.size? : EngineOption → Option Int
  | cacheSize n => some n
  | _ => none

/-- What an option that is not refused does to the size of the cache. -/
theorem EngineSettings.cacheSize_of_apply {s t : EngineSettings} {o : EngineOption}
    (h : s.apply o = .ok t) : (t.cacheSize : Int) = o.size?.getD s.cacheSize := by
  cases o with
  | interpreter | closeOnDone =>
    rw [← Except.ok.inj h]
    rfl
  | memoryLimit n =>
    simp only [apply] at h
    split at h
    · contradiction
    · rw [← Except.ok.inj h]
      rfl
  | cacheSize n =>
    simp only [apply] at h
    split at h
    · contradiction
    · rename_i hn
      rw [← Except.ok.inj h]
      simp only [EngineOption.size?, Option.getD_some]
      omega

namespace Engine

variable {e : Engine} {m : Module} {x : Executable}

/-- The module is valid and links, its memories are within the limit, and this is its executable. -/
structure Accepts (e : Engine) (m : Module) (x : Executable) : Prop where
  valid : Executable.ofBinary? m.hash m.binary = some x
  limit : x.layout.memoriesWithin e.pageLimit = true
  links : x.checkLinks = .ok ()

theorem compileFresh_ok (h : e.compileFresh m = .ok x) : e.Accepts m x := by
  unfold compileFresh at h
  split at h
  · contradiction
  · split at h
    · contradiction
    · rename_i y hy
      split at h
      · rename_i hlimit
        cases hlinks : y.checkLinks with
        | error err =>
          rw [hlinks] at h
          contradiction
        | ok u =>
          rw [hlinks] at h
          obtain rfl : y = x := Except.ok.inj h
          exact ⟨hy, hlimit, hlinks⟩
      · contradiction

/-- What an engine accepts is a matter of the settings it was created with. -/
theorem Accepts.of_created {e' : Engine} (h : e.Accepts m x) (hsame : e'.created = e.created) :
    e'.Accepts m x := by
  have hlimit : e'.pageLimit = e.pageLimit := by rw [pageLimit, pageLimit, hsame]
  exact ⟨h.valid, hlimit ▸ h.limit, h.links⟩

theorem Accepts.compileFresh (h : e.Accepts m x) (hopen : e.closed = false) :
    e.compileFresh m = .ok x := by
  simp only [Engine.compileFresh, hopen, h.valid, h.limit, h.links]
  rfl

/-- What compiling a module does: it takes the executable from the cache, keeps a new one, or fails
and keeps nothing. It changes nothing else but the count of hits or misses. -/
theorem compile_cases (e : Engine) (m : Module) :
    (∃ x, e.cache.find? m.hash = some x ∧ e.compile (some m) =
      ({ e with cache := e.cache.use m.hash x, hits := e.hits + 1 }, .ok x)) ∨
    (∃ x, e.cache.find? m.hash = none ∧ e.compileFresh m = .ok x ∧ e.compile (some m) =
      ({ e with cache := e.cache.use m.hash x, misses := e.misses + 1 }, .ok x)) ∨
    (∃ err, e.cache.find? m.hash = none ∧ e.compileFresh m = .error err ∧ e.compile (some m) =
      ({ e with misses := e.misses + 1 }, .error err)) := by
  cases hfind : e.cache.find? m.hash with
  | some x =>
    refine .inl ⟨x, rfl, ?_⟩
    simp only [compile, hfind]
  | none =>
    cases hfresh : e.compileFresh m with
    | ok x =>
      refine .inr (.inl ⟨x, rfl, rfl, ?_⟩)
      simp only [compile, hfind, hfresh]
    | error err =>
      refine .inr (.inr ⟨err, rfl, rfl, ?_⟩)
      simp only [compile, hfind, hfresh]

/-- Compiling neither closes an engine nor changes what it was created with. -/
theorem compile_keeps (e : Engine) (m : Option Module) :
    (e.compile m).1.closed = e.closed ∧ (e.compile m).1.created = e.created ∧
      (e.compile m).1.cache.capacity = e.cache.capacity := by
  cases m with
  | none => exact ⟨rfl, rfl, rfl⟩
  | some m =>
    rcases compile_cases e m with ⟨x, _, heq⟩ | ⟨x, _, _, heq⟩ | ⟨err, _, _, heq⟩ <;> rw [heq] <;>
      exact ⟨rfl, rfl, rfl⟩

/-- An open engine compiles a module that it accepts, from the cache or afresh. -/
theorem Accepts.compile (h : e.Accepts m x) (hopen : e.closed = false) :
    ∃ y, (e.compile (some m)).2 = .ok y := by
  cases hfind : e.cache.find? m.hash with
  | some y => exact ⟨y, by simp only [Engine.compile, hfind]⟩
  | none => exact ⟨x, by simp only [Engine.compile, hfind, h.compileFresh hopen]⟩

/-- The engines that compiled the given modules, the latest first, whatever else was done to them. -/
inductive Reached : List Module → Engine → Prop where
  | new {options : List EngineOption} {e : Engine} : Engine.new options = .ok e → Reached [] e
  | compile {history : List Module} {e : Engine} (m : Module) :
      Reached history e → Reached (m :: history) (e.compile (some m)).1
  | setOptions {history : List Module} {e : Engine} (options : List EngineOption) :
      Reached history e → Reached history (e.setOptions options).1
  | close {history : List Module} {e : Engine} : Reached history e → Reached history e.close

/-- Each executable is kept under the hash of a module that it is accepted for. -/
def KeepsOnly (history : List Module) (e : Engine) : Prop :=
  ∀ k x, (k, x) ∈ e.cache.entries → ∃ m ∈ history, m.hash = k ∧ e.Accepts m x

/-- The engine that is created with given settings. -/
def fresh (s : EngineSettings) : Engine := ⟨s, s, .empty s.cacheSize, false, 0, 0⟩

theorem new_ok {options : List EngineOption} (h : Engine.new options = .ok e) :
    ∃ s, EngineSettings.default.applyAll options = (s, none) ∧ e = fresh s := by
  unfold Engine.new at h
  split at h
  · contradiction
  · rename_i s hs
    exact ⟨s, hs, (Except.ok.inj h).symm⟩

/-- A new engine compiles a module that it accepts to its executable. -/
theorem Accepts.compile_new {options : List EngineOption} (h : e.Accepts m x)
    (hnew : Engine.new options = .ok e) : (e.compile (some m)).2 = .ok x := by
  obtain ⟨s, _, rfl⟩ := new_ok hnew
  have hfind : (fresh s).cache.find? m.hash = none := rfl
  simp only [Engine.compile, hfind, h.compileFresh rfl]

theorem KeepsOnly.compile {history : List Module} (h : KeepsOnly history e) (m : Module) :
    KeepsOnly (m :: history) (e.compile (some m)).1 := by
  intro k x hmem
  rcases compile_cases e m with ⟨y, hfind, heq⟩ | ⟨y, _, hfresh, heq⟩ | ⟨_, _, _, heq⟩
  · rw [heq] at hmem ⊢
    rcases Cache.mem_use hmem with hused | hold
    · obtain ⟨rfl, rfl⟩ := Prod.mk.inj hused
      obtain ⟨m', hm', hhash, hkept⟩ := h _ _ (Cache.mem_of_find? hfind)
      exact ⟨m', List.mem_cons_of_mem _ hm', hhash, hkept.of_created rfl⟩
    · obtain ⟨m', hm', hhash, hkept⟩ := h k x hold
      exact ⟨m', List.mem_cons_of_mem _ hm', hhash, hkept.of_created rfl⟩
  · rw [heq] at hmem ⊢
    rcases Cache.mem_use hmem with hused | hold
    · obtain ⟨rfl, rfl⟩ := Prod.mk.inj hused
      have hkept := compileFresh_ok hfresh
      exact ⟨m, List.mem_cons_self, rfl, hkept.of_created rfl⟩
    · obtain ⟨m', hm', hhash, hkept⟩ := h k x hold
      exact ⟨m', List.mem_cons_of_mem _ hm', hhash, hkept.of_created rfl⟩
  · rw [heq] at hmem ⊢
    obtain ⟨m', hm', hhash, hkept⟩ := h k x hmem
    exact ⟨m', List.mem_cons_of_mem _ hm', hhash, hkept.of_created rfl⟩

theorem Reached.keepsOnly {history : List Module} (h : Reached history e) :
    KeepsOnly history e := by
  induction h with
  | new hnew =>
    obtain ⟨s, _, rfl⟩ := new_ok hnew
    intro k x hmem
    contradiction
  | compile m _ ih => exact ih.compile m
  | setOptions options _ ih =>
    intro k x hmem
    obtain ⟨m, hm, hhash, hkept⟩ := ih k x hmem
    exact ⟨m, hm, hhash, hkept.of_created rfl⟩
  | close _ _ =>
    intro k x hmem
    contradiction

/-- Whatever compiling gives was accepted, then or for an earlier module. -/
theorem Reached.compile_accepted {history : List Module} (h : Reached history e) {m : Option Module}
    (hcompile : (e.compile m).2 = .ok x) : ∃ m' : Module, e.Accepts m' x := by
  cases m with
  | none => contradiction
  | some m =>
    rcases compile_cases e m with ⟨y, hfind, heq⟩ | ⟨y, _, hfresh, heq⟩ | ⟨err, _, _, heq⟩
    · rw [heq] at hcompile
      obtain rfl := Except.ok.inj hcompile
      obtain ⟨m', _, _, hkept⟩ := h.keepsOnly _ _ (Cache.mem_of_find? hfind)
      exact ⟨m', hkept⟩
    · rw [heq] at hcompile
      obtain rfl := Except.ok.inj hcompile
      exact ⟨m, compileFresh_ok hfresh⟩
    · rw [heq] at hcompile
      contradiction

theorem compileFresh_of_closed (hclosed : e.closed = true) (m : Module) :
    e.compileFresh m = .error .refused := by
  rw [compileFresh, if_pos hclosed]

/-- A closed engine keeps nothing, and goes on keeping nothing. -/
theorem Reached.entries_of_closed {history : List Module} (h : Reached history e)
    (hclosed : e.closed = true) : e.cache.entries = [] := by
  induction h with
  | new hnew =>
    obtain ⟨s, _, rfl⟩ := new_ok hnew
    contradiction
  | @compile history e m _ ih =>
    rcases compile_cases e m with ⟨x, hfind, heq⟩ | ⟨x, _, hfresh, heq⟩ | ⟨err, _, _, heq⟩
    · rw [heq] at hclosed
      have hmem := Cache.mem_of_find? hfind
      rw [ih hclosed] at hmem
      contradiction
    · rw [heq] at hclosed
      rw [compileFresh_of_closed (e := e) hclosed] at hfresh
      contradiction
    · rw [heq] at hclosed ⊢
      exact ih hclosed
  | setOptions _ _ ih => exact ih hclosed
  | close _ _ => rfl

/-- Among modules of which no two share a hash without sharing their binary, compiling gives the
executable of the module itself. -/
theorem Reached.compile_ok {history : List Module} (h : Reached history e)
    (hdistinct : ∀ m' ∈ history, m'.hash = m.hash → m'.binary = m.binary)
    (hcompile : (e.compile (some m)).2 = .ok x) : e.Accepts m x := by
  rcases compile_cases e m with ⟨y, hfind, heq⟩ | ⟨y, _, hfresh, heq⟩ | ⟨err, _, _, heq⟩
  · rw [heq] at hcompile
    obtain rfl := Except.ok.inj hcompile
    obtain ⟨m', hm', hhash, hkept⟩ := h.keepsOnly _ _ (Cache.mem_of_find? hfind)
    have hvalid := hkept.valid
    rw [hhash, hdistinct m' hm' hhash] at hvalid
    exact ⟨hvalid, hkept.limit, hkept.links⟩
  · rw [heq] at hcompile
    obtain rfl := Except.ok.inj hcompile
    exact compileFresh_ok hfresh
  · rw [heq] at hcompile
    contradiction

/-- Among such modules, compiling gives what a fresh compilation gives, whatever is in the cache: a
hit skips neither an error of the module nor the refusal by a closed engine. -/
theorem Reached.compile_eq_compileFresh {history : List Module} (h : Reached history e)
    (hdistinct : ∀ m' ∈ history, m'.hash = m.hash → m'.binary = m.binary) :
    (e.compile (some m)).2 = e.compileFresh m := by
  rcases compile_cases e m with ⟨x, hfind, heq⟩ | ⟨x, _, hfresh, heq⟩ | ⟨err, _, hfresh, heq⟩
  · have hmem := Cache.mem_of_find? hfind
    have hopen : e.closed = false := by
      rw [← Bool.not_eq_true]
      intro hclosed
      rw [h.entries_of_closed hclosed] at hmem
      contradiction
    have haccepts := h.compile_ok hdistinct (congrArg Prod.snd heq)
    rw [heq, haccepts.compileFresh hopen]
  · rw [heq, hfresh]
  · rw [heq, hfresh]

end Engine

end RuleScan
