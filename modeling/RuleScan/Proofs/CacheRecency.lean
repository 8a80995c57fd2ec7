import RuleScan.Proofs.EngineSessions
import RuleScan.Proofs.FirstOccurrences

/-!
# The cache holds the modules that were compiled last

At every point of a session, the keys of the cache are the hashes of the modules that were compiled
last, each once and the latest first, as many as the cache was created for. Whether a compilation
hits the cache is thus decided by the history alone: by how many other modules were compiled since
the module was last compiled itself. A compilation that succeeds puts its hash in front of this list,
whether it hits the cache or not; nothing else changes it until the engine is closed.
-/
namespace RuleScan

/-! ### Keys of a cache -/

namespace Cache

variable {κ α : Type} [DecidableEq κ]

theorem keys_use (c : Cache κ α) (k : κ) (a : α) :
    (c.use k a).keys = (k :: c.keys.filter fun b => !b == k).take c.capacity := by
  have hfilter : (c.entries.filter (·.1 ≠ k)).map (·.1) = c.keys.filter fun b => !b == k := by
    rw [keys, List.filter_map]
    congr 1
    apply List.filter_congr
    intro p _
    rw [Bool.eq_iff_iff]
    simp
  rw [← hfilter, keys, use, List.map_take, List.map_cons]

theorem exists_find?_iff (c : Cache κ α) (k : κ) : (∃ a, c.find? k = some a) ↔ k ∈ c.keys := by
  rw [← Option.isSome_iff_exists, find?, Option.isSome_map, List.find?_isSome, keys, List.mem_map]
  simp

end Cache

/-- Using one more key, where a cache holds the first `n` different ones of a list. -/
theorem take_eraseDups_cons {κ : Type} [DecidableEq κ] (k : κ) (recent : List κ) (n : Nat) :
    (k :: (recent.eraseDups.take n).filter fun b => !b == k).take n =
      (k :: recent).eraseDups.take n := by
  cases n with
  | zero => rfl
  | succ n =>
    rw [List.eraseDups_cons, eraseDups_filter, List.take_succ_cons, List.take_succ_cons,
      take_filter_take (nodup_eraseDups recent)]

/-! ### Engines -/

/-- The key was used before, and fewer than `n` different others since it was last used. The keys are
listed in the order of their use, the latest first. -/
def ReusedWithin (n : Nat) (k : String) (recent : List String) : Prop :=
  ∃ since earlier, recent = since ++ k :: earlier ∧ k ∉ since ∧ since.eraseDups.length < n

/-- The cache has the given size and holds the latest of the given keys. -/
structure Engine.KeepsRecent (size : Nat) (recent : List String) (e : Engine) : Prop where
  capacity : e.cache.capacity = size
  keys : e.cache.keys = recent.eraseDups.take size

/-- The hash of a module whose compilation succeeded. -/
def succeeded? : Module × Except CompileError Executable → Option String
  | (m, .ok _) => some m.hash
  | (_, .error _) => none

namespace Engine.KeepsRecent

variable {size : Nat} {recent : List String} {e : Engine}

theorem exists_find?_iff (h : e.KeepsRecent size recent) (m : Module) :
    (∃ x, e.cache.find? m.hash = some x) ↔ ReusedWithin size m.hash recent := by
  rw [Cache.exists_find?_iff, h.keys, mem_take_eraseDups]
  rfl

theorem use (h : e.KeepsRecent size recent) (k : String) (x : Executable) :
    (e.cache.use k x).keys = (k :: recent).eraseDups.take size := by
  rw [Cache.keys_use, h.capacity, h.keys, take_eraseDups_cons]

/-- A compilation that succeeds makes its key the latest; one that fails changes nothing. -/
theorem compile (h : e.KeepsRecent size recent) (m : Module) :
    (e.compile (some m)).1.KeepsRecent size
      ((succeeded? (m, (e.compile (some m)).2)).toList ++ recent) := by
  rcases compile_cases e m with ⟨x, _, heq⟩ | ⟨x, _, _, heq⟩ | ⟨err, _, _, heq⟩
  · rw [heq]
    exact ⟨h.capacity, h.use m.hash x⟩
  · rw [heq]
    exact ⟨h.capacity, h.use m.hash x⟩
  · rw [heq]
    exact ⟨h.capacity, h.keys⟩

/-- A compilation counts one hit if the module was compiled recently enough, else one miss. -/
theorem compile_counts (h : e.KeepsRecent size recent) (m : Module) :
    (ReusedWithin size m.hash recent ∧ (e.compile (some m)).1.hits = e.hits + 1 ∧
      (e.compile (some m)).1.misses = e.misses) ∨
    (¬ ReusedWithin size m.hash recent ∧ (e.compile (some m)).1.hits = e.hits ∧
      (e.compile (some m)).1.misses = e.misses + 1) := by
  rw [← h.exists_find?_iff]
  rcases compile_cases e m with ⟨x, hfind, heq⟩ | ⟨x, hnone, _, heq⟩ | ⟨err, hnone, _, heq⟩
  · exact .inl ⟨⟨x, hfind⟩, by rw [heq], by rw [heq]⟩
  · exact .inr ⟨by simp [hnone], by rw [heq], by rw [heq]⟩
  · exact .inr ⟨by simp [hnone], by rw [heq], by rw [heq]⟩

end Engine.KeepsRecent

/-! ### Sessions -/

/-- The hashes of the modules that the steps compile with success, in the order of the steps. -/
def Session.compiledHashes (limits : Limits) (s : Session) (steps : List SessionStep) : List String :=
  (s.compilations limits steps).filterMap succeeded?

/-- The size of the cache that options ask for: the last one given, or the default one. -/
def EngineOption.cacheSizeOf (options : List EngineOption) : Nat :=
  ((options.filterMap size?).getLast?.getD 16).toNat

theorem EngineSettings.applyAll_cacheSize {s t : EngineSettings} {options : List EngineOption}
    (h : s.applyAll options = (t, none)) :
    (t.cacheSize : Int) = (options.filterMap EngineOption.size?).getLast?.getD s.cacheSize := by
  induction options generalizing s with
  | nil =>
    obtain ⟨rfl, _⟩ := Prod.mk.inj h
    rfl
  | cons o os ih =>
    cases ho : s.apply o with
    | error e => simp [applyAll, ho] at h
    | ok u =>
      simp only [applyAll, ho] at h
      have hu := cacheSize_of_apply ho
      cases hsize : o.size? with
      | none =>
        rw [hsize] at hu
        rw [ih h, List.filterMap_cons_none hsize, hu]
        rfl
      | some n =>
        rw [hsize] at hu
        rw [ih h, List.filterMap_cons_some hsize, List.getLast?_cons, hu]
        rfl

theorem Engine.new_keepsRecent {options : List EngineOption} {e : Engine}
    (h : Engine.new options = .ok e) : e.KeepsRecent (EngineOption.cacheSizeOf options) [] := by
  obtain ⟨s, hs, rfl⟩ := Engine.new_ok h
  have hsize := EngineSettings.applyAll_cacheSize hs
  have hdefault : (EngineSettings.default.cacheSize : Int) = 16 := rfl
  rw [hdefault] at hsize
  constructor
  · show s.cacheSize = EngineOption.cacheSizeOf options
    rw [EngineOption.cacheSizeOf, ← hsize, Int.toNat_natCast]
  · rw [List.eraseDups_nil, List.take_nil]
    rfl

/-- The hash that a step compiles with success, if any. -/
def Session.compiledHash? (s : Session) (step : SessionStep) : Option String :=
  (s.subject? step).bind fun m => succeeded? (m, (s.engine.compile (some m)).2)

theorem Session.compiledHashes_cons (limits : Limits) (s : Session) (step : SessionStep)
    (steps : List SessionStep) :
    s.compiledHashes limits (step :: steps) =
      (s.compiledHash? step).toList ++ (s.perform limits step).1.compiledHashes limits steps := by
  rw [compiledHashes, compilations, List.filterMap_append, compiledHash?]
  congr 1
  cases s.subject? step with
  | none => rfl
  | some m => cases hhash : succeeded? (m, (s.engine.compile (some m)).2) <;> simp [hhash]

/-- A step other than closing the engine keeps its cache to the modules that were compiled last. -/
theorem Session.perform_keepsRecent {s : Session} {size : Nat} {recent : List String}
    (h : s.engine.KeepsRecent size recent) (limits : Limits) {step : SessionStep}
    (hopen : step ≠ .close) :
    (s.perform limits step).1.engine.KeepsRecent size ((s.compiledHash? step).toList ++ recent) := by
  rw [perform_engine]
  cases step with
  | compile module name =>
    simp only [compiledHash?, subject?]
    cases s.modules.lookup module with
    | none => exact h
    | some m => exact h.compile m
  | setOptions options => exact ⟨h.capacity, h.keys⟩
  | close => exact absurd rfl hopen
  | build | rules | define | context | run => exact h

theorem Session.performAll_keepsRecent {s : Session} {size : Nat} {recent : List String}
    (h : s.engine.KeepsRecent size recent) (limits : Limits) {steps : List SessionStep}
    (hopen : .close ∉ steps) :
    (s.performAll limits steps).1.engine.KeepsRecent size
      ((s.compiledHashes limits steps).reverse ++ recent) := by
  induction steps generalizing s recent with
  | nil => exact h
  | cons step steps ih =>
    obtain ⟨hstep, hsteps⟩ := List.ne_and_not_mem_of_not_mem_cons hopen
    have hrest := ih (perform_keepsRecent h limits hstep.symm) hsteps
    have hsingle : (s.compiledHash? step).toList.reverse = (s.compiledHash? step).toList := by
      cases s.compiledHash? step <;> rfl
    rw [compiledHashes_cons, List.reverse_append, hsingle, List.append_assoc]
    exact hrest

/-- At every point of a session on an engine that is not closed, the cache holds the hashes that were
compiled last with success, in the order of their last use and as many as the engine was created for,
whatever sizes were set later. So a compilation hits the cache exactly if its hash was compiled before
and fewer different others since than the cache is large; any other one is a miss. Without a module
nothing is counted, and once the engine is closed every compilation is a miss that fails. -/
theorem Session.cache_keeps_most_recent {options : List EngineOption} {e : Engine}
    (hnew : Engine.new options = .ok e) (limits : Limits) (steps : List SessionStep) :
    let later := ((Session.start e).performAll limits steps).1.engine
    let recent := ((Session.start e).compiledHashes limits steps).reverse
    let size := EngineOption.cacheSizeOf options
    (.close ∉ steps →
      later.cache.keys = recent.eraseDups.take size ∧
      ∀ m : Module,
        ((later.compile (some m)).1.hits = later.hits + 1 ∧
            (later.compile (some m)).1.misses = later.misses ↔ ReusedWithin size m.hash recent) ∧
        (¬ ReusedWithin size m.hash recent → (later.compile (some m)).1.hits = later.hits ∧
          (later.compile (some m)).1.misses = later.misses + 1)) ∧
    later.compile none = (later, .error .noModule) ∧
    (.close ∈ steps → ∀ m : Module, later.compile (some m) =
      ({ later with misses := later.misses + 1 }, .error .refused)) := by
  intro later recent size
  refine ⟨?_, rfl, ?_⟩
  · intro hopen
    have hkeeps := performAll_keepsRecent (s := .start e) (Engine.new_keepsRecent hnew) limits hopen
    rw [List.append_nil] at hkeeps
    refine ⟨hkeeps.keys, ?_⟩
    intro m
    rcases hkeeps.compile_counts m with ⟨hreused, hhits, hmisses⟩ | ⟨hnot, hhits, hmisses⟩
    · exact ⟨⟨fun _ => hreused, fun _ => ⟨hhits, hmisses⟩⟩, fun hnot => absurd hreused hnot⟩
    · refine ⟨⟨?_, fun hreused => absurd hreused hnot⟩, fun _ => ⟨hhits, hmisses⟩⟩
      rintro ⟨hhit, _⟩
      have hsame : later.hits = later.hits + 1 := hhits.symm.trans hhit
      omega
  · intro hclose m
    have hclosed : later.closed = true := (performAll_closed limits (.start e) steps).mpr (.inr hclose)
    obtain ⟨history, hreached⟩ := performAll_reached (s := .start e) (.new hnew) limits steps
    have hempty : later.cache.entries = [] := hreached.entries_of_closed hclosed
    have hfind : later.cache.find? m.hash = none := by
      rw [Cache.find?, hempty]
      rfl
    simp only [Engine.compile, hfind, Engine.compileFresh_of_closed hclosed]

/-- A module that does nothing, with an export besides its main function. -/
def idleModule (other : String) : Module :=
  .ofLayout (.idle [] mainType [⟨mainName, .function 0⟩, ⟨other, .function 0⟩]) [] .unset

/-- Two modules are compiled; the options set in between come too late to count. -/
def twoCompilations : List SessionStep :=
  [.define "a" (.idle [] mainType [⟨mainName, .function 0⟩, ⟨"x", .function 0⟩]),
   .define "b" (.idle [] mainType [⟨mainName, .function 0⟩, ⟨"y", .function 0⟩]),
   .compile "a" "first", .compile "missing" "none", .setOptions [.cacheSize 1],
   .compile "b" "second"]

/-- With room for two executables, one other module since the last compilation is not too many. -/
theorem Session.cache_twoCompilations :
    ∃ e, Engine.new [.cacheSize 2] = .ok e ∧
      let later := ((Session.start e).performAll ⟨0, 0⟩ twoCompilations).1.engine
      later.cache.keys = [(idleModule "y").hash, (idleModule "x").hash] ∧
      (later.compile (some (idleModule "x"))).1.hits = later.hits + 1 ∧
      (later.compile (some (idleModule "x"))).1.misses = later.misses := by
  have hnew : Engine.new [.cacheSize 2] = .ok (.fresh ⟨false, none, 2, false⟩) := rfl
  have hfacts : (Session.start (.fresh ⟨false, none, 2, false⟩)).compiledHashes ⟨0, 0⟩
        twoCompilations = [(idleModule "x").hash, (idleModule "y").hash] ∧
      (idleModule "x").hash ≠ (idleModule "y").hash := by decide +kernel
  obtain ⟨hhashes, hne⟩ := hfacts
  obtain ⟨hkept, _, _⟩ := Session.cache_keeps_most_recent hnew ⟨0, 0⟩ twoCompilations
  obtain ⟨hkeys, hcounts⟩ := hkept (by simp [twoCompilations])
  rw [hhashes] at hkeys hcounts
  refine ⟨_, hnew, ?_, (hcounts (idleModule "x")).1.mpr ?_⟩
  · rw [hkeys]
    simp [List.eraseDups_cons, hne, EngineOption.cacheSizeOf, EngineOption.size?]
  · exact ⟨[(idleModule "y").hash], [], rfl, by simpa using hne, by decide⟩

end RuleScan
