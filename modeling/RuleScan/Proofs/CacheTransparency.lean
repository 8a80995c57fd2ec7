import RuleScan.Proofs.EngineSessions

/-!
# The size of the cache shows in the counts only

Two engines that were created alike but for the size of their caches answer every session alike, up
to the counts of hits and misses. The caches differ once one of them has forgotten an executable, so
the sessions are related by what the caches do not hold: everything kept by name, whether the engine
is closed, and what it was created with. That a compilation gives the same result on both sides is
because on either side it gives what a fresh compilation gives.
-/
namespace RuleScan

/-- Whether an option is about anything but the size of the cache. -/
def EngineOption.besidesCache : EngineOption → Bool
  | cacheSize _ => false
  | _ => true

/-- No two of the modules share a hash without sharing their binary. -/
def Module.NoCollision (ms : List Module) : Prop :=
  ∀ m ∈ ms, ∀ m' ∈ ms, m'.hash = m.hash → m'.binary = m.binary

instance (ms : List Module) : Decidable (Module.NoCollision ms) :=
  inferInstanceAs (Decidable (∀ m ∈ ms, ∀ m' ∈ ms, m'.hash = m.hash → m'.binary = m.binary))

theorem Module.NoCollision.mono {ms ms' : List Module} (h : NoCollision ms') (hsub : ms ⊆ ms') :
    NoCollision ms := fun m hm m' hm' => h m (hsub hm) m' (hsub hm')

/-- An answer without the counts of hits and misses. -/
def SessionAnswer.withoutCounts : SessionAnswer → SessionAnswer
  | compiled _ _ result => compiled 0 0 result
  | a => a

/-! ### Settings -/

namespace EngineSettings

/-- Whether options are refused does not depend on the settings that they are applied to. -/
theorem applyAll_error (s t : EngineSettings) (options : List EngineOption) :
    (s.applyAll options).2 = (t.applyAll options).2 := by
  induction options generalizing s t with
  | nil => rfl
  | cons o os ih =>
    cases o with
    | interpreter => exact ih _ _
    | closeOnDone => exact ih _ _
    | memoryLimit n =>
      simp only [applyAll, apply]
      by_cases hn : n = 0 ∨ maxPages < n
      · simp only [if_pos hn]
      · simp only [if_neg hn]
        exact ih _ _
    | cacheSize n =>
      simp only [applyAll, apply]
      by_cases hn : n ≤ 0
      · simp only [if_pos hn]
      · simp only [if_neg hn]
        exact ih _ _

/-- The settings but for the size of the cache. -/
def withoutCache (s : EngineSettings) : EngineSettings := { s with cacheSize := 0 }

/-- An option about anything but the cache does the same whatever the size of the cache. -/
theorem apply_withoutCache {s t : EngineSettings} {o : EngineOption} (ho : o.besidesCache = true)
    (h : s.apply o = .ok t) : s.withoutCache.apply o = .ok t.withoutCache := by
  cases o with
  | interpreter | closeOnDone =>
    rw [← Except.ok.inj h]
    rfl
  | memoryLimit n =>
    simp only [apply] at h ⊢
    split at h
    · contradiction
    · rename_i hn
      rw [if_neg hn, ← Except.ok.inj h]
      rfl
  | cacheSize n => contradiction

theorem withoutCache_of_apply {s t : EngineSettings} {n : Int} (h : s.apply (.cacheSize n) = .ok t) :
    t.withoutCache = s.withoutCache := by
  simp only [apply] at h
  split at h
  · contradiction
  · rw [← Except.ok.inj h]
    rfl

/-- Options about the size of the cache can be left out, as far as the other settings go. -/
theorem applyAll_withoutCache {s t : EngineSettings} {options : List EngineOption}
    (h : s.applyAll options = (t, none)) :
    s.withoutCache.applyAll (options.filter (·.besidesCache)) = (t.withoutCache, none) := by
  induction options generalizing s with
  | nil =>
    obtain ⟨rfl, _⟩ := Prod.mk.inj h
    rfl
  | cons o os ih =>
    cases hs : s.apply o with
    | error e => simp [applyAll, hs] at h
    | ok u =>
      simp only [applyAll, hs] at h
      cases ho : o.besidesCache with
      | true =>
        rw [List.filter_cons_of_pos ho, applyAll, apply_withoutCache ho hs]
        exact ih h
      | false =>
        rw [List.filter_cons_of_neg (by simp [ho])]
        cases o with
        | cacheSize n =>
          rw [← withoutCache_of_apply hs]
          exact ih h
        | _ => contradiction

end EngineSettings

/-- Options that agree but for the size of the cache make engines whose settings do. -/
theorem Engine.new_withoutCache {options options' : List EngineOption} {e e' : Engine}
    (h : Engine.new options = .ok e) (h' : Engine.new options' = .ok e')
    (hsame : options.filter (·.besidesCache) = options'.filter (·.besidesCache)) :
    e.created.withoutCache = e'.created.withoutCache := by
  obtain ⟨s, hs, rfl⟩ := Engine.new_ok h
  obtain ⟨s', hs', rfl⟩ := Engine.new_ok h'
  have hall := EngineSettings.applyAll_withoutCache hs
  rw [hsame, EngineSettings.applyAll_withoutCache hs'] at hall
  exact (Prod.mk.inj hall).1.symm

/-! ### Sessions -/

/-- What an engine does in a run depends on whether it is closed and on how it treats
cancellation. -/
theorem Engine.run_congr {e e' : Engine} (hclosed : e.closed = e'.closed)
    (hcreated : e.created.withoutCache = e'.created.withoutCache) (limits : Limits) (canceled : Bool)
    (x : Option Executable) (scan : Option ScanState) :
    e.run limits canceled x scan = e'.run limits canceled x scan := by
  have hdone := congrArg EngineSettings.closeOnDone hcreated
  simp only [EngineSettings.withoutCache] at hdone
  simp only [run, execute, hclosed, hdone]

/-- What an engine compiles afresh depends on whether it is closed and on its limit. -/
theorem Engine.compileFresh_congr {e e' : Engine} (hclosed : e.closed = e'.closed)
    (hcreated : e.created.withoutCache = e'.created.withoutCache) (m : Module) :
    e.compileFresh m = e'.compileFresh m := by
  have hlimit := congrArg EngineSettings.memoryLimit hcreated
  simp only [EngineSettings.withoutCache] at hlimit
  rw [compileFresh, compileFresh, pageLimit, pageLimit, hclosed, hlimit]

/-- Sessions that agree in everything but the caches, counts and sizes of their engines. -/
structure Session.Alike (s t : Session) : Prop where
  closed : s.engine.closed = t.engine.closed
  created : s.engine.created.withoutCache = t.engine.created.withoutCache
  modules : s.modules = t.modules
  executables : s.executables = t.executables
  contexts : s.contexts = t.contexts

namespace Session.Alike

variable {s t : Session} {history : List Module}

theorem keepModule (h : s.Alike t) (name : String) (built : Except BuildError Module) :
    (s.keepModule name built).1.Alike (t.keepModule name built).1 ∧
      (s.keepModule name built).2 = (t.keepModule name built).2 := by
  cases built with
  | error e => exact ⟨h, rfl⟩
  | ok m =>
    refine ⟨⟨h.closed, h.created, ?_, h.executables, h.contexts⟩, rfl⟩
    simp only [Session.keepModule, h.modules]

/-- A compilation gives the same result on both sides, though one may find it in its cache and the
other may not. -/
theorem compile (h : s.Alike t) (hs : s.engine.Reached history) (ht : t.engine.Reached history)
    {m : Option Module}
    (hdistinct : ∀ n ∈ m, ∀ m' ∈ history, m'.hash = n.hash → m'.binary = n.binary) :
    (s.engine.compile m).2 = (t.engine.compile m).2 := by
  cases m with
  | none => rfl
  | some m =>
    rw [hs.compile_eq_compileFresh (hdistinct m rfl), ht.compile_eq_compileFresh (hdistinct m rfl)]
    exact Engine.compileFresh_congr h.closed h.created m

/-- A step leads alike sessions to alike sessions, with the same answer up to the counts. -/
theorem perform (h : s.Alike t) (limits : Limits) (hs : s.engine.Reached history)
    (ht : t.engine.Reached history) {step : SessionStep}
    (hdistinct : ∀ m ∈ s.subject? step, ∀ m' ∈ history, m'.hash = m.hash → m'.binary = m.binary) :
    (s.perform limits step).1.Alike (t.perform limits step).1 ∧
      (s.perform limits step).2.withoutCounts = (t.perform limits step).2.withoutCounts := by
  cases step with
  | build name is =>
    obtain ⟨hnext, hanswer⟩ := h.keepModule name (Module.ofInstrs is)
    exact ⟨hnext, congrArg _ hanswer⟩
  | rules name rules =>
    simp only [Session.perform]
    split
    · rename_i built _
      obtain ⟨hnext, hanswer⟩ := h.keepModule name built
      exact ⟨hnext, congrArg _ hanswer⟩
    · exact ⟨h, rfl⟩
  | define name layout =>
    obtain ⟨hnext, hanswer⟩ := h.keepModule name (.ok (Module.ofLayout layout [] .unset))
    exact ⟨hnext, congrArg _ hanswer⟩
  | compile module name =>
    have hresult : (s.engine.compile (s.modules.lookup module)).2 =
        (t.engine.compile (t.modules.lookup module)).2 := by
      rw [← h.modules]
      exact h.compile hs ht hdistinct
    obtain ⟨hclosed, hcreated, _⟩ := Engine.compile_keeps s.engine (s.modules.lookup module)
    obtain ⟨hclosed', hcreated', _⟩ := Engine.compile_keeps t.engine (t.modules.lookup module)
    have hclose := hclosed.trans (h.closed.trans hclosed'.symm)
    have hcreate : (s.engine.compile (s.modules.lookup module)).1.created.withoutCache =
        (t.engine.compile (t.modules.lookup module)).1.created.withoutCache := by
      rw [hcreated, hcreated', h.created]
    simp only [Session.perform, hresult]
    split
    · refine ⟨⟨hclose, hcreate, h.modules, ?_, h.contexts⟩, rfl⟩
      simp only [h.executables]
    · exact ⟨⟨hclose, hcreate, h.modules, h.executables, h.contexts⟩, rfl⟩
  | context name numRules index =>
    refine ⟨⟨h.closed, h.created, h.modules, h.executables, ?_⟩, rfl⟩
    simp only [Session.perform, h.contexts]
  | run executable context canceled =>
    have hrun := Engine.run_congr h.closed h.created limits canceled
      (t.executables.lookup executable) (t.contexts.lookup context)
    simp only [Session.perform, h.executables, h.contexts, hrun]
    split
    · exact ⟨⟨h.closed, h.created, h.modules, rfl, rfl⟩, rfl⟩
    · exact ⟨h, rfl⟩
  | setOptions options =>
    have herror := EngineSettings.applyAll_error s.engine.settings t.engine.settings options
    cases hset : s.engine.settings.applyAll options with
    | mk settings error =>
      cases hset' : t.engine.settings.applyAll options with
      | mk settings' error' =>
        rw [hset, hset'] at herror
        obtain rfl : error = error' := herror
        simp only [Session.perform, Engine.setOptions, hset, hset']
        cases error <;>
          exact ⟨⟨h.closed, h.created, h.modules, h.executables, h.contexts⟩, rfl⟩
  | close => exact ⟨⟨rfl, h.created, h.modules, h.executables, h.contexts⟩, rfl⟩

/-- Steps lead alike sessions to the same answers up to the counts, as long as no two of the modules
compiled before or by the steps collide. -/
theorem performAll (h : s.Alike t) (limits : Limits) (hs : s.engine.Reached history)
    (ht : t.engine.Reached history) {steps : List SessionStep}
    (hdistinct : Module.NoCollision ((s.compilations limits steps).map (·.1) ++ history)) :
    (s.performAll limits steps).2.map SessionAnswer.withoutCounts =
      (t.performAll limits steps).2.map SessionAnswer.withoutCounts := by
  induction steps generalizing s t history with
  | nil => rfl
  | cons step steps ih =>
    rw [map_fst_compilations_cons] at hdistinct
    have hsubject : s.subject? step = t.subject? step := by
      cases step <;> simp only [Session.subject?, h.modules]
    have hnow : ∀ m ∈ s.subject? step, ∀ m' ∈ history, m'.hash = m.hash → m'.binary = m.binary := by
      intro m hm m' hm'
      exact hdistinct m (by simp [Option.mem_def.mp hm]) m' (List.mem_append_right _ hm')
    have hlater : Module.NoCollision (((s.perform limits step).1.compilations limits steps).map (·.1) ++
        ((s.subject? step).toList ++ history)) := by
      refine hdistinct.mono ?_
      intro m hm
      simp only [List.mem_append] at hm ⊢
      rw [or_assoc, or_left_comm]
      exact hm
    obtain ⟨hnext, hanswer⟩ := h.perform limits hs ht hnow
    have hs' := perform_reached hs limits step
    have ht' := perform_reached ht limits step
    rw [← hsubject] at ht'
    simp only [performAll_cons, List.map_cons, hanswer, ih hnext hs' ht' hlater]

end Session.Alike

/-- Two engines whose options agree but for the size of the cache answer every session alike, up to
the counts of hits and misses: each compilation gives the same executable or the same error, and each
run the same result and the same state of its scan. No two of the modules that the session compiles
may share a hash without sharing their binary. -/
theorem Session.answers_ignore_cacheSize {options options' : List EngineOption} {e e' : Engine}
    (hnew : Engine.new options = .ok e) (hnew' : Engine.new options' = .ok e')
    (hsame : options.filter (·.besidesCache) = options'.filter (·.besidesCache)) (limits : Limits)
    (steps : List SessionStep)
    (hdistinct : Module.NoCollision (((Session.start e).compilations limits steps).map (·.1))) :
    ((Session.start e).performAll limits steps).2.map SessionAnswer.withoutCounts =
      ((Session.start e').performAll limits steps).2.map SessionAnswer.withoutCounts := by
  have hcreated := Engine.new_withoutCache hnew hnew' hsame
  have hclosed : e.closed = e'.closed := by
    obtain ⟨s, _, rfl⟩ := Engine.new_ok hnew
    obtain ⟨s', _, rfl⟩ := Engine.new_ok hnew'
    rfl
  have hstart : (Session.start e).Alike (Session.start e') := ⟨hclosed, hcreated, rfl, rfl, rfl⟩
  refine hstart.performAll limits (.new hnew) (.new hnew') ?_
  rwa [List.append_nil]

/-- Two modules that do nothing are compiled in turn and run, also after the engine is closed. -/
def alternating : List SessionStep :=
  [.define "a" (.idle [] mainType [⟨mainName, .function 0⟩]),
   .define "b" (.idle [] mainType [⟨mainName, .function 0⟩, ⟨"other", .function 0⟩]),
   .compile "a" "first", .compile "b" "second", .compile "a" "third", .context "scan" 1 none,
   .run "second" "scan" false, .run "first" "scan" true, .close, .compile "b" "fourth",
   .run "third" "scan" false]

/-- The larger cache is hit once and the smaller one never, and the answers are the same. -/
theorem Session.answers_alternating :
    ∃ e e', Engine.new [.cacheSize 1, .closeOnDone] = .ok e ∧
      Engine.new [.closeOnDone, .cacheSize 2] = .ok e' ∧
      ((Session.start e).performAll ⟨0, 0⟩ alternating).1.engine.hits = 0 ∧
      ((Session.start e').performAll ⟨0, 0⟩ alternating).1.engine.hits = 1 ∧
      ((Session.start e).performAll ⟨0, 0⟩ alternating).2.map SessionAnswer.withoutCounts =
        ((Session.start e').performAll ⟨0, 0⟩ alternating).2.map SessionAnswer.withoutCounts := by
  have hnew : Engine.new [.cacheSize 1, .closeOnDone] = .ok (.fresh ⟨false, none, 1, true⟩) := rfl
  have hnew' : Engine.new [.closeOnDone, .cacheSize 2] = .ok (.fresh ⟨false, none, 2, true⟩) := rfl
  have hfacts :
      Module.NoCollision (((Session.start (.fresh ⟨false, none, 1, true⟩)).compilations ⟨0, 0⟩
        alternating).map (·.1)) ∧
      ((Session.start (.fresh ⟨false, none, 1, true⟩)).performAll ⟨0, 0⟩
        alternating).1.engine.hits = 0 ∧
      ((Session.start (.fresh ⟨false, none, 2, true⟩)).performAll ⟨0, 0⟩
        alternating).1.engine.hits = 1 := by decide +kernel
  obtain ⟨hdistinct, hmisses, hhit⟩ := hfacts
  refine ⟨_, _, hnew, hnew', hmisses, hhit, ?_⟩
  exact Session.answers_ignore_cacheSize hnew hnew' (by decide) ⟨0, 0⟩ alternating hdistinct

end RuleScan
