import RuleScan.Proofs.HostCalls
import RuleScan.Proofs.ScanReports

/-!
# Code does not see what was reported

Code learns of the scan it serves only what the index answers, and changes nothing of it but by
reporting rules. So over all scans whose indexes answer alike, a run takes the same path: it has one
outcome and makes one list of reports, and what differs is only the scan that the reports are made
to. This is shown for each way in which code is put together, and then for calls of a function to any
depth.
-/
namespace RuleScan

/-- The two answer every query alike. -/
structure PatternSource.Agrees (a b : PatternSource) : Prop where
  matched : ∀ id, a.matched id = b.matched id
  matchedAt : ∀ id offset, a.matchedAt id offset = b.matchedAt id offset
  matchedIn : ∀ id lower upper, a.matchedIn id lower upper = b.matchedIn id lower upper

theorem PatternSource.Agrees.refl (a : PatternSource) : a.Agrees a :=
  ⟨fun _ => rfl, fun _ _ => rfl, fun _ _ _ => rfl⟩

/-- The outcome on another scan. -/
def Outcome.withScan (scan : ScanState) : Outcome → Outcome
  | next f => next { f with scan := scan }
  | branch d f => branch d { f with scan := scan }
  | return_ f => return_ { f with scan := scan }
  | halt h _ => halt h scan

/-- Over all scans whose indexes answer like the given one, there is one result and one list of
reports that are made. -/
def Uniform {α : Type} (index : PatternSource) (call : ScanState → α × ScanState) : Prop :=
  ∃ (a : α) (ids : List RuleId), ∀ scan : ScanState, scan.index.Agrees index →
    call scan = (a, scan.ruleMatchAll ids)

/-- Over all such scans, code has one outcome and makes one list of reports. -/
def UniformOutcome (index : PatternSource) (run : ScanState → Outcome) : Prop :=
  ∃ (o : Outcome) (ids : List RuleId), ∀ scan : ScanState, scan.index.Agrees index →
    run scan = o.withScan (scan.ruleMatchAll ids)

variable {index : PatternSource}

theorem PatternSource.Agrees.ruleMatchAll {scan : ScanState} (h : scan.index.Agrees index)
    (ids : List RuleId) : (scan.ruleMatchAll ids).index.Agrees index := by
  rwa [ScanState.ruleMatchAll_index]

theorem Uniform.const {α : Type} (a : α) : Uniform index fun scan => (a, scan) :=
  ⟨a, [], fun _ _ => rfl⟩

namespace UniformOutcome

variable {run : ScanState → Outcome}

theorem next (stack locals : List Value) :
    UniformOutcome index fun scan => .next ⟨stack, locals, scan⟩ :=
  ⟨.next ⟨stack, locals, .new 0 none⟩, [], fun _ _ => rfl⟩

theorem halt (h : Halt) : UniformOutcome index fun scan => .halt h scan :=
  ⟨.halt h (.new 0 none), [], fun _ _ => rfl⟩

theorem andThen (h : UniformOutcome index run) {rest : Frame → Outcome}
    (hrest : ∀ stack locals, UniformOutcome index fun scan => rest ⟨stack, locals, scan⟩) :
    UniformOutcome index fun scan => (run scan).andThen rest := by
  obtain ⟨o, ids, hrun⟩ := h
  cases o with
  | next f =>
    obtain ⟨o, more, hmore⟩ := hrest f.stack f.locals
    refine ⟨o, ids ++ more, ?_⟩
    intro scan hscan
    simp only [hrun scan hscan]
    rw [ScanState.ruleMatchAll_append]
    exact hmore _ (hscan.ruleMatchAll ids)
  | branch d f => exact ⟨.branch d f, ids, fun scan hscan => by simp only [hrun scan hscan]; rfl⟩
  | return_ f => exact ⟨.return_ f, ids, fun scan hscan => by simp only [hrun scan hscan]; rfl⟩
  | halt h s => exact ⟨.halt h s, ids, fun scan hscan => by simp only [hrun scan hscan]; rfl⟩

theorem leave (h : UniformOutcome index run) (arity : Nat) (below : List Value) :
    UniformOutcome index fun scan => (run scan).leave arity below := by
  obtain ⟨o, ids, hrun⟩ := h
  refine ⟨o.leave arity below, ids, ?_⟩
  intro scan hscan
  simp only [hrun scan hscan]
  rcases o with f | ⟨_ | d, f⟩ | f | ⟨h, s⟩
  · rfl
  · simp only [Outcome.withScan, Outcome.leave]
    split <;> rfl
  · rfl
  · rfl
  · rfl

/-- The rounds of a loop, by induction on their number: each one goes on with the operands that the
one before has left. -/
theorem again {body : Frame → Outcome}
    (hbody : ∀ stack locals, UniformOutcome index fun scan => body ⟨stack, locals, scan⟩)
    (arity rounds : Nat) (stack locals : List Value) :
    UniformOutcome index fun scan => Outcome.again body arity rounds ⟨stack, locals, scan⟩ := by
  induction rounds generalizing stack locals with
  | zero => exact .halt .unfinished
  | succ rounds ih =>
    obtain ⟨o, ids, hrun⟩ := hbody stack locals
    rcases o with f | ⟨_ | d, f⟩ | f | ⟨h, s⟩
    · refine ⟨.next f, ids, ?_⟩
      intro scan hscan
      simp only [Outcome.again, hrun scan hscan, Outcome.withScan]
    · cases hsplit : splitStack arity f.stack with
      | none =>
        refine ⟨.halt .stuck f.scan, ids, ?_⟩
        intro scan hscan
        simp only [Outcome.again, hrun scan hscan, Outcome.withScan, hsplit]
      | some parts =>
        obtain ⟨o, more, hmore⟩ := ih parts.1 f.locals
        refine ⟨o, ids ++ more, ?_⟩
        intro scan hscan
        have hrest := hmore _ (hscan.ruleMatchAll ids)
        rw [← ScanState.ruleMatchAll_append] at hrest
        rw [← hrest]
        simp only [Outcome.again, hrun scan hscan, Outcome.withScan, hsplit]
    · refine ⟨.branch (d + 1) f, ids, ?_⟩
      intro scan hscan
      simp only [Outcome.again, hrun scan hscan, Outcome.withScan]
    · refine ⟨.return_ f, ids, ?_⟩
      intro scan hscan
      simp only [Outcome.again, hrun scan hscan, Outcome.withScan]
    · refine ⟨.halt h s, ids, ?_⟩
      intro scan hscan
      simp only [Outcome.again, hrun scan hscan, Outcome.withScan]

theorem returned (h : UniformOutcome index run) (arity : Nat) :
    Uniform index fun scan => (run scan).returned arity := by
  obtain ⟨o, ids, hrun⟩ := h
  refine ⟨(o.returned arity).1, ids, ?_⟩
  intro scan hscan
  simp only [hrun scan hscan]
  rcases o with f | ⟨_ | d, f⟩ | f | ⟨h, s⟩
  · simp only [Outcome.withScan, Outcome.returned, Outcome.returned.results]
    split <;> rfl
  · simp only [Outcome.withScan, Outcome.returned, Outcome.returned.results]
    split <;> rfl
  · rfl
  · simp only [Outcome.withScan, Outcome.returned, Outcome.returned.results]
    split <;> rfl
  · rfl

end UniformOutcome

/-! ### Calls of host functions -/

/-- A host function answers from the index alone, and at most makes a report. -/
theorem HostFunction.invoke_uniform (h : HostFunction) (args : List Value) :
    Uniform index (h.invoke args) := by
  cases h with
  | ruleMatch => exact ⟨.ok [], [arg32 (args.map Value.slot) 0], fun _ _ => rfl⟩
  | isPatternMatch =>
    refine ⟨(isPatternMatch.invoke args (.new 0 index)).1, [], ?_⟩
    intro scan hscan
    simp only [invoke, serve, ScanState.isPatternMatch, hscan.matched, ScanState.new_index]
    split <;> rfl
  | isPatternMatchAt =>
    refine ⟨(isPatternMatchAt.invoke args (.new 0 index)).1, [], ?_⟩
    intro scan hscan
    simp only [invoke, serve, ScanState.isPatternMatchAt, hscan.matchedAt, ScanState.new_index]
    split <;> rfl
  | isPatternMatchIn =>
    refine ⟨(isPatternMatchIn.invoke args (.new 0 index)).1, [], ?_⟩
    intro scan hscan
    simp only [invoke, serve, ScanState.isPatternMatchIn, hscan.matchedIn, ScanState.new_index]
    split <;> rfl

/-! ### Code -/

/-- What a call of a function gives, if calling the module's own functions gives `callOwn`. -/
def Callee.invoke (callOwn : Nat → List Value → ScanState → Returned) (args : List Value)
    (scan : ScanState) : Callee → Returned
  | host h => h.invoke args scan
  | own n _ => callOwn n args scan

/-- How code goes on after a call that was made with the given operands below its arguments. -/
def Returned.resume (below locals : List Value) : Returned → Outcome
  | (.ok results, after) => .next ⟨results.reverse ++ below, locals, after⟩
  | (.error h, after) => .halt h after

theorem map_type_takeArguments {params : List ValType} {stack args below : List Value}
    (h : takeArguments params stack = some (args, below)) : args.map Value.type = params := by
  simp only [takeArguments, Option.bind_eq_bind, Option.bind_eq_some_iff] at h
  obtain ⟨⟨top, rest⟩, _, _, hguard, hsome⟩ := h
  have htypes : top.reverse.map Value.type = params := (Option.guard_eq_some' ()).mp hguard
  obtain ⟨rfl, _⟩ := Prod.mk.inj (Option.some.inj hsome)
  exact htypes

/-- Which function a call reaches, and with which arguments, is a matter of the functions and the
operands alone. -/
theorem Surroundings.call_cases (functions : List Callee) (i : Nat) (stack : List Value) :
    (∀ e : Surroundings, e.functions = functions → ∀ locals scan,
      e.call i ⟨stack, locals, scan⟩ = .halt .stuck scan) ∨
    ∃ callee ∈ functions, ∃ args below, args.map Value.type = callee.type.params ∧
      ∀ e : Surroundings, e.functions = functions → ∀ locals scan,
        e.call i ⟨stack, locals, scan⟩ =
          Returned.resume below locals (callee.invoke e.callOwn args scan) := by
  cases hi : functions[i]? with
  | none =>
    refine .inl ?_
    intro e he locals scan
    simp only [call, he, hi]
  | some callee =>
    cases htake : takeArguments callee.type.params stack with
    | none =>
      refine .inl ?_
      intro e he locals scan
      simp only [call, he, hi, htake]
    | some parts =>
      obtain ⟨args, below⟩ := parts
      refine .inr ⟨callee, List.mem_of_getElem? hi, args, below, map_type_takeArguments htake, ?_⟩
      intro e he locals scan
      simp only [call, he, hi, htake]
      cases callee <;> rfl

/-- Whether a block can be entered, and with which operands, is a matter of the types and the
operands alone. -/
theorem Surroundings.enter_cases (types : List FuncType) (t : BlockType) (stack : List Value) :
    (∀ e : Surroundings, e.types = types → ∀ locals scan,
      e.enter t ⟨stack, locals, scan⟩ = none) ∨
    ∃ type inner below, ∀ e : Surroundings, e.types = types → ∀ locals scan,
      e.enter t ⟨stack, locals, scan⟩ = some (type, ⟨inner, locals, scan⟩, below) := by
  cases ht : t.resolve? types with
  | none =>
    refine .inl ?_
    intro e he locals scan
    simp only [enter, he, ht]
    rfl
  | some type =>
    cases hsplit : splitStack type.params.length stack with
    | none =>
      refine .inl ?_
      intro e he locals scan
      simp only [enter, he, ht, Option.bind_eq_bind, Option.bind_some, hsplit, Option.bind_none]
    | some parts =>
      refine .inr ⟨type, parts.1, parts.2, ?_⟩
      intro e he locals scan
      simp only [enter, he, ht, Option.bind_eq_bind, Option.bind_some, hsplit]
      rfl

section Code

variable {e : Surroundings}

theorem Surroundings.call_uniform (hown : ∀ n args, Uniform index (e.callOwn n args)) (i : Nat)
    (stack locals : List Value) :
    UniformOutcome index fun scan => e.call i ⟨stack, locals, scan⟩ := by
  rcases Surroundings.call_cases e.functions i stack with hstuck | ⟨callee, _, args, below, _, hcall⟩
  · simp only [hstuck e rfl]
    exact .halt .stuck
  · have hinvoke : Uniform index fun scan => callee.invoke e.callOwn args scan := by
      cases callee with
      | host h => exact h.invoke_uniform args
      | own n t => exact hown n args
    obtain ⟨result, ids, hresult⟩ := hinvoke
    refine ⟨Returned.resume below locals (result, .new 0 none), ids, ?_⟩
    intro scan hscan
    simp only [hcall e rfl, hresult scan hscan]
    cases result <;> rfl

/-- An instruction that is not a call does not look at the scan. -/
theorem Plain.exec_withScan (e : Surroundings) {p : Plain} (hp : ∀ i, p ≠ .call i)
    (stack locals : List Value) (scan other : ScanState) :
    p.exec e ⟨stack, locals, scan⟩ = (p.exec e ⟨stack, locals, other⟩).withScan scan := by
  cases p with
  | call i => exact absurd rfl (hp i)
  | brIf d | localSet i | localTee i =>
    simp only [Plain.exec]
    split
    · split <;> rfl
    · rfl
  | drop | select | localGet i | numeric n =>
    simp only [Plain.exec]
    split <;> rfl
  | unreachable | nop | br d | return_ | i32Const v | i64Const v => rfl

theorem Plain.exec_uniform (hown : ∀ n args, Uniform index (e.callOwn n args)) (p : Plain)
    (stack locals : List Value) :
    UniformOutcome index fun scan => p.exec e ⟨stack, locals, scan⟩ := by
  by_cases hp : ∃ i, p = .call i
  · obtain ⟨i, rfl⟩ := hp
    exact Surroundings.call_uniform hown i stack locals
  · have hplain : ∀ i, p ≠ .call i := fun i hi => hp ⟨i, hi⟩
    refine ⟨p.exec e ⟨stack, locals, .new 0 none⟩, [], ?_⟩
    intro scan _
    exact Plain.exec_withScan e hplain stack locals scan _

/-- Code takes one path over all scans whose indexes answer alike. -/
theorem Code.exec_uniform (hown : ∀ n args, Uniform index (e.callOwn n args)) (code : Code)
    (stack locals : List Value) :
    UniformOutcome index fun scan => code.exec e ⟨stack, locals, scan⟩ := by
  induction code generalizing stack locals with
  | done => exact .next stack locals
  | plain p k ih => exact (Plain.exec_uniform hown p stack locals).andThen ih
  | block t b k ihb ihk =>
    simp only [exec]
    rcases Surroundings.enter_cases e.types t stack with hnone | ⟨type, inner, below, henter⟩
    · simp only [hnone e rfl]
      exact .halt .stuck
    · simp only [henter e rfl]
      exact ((ihb inner locals).leave type.results.length below).andThen ihk
  | loop t b k ihb ihk =>
    simp only [exec]
    rcases Surroundings.enter_cases e.types t stack with hnone | ⟨type, inner, below, henter⟩
    · simp only [hnone e rfl]
      exact .halt .stuck
    · simp only [henter e rfl]
      have hrounds := UniformOutcome.again ihb type.params.length e.rounds inner locals
      exact (hrounds.leave type.results.length below).andThen ihk
  | ifThen t b k ihb ihk =>
    simp only [exec]
    split
    · rename_i v s
      rcases Surroundings.enter_cases e.types t s with hnone | ⟨type, inner, below, henter⟩
      · simp only [hnone e rfl]
        exact .halt .stuck
      · simp only [henter e rfl]
        by_cases hv : v = 0
        · simp only [if_pos hv]
          exact ((UniformOutcome.next inner locals).leave type.results.length below).andThen ihk
        · simp only [if_neg hv]
          exact ((ihb inner locals).leave type.results.length below).andThen ihk
    · exact .halt .stuck
  | ifElse t b a k ihb iha ihk =>
    simp only [exec]
    split
    · rename_i v s
      rcases Surroundings.enter_cases e.types t s with hnone | ⟨type, inner, below, henter⟩
      · simp only [hnone e rfl]
        exact .halt .stuck
      · simp only [henter e rfl]
        by_cases hv : v = 0
        · simp only [if_pos hv]
          exact ((iha inner locals).leave type.results.length below).andThen ihk
        · simp only [if_neg hv]
          exact ((ihb inner locals).leave type.results.length below).andThen ihk
    · exact .halt .stuck

end Code

/-! ### Functions -/

namespace Instance

theorem runOwn_uniform (m : Instance) (rounds : Nat)
    {callOwn : Nat → List Value → ScanState → Returned}
    (hown : ∀ n args, Uniform index (callOwn n args)) (n : Nat) (args : List Value) :
    Uniform index (m.runOwn rounds callOwn n args) := by
  unfold runOwn
  cases m.own[n]? with
  | none => exact .const _
  | some f =>
    exact (Code.exec_uniform (e := ⟨m.types, m.functions, rounds, callOwn⟩) hown f.code []
      (args ++ f.locals)).returned f.type.results.length

/-- A call of one of the module's own functions, by induction on the depth to which they may call each
other. -/
theorem invoke_uniform (m : Instance) (rounds depth n : Nat) (args : List Value) :
    Uniform index (m.invoke rounds depth n args) := by
  induction depth generalizing n args with
  | zero => exact m.runOwn_uniform rounds (fun _ _ => .const _) n args
  | succ depth ih => exact m.runOwn_uniform rounds ih n args

theorem run_uniform (m : Instance) (limits : Limits) (i : Nat) :
    Uniform index (m.run limits i) := by
  unfold Instance.run
  split
  · exact .const _
  · rename_i callee _
    by_cases hparams : callee.type.params ≠ []
    · simp only [if_pos hparams]
      exact .const _
    · simp only [if_neg hparams]
      cases callee with
      | host h => exact h.invoke_uniform []
      | own n t => exact m.invoke_uniform limits.rounds limits.calls n []

end Instance

end RuleScan
