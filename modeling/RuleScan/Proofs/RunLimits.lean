import RuleScan.Proofs.UniformRuns

/-!
# How runs depend on their limits

A limit shows in a run only as the halt that it causes. Until a loop uses up its rounds, it runs as it
would with more of them. If a module has only one function of its own, and that takes no parameters,
then a call of itself does the same as the call before, so it overflows the stack at any depth, after
the same reports. Of several functions that call each other, the depth can decide what they do.
-/
namespace RuleScan

/-- The second outcome is the first, unless the first is a halt for the given reason. Where `after`
gives a halt for it, the second outcome is then that one. -/
def Outcome.Extends (cut : Halt) (after : ScanState → Option (Halt × ScanState)) (o o' : Outcome) :
    Prop :=
  o' = o ∨ ∃ s, o = .halt cut s ∧ ∀ h t, after s = some (h, t) → o' = .halt h t

/-- The same of what calls give. -/
def Returned.Extends (cut : Halt) (after : ScanState → Option (Halt × ScanState)) (r r' : Returned) :
    Prop :=
  r' = r ∨ ∃ s, r = (.error cut, s) ∧ ∀ h t, after s = some (h, t) → r' = (.error h, t)

variable {cut : Halt} {after : ScanState → Option (Halt × ScanState)}

theorem Returned.Extends.resume {r r' : Returned} (h : Returned.Extends cut after r r')
    (below locals : List Value) :
    (Returned.resume below locals r).Extends cut after (Returned.resume below locals r') := by
  rcases h with rfl | ⟨s, rfl, hs⟩
  · exact .inl rfl
  · refine .inr ⟨s, rfl, ?_⟩
    intro h t hafter
    rw [hs h t hafter]
    rfl

namespace Outcome.Extends

variable {o o' : Outcome}

theorem andThen (h : o.Extends cut after o') {rest rest' : Frame → Outcome}
    (hrest : ∀ f, (rest f).Extends cut after (rest' f)) :
    (o.andThen rest).Extends cut after (o'.andThen rest') := by
  rcases h with rfl | ⟨s, rfl, hs⟩
  · cases o' with
    | next f => exact hrest f
    | branch _ _ | return_ _ | halt _ _ => exact .inl rfl
  · refine .inr ⟨s, rfl, ?_⟩
    intro h t hafter
    rw [hs h t hafter]
    rfl

theorem leave (h : o.Extends cut after o') (arity : Nat) (below : List Value) :
    (o.leave arity below).Extends cut after (o'.leave arity below) := by
  rcases h with rfl | ⟨s, rfl, hs⟩
  · exact .inl rfl
  · refine .inr ⟨s, rfl, ?_⟩
    intro h t hafter
    rw [hs h t hafter]
    rfl

theorem returned (h : o.Extends cut after o') (arity : Nat) :
    Returned.Extends cut after (o.returned arity) (o'.returned arity) := by
  rcases h with rfl | ⟨s, rfl, hs⟩
  · exact .inl rfl
  · refine .inr ⟨s, rfl, ?_⟩
    intro h t hafter
    rw [hs h t hafter]
    rfl

/-- The rounds of a loop, by induction on their number. A loop may have more of them on the right if
what is cut off are the rounds that are missing. -/
theorem again {run run' : Frame → Outcome} (hrun : ∀ f, (run f).Extends cut after (run' f))
    (arity : Nat) {rounds rounds' : Nat}
    (hrounds : rounds' = rounds ∨ cut = .unfinished ∧ (∀ s, after s = none) ∧ rounds ≤ rounds')
    (f : Frame) :
    (Outcome.again run arity rounds f).Extends cut after (Outcome.again run' arity rounds' f) := by
  induction rounds generalizing rounds' f with
  | zero =>
    rcases hrounds with rfl | ⟨rfl, hafter, _⟩
    · exact .inl rfl
    · refine .inr ⟨f.scan, rfl, ?_⟩
      intro h t hsome
      rw [hafter] at hsome
      contradiction
  | succ rounds ih =>
    obtain ⟨more, rfl, hmore⟩ : ∃ more, rounds' = more + 1 ∧
        (more = rounds ∨ cut = .unfinished ∧ (∀ s, after s = none) ∧ rounds ≤ more) := by
      rcases hrounds with rfl | ⟨hcut, hafter, hle⟩
      · exact ⟨rounds, rfl, .inl rfl⟩
      · exact ⟨rounds' - 1, by omega, .inr ⟨hcut, hafter, by omega⟩⟩
    rcases hrun f with heq | ⟨s, hcut, hs⟩
    · simp only [Outcome.again, heq]
      split
      · rename_i g _
        cases splitStack arity g.stack with
        | none => exact .inl rfl
        | some parts => exact ih hmore _
      all_goals exact .inl rfl
    · refine .inr ⟨s, by simp only [Outcome.again, hcut], ?_⟩
      intro h t hafter
      simp only [Outcome.again, hs h t hafter]

end Outcome.Extends

/-- The surroundings differ in their rounds and in what calls of the module's own functions give, and
there in the second extending the first. -/
structure Surroundings.Extends (cut : Halt) (after : ScanState → Option (Halt × ScanState))
    (e e' : Surroundings) : Prop where
  types : e'.types = e.types
  functions : e'.functions = e.functions
  rounds : e'.rounds = e.rounds ∨
    cut = .unfinished ∧ (∀ s, after s = none) ∧ e.rounds ≤ e'.rounds
  callOwn : ∀ n t, .own n t ∈ e.functions → ∀ args, args.map Value.type = t.params → ∀ scan,
    Returned.Extends cut after (e.callOwn n args scan) (e'.callOwn n args scan)

section Code

variable {e e' : Surroundings}

theorem Surroundings.Extends.call (h : e.Extends cut after e') (i : Nat) (f : Frame) :
    (e.call i f).Extends cut after (e'.call i f) := by
  rcases Surroundings.call_cases e.functions i f.stack with
    hstuck | ⟨callee, hmem, args, below, hargs, hcall⟩
  · have hleft := hstuck e rfl f.locals f.scan
    have hright := hstuck e' h.functions f.locals f.scan
    exact .inl (hright.trans hleft.symm)
  · have hleft := hcall e rfl f.locals f.scan
    have hright := hcall e' h.functions f.locals f.scan
    rw [hleft, hright]
    cases callee with
    | host g => exact .inl rfl
    | own n t => exact (h.callOwn n t hmem args hargs f.scan).resume below f.locals

theorem Plain.exec_extends (h : e.Extends cut after e') (p : Plain) (f : Frame) :
    (p.exec e f).Extends cut after (p.exec e' f) := by
  cases p with
  | call i => exact h.call i f
  | _ => exact .inl rfl

theorem Surroundings.Extends.enter (h : e.Extends cut after e') (t : BlockType) (f : Frame) :
    e'.enter t f = e.enter t f := by
  rw [Surroundings.enter, Surroundings.enter, h.types]

theorem Code.exec_extends (h : e.Extends cut after e') (code : Code) (f : Frame) :
    (code.exec e f).Extends cut after (code.exec e' f) := by
  induction code generalizing f with
  | done => exact .inl rfl
  | plain p k ih => exact (p.exec_extends h f).andThen ih
  | block t b k ihb ihk =>
    simp only [exec, h.enter]
    split
    · exact .inl rfl
    · exact ((ihb _).leave _ _).andThen ihk
  | loop t b k ihb ihk =>
    simp only [exec, h.enter]
    split
    · exact .inl rfl
    · exact ((Outcome.Extends.again ihb _ h.rounds _).leave _ _).andThen ihk
  | ifThen t b k ihb ihk =>
    simp only [exec, h.enter]
    split
    · rename_i v s _
      split
      · exact .inl rfl
      · rename_i type inner below _
        have hlast : (if v = 0 then Outcome.next inner else b.exec e inner).Extends cut after
            (if v = 0 then Outcome.next inner else b.exec e' inner) := by
          split
          · exact .inl rfl
          · exact ihb inner
        exact (hlast.leave _ _).andThen ihk
    · exact .inl rfl
  | ifElse t b a k ihb iha ihk =>
    simp only [exec, h.enter]
    split
    · rename_i v s _
      split
      · exact .inl rfl
      · rename_i type inner below _
        have hlast : (if v = 0 then a.exec e inner else b.exec e inner).Extends cut after
            (if v = 0 then a.exec e' inner else b.exec e' inner) := by
          split
          · exact iha inner
          · exact ihb inner
        exact (hlast.leave _ _).andThen ihk
    · exact .inl rfl

end Code

namespace Instance

variable (m : Instance)

theorem runOwn_extends {rounds rounds' : Nat}
    {callOwn callOwn' : Nat → List Value → ScanState → Returned}
    (hrounds : rounds' = rounds ∨ cut = .unfinished ∧ (∀ s, after s = none) ∧ rounds ≤ rounds')
    (hown : ∀ n t, .own n t ∈ m.functions → ∀ args, args.map Value.type = t.params → ∀ scan,
      Returned.Extends cut after (callOwn n args scan) (callOwn' n args scan))
    (n : Nat) (args : List Value) (scan : ScanState) :
    Returned.Extends cut after (m.runOwn rounds callOwn n args scan)
      (m.runOwn rounds' callOwn' n args scan) := by
  unfold runOwn
  cases m.own[n]? with
  | none => exact .inl rfl
  | some f =>
    have hsurroundings : Surroundings.Extends cut after ⟨m.types, m.functions, rounds, callOwn⟩
        ⟨m.types, m.functions, rounds', callOwn'⟩ := ⟨rfl, rfl, hrounds, hown⟩
    exact (f.code.exec_extends hsurroundings _).returned _

/-- More rounds only change a run that has used up its rounds. -/
theorem invoke_rounds {rounds more : Nat} (hle : rounds ≤ more) (depth n : Nat) (args : List Value)
    (scan : ScanState) : Returned.Extends .unfinished (fun _ => none)
      (m.invoke rounds depth n args scan) (m.invoke more depth n args scan) := by
  induction depth generalizing n args scan with
  | zero =>
    refine m.runOwn_extends (.inr ⟨rfl, fun _ => rfl, hle⟩) ?_ n args scan
    intro _ _ _ _ _ _
    exact .inl rfl
  | succ depth ih =>
    refine m.runOwn_extends (.inr ⟨rfl, fun _ => rfl, hle⟩) ?_ n args scan
    intro n _ _ args _ scan
    exact ih n args scan

/-- A call that ends is the same with more rounds. -/
theorem run_more_rounds {rounds more : Nat} (hle : rounds ≤ more) {calls i : Nat} {scan : ScanState}
    (hends : (m.run ⟨rounds, calls⟩ i scan).1 ≠ .error .unfinished) :
    m.run ⟨more, calls⟩ i scan = m.run ⟨rounds, calls⟩ i scan := by
  unfold run at hends ⊢
  cases hi : m.functions[i]? with
  | none => rfl
  | some callee =>
    simp only [hi] at hends ⊢
    split at hends
    · rename_i hparams
      rw [if_pos hparams, if_pos hparams]
    · rename_i hparams
      rw [if_neg hparams, if_neg hparams]
      cases callee with
      | host h => rfl
      | own n t =>
        rcases m.invoke_rounds hle calls n [] scan with heq | ⟨s, hcut, _⟩
        · exact heq
        · exact absurd (congrArg Prod.fst hcut) hends

variable {m}

/-- The only function of a module gives the same to any depth, if it has no parameters. Where it calls
itself it does so in every call, and so overflows the stack at last; the reports that each call makes
before are the same, and only the first of them count. -/
theorem invoke_depth (hown : ∀ n t, .own n t ∈ m.functions → n = 0 ∧ t.params = [])
    (rounds depth : Nat) (scan : ScanState) :
    m.invoke rounds depth 0 [] scan = m.invoke rounds 0 0 [] scan := by
  induction depth generalizing scan with
  | zero => rfl
  | succ depth ih =>
    -- The stack overflows in the innermost call; one level deeper, a whole call takes its place.
    let after (s : ScanState) : Option (Halt × ScanState) :=
      match m.invoke rounds 0 0 [] s with
      | (.error h, t) => some (h, t)
      | (.ok _, _) => none
    have hextends : Returned.Extends (.trap .stackOverflow) after (m.invoke rounds 0 0 [] scan)
        (m.invoke rounds (depth + 1) 0 [] scan) := by
      refine m.runOwn_extends (.inl rfl) ?_ 0 [] scan
      intro n t ht args hargs s
      obtain ⟨rfl, hparams⟩ := hown n t ht
      obtain rfl : args = [] := by simpa [hparams] using hargs
      refine .inr ⟨s, rfl, ?_⟩
      intro h s' hafter
      rw [ih]
      simp only [after] at hafter
      split at hafter
      · rename_i heq
        obtain ⟨rfl, rfl⟩ := Prod.mk.inj (Option.some.inj hafter)
        exact heq
      · contradiction
    rcases hextends with heq | ⟨s, hcut, hs⟩
    · exact heq
    · obtain ⟨a, ids, huniform⟩ := m.invoke_uniform rounds 0 0 []
      have hscan := huniform scan (.refl scan.index)
      obtain ⟨rfl, rfl⟩ := Prod.mk.inj (hscan.symm.trans hcut)
      have hagain := huniform _ ((PatternSource.Agrees.refl scan.index).ruleMatchAll ids)
      rw [ScanState.ruleMatchAll_twice] at hagain
      rw [hcut]
      refine hs _ _ ?_
      simp only [after, hagain]

/-- So a call of such a function by its index does not depend on the depth. -/
theorem run_calls (hown : ∀ n t, .own n t ∈ m.functions → n = 0 ∧ t.params = [])
    (rounds calls calls' i : Nat) (scan : ScanState) :
    m.run ⟨rounds, calls⟩ i scan = m.run ⟨rounds, calls'⟩ i scan := by
  unfold run
  cases hi : m.functions[i]? with
  | none => rfl
  | some callee =>
    cases callee with
    | host h => rfl
    | own n t =>
      obtain ⟨rfl, hparams⟩ := hown n t (List.mem_of_getElem? hi)
      have hnone : ¬ (Callee.own 0 t).type.params ≠ [] := fun hne => hne hparams
      simp only [if_neg hnone, invoke_depth hown rounds calls, invoke_depth hown rounds calls']

end Instance

end RuleScan
