import RuleScan.Proofs.BuiltModules
import RuleScan.Proofs.HostCalls

/-!
# Valid code does not get stuck

Where a run stands, the checker knows the exact types of the operands: what it assumes after an
instruction that never falls through is never reached. Every instruction therefore finds its
operands, locals, labels and callees, and leaves operands and locals of the types that the checker
has computed. For a block this is what its content does, less one label; for a loop the parameters
of the loop are the invariant of its rounds; and for calls the induction is on the call depth.
-/
namespace RuleScan

/-! ### Operands of known types -/

/-- The exact shape of operands. -/
def StackShape.of (stack : List Value) : StackShape := ⟨stack.map fun v => some v.type, false⟩

/-- The topmost operands have the given types, the last one on top. -/
def Topmost (ts : List ValType) (stack : List Value) : Prop :=
  ∃ args rest : List Value, args.map Value.type = ts ∧ stack = args.reverse ++ rest

namespace StackShape

variable {stack : List Value} {s : StackShape} {t : ValType} {ts : List ValType}

theorem popAny_of {u : Option ValType} (h : (of stack).popAny = some (u, s)) :
    ∃ v rest, stack = v :: rest ∧ u = some v.type ∧ s = of rest := by
  cases stack with
  | nil => contradiction
  | cons v rest =>
    obtain ⟨rfl, rfl⟩ := Prod.mk.inj (Option.some.inj h)
    exact ⟨v, rest, rfl, rfl, rfl⟩

theorem pop_of (h : (of stack).pop t = some s) :
    ∃ v rest, stack = v :: rest ∧ v.type = t ∧ s = of rest := by
  simp only [pop, Option.bind_eq_bind, Option.bind_eq_some_iff, Option.guard_eq_some'] at h
  obtain ⟨⟨u, below⟩, hpop, _, hallowed, hs⟩ := h
  obtain ⟨v, rest, rfl, rfl, rfl⟩ := popAny_of hpop
  have htype : v.type = t := by simpa using hallowed
  exact ⟨v, rest, rfl, htype, (Option.some.inj hs).symm⟩

theorem popAll_of (h : (of stack).popAll ts = some s) :
    ∃ args rest : List Value, args.map Value.type = ts ∧ stack = args.reverse ++ rest ∧ s = of rest := by
  induction ts generalizing s with
  | nil => exact ⟨[], stack, rfl, rfl, (Option.some.inj h).symm⟩
  | cons t ts ih =>
    simp only [popAll, List.foldrM_cons, Option.bind_eq_bind, Option.bind_eq_some_iff] at h
    obtain ⟨mid, hmid, hpop⟩ := h
    obtain ⟨args, rest, hargs, rfl, rfl⟩ := ih hmid
    obtain ⟨v, rest, rfl, rfl, rfl⟩ := pop_of hpop
    refine ⟨v :: args, rest, ?_, ?_, rfl⟩
    · rw [List.map_cons, hargs]
    · rw [List.reverse_cons, List.append_assoc]
      rfl

theorem topmost_of_popAll (h : (of stack).popAll ts = some s) : Topmost ts stack := by
  obtain ⟨args, rest, hargs, hstack, _⟩ := popAll_of h
  exact ⟨args, rest, hargs, hstack⟩

theorem pushAll_of (args rest : List Value) :
    (of rest).pushAll (args.map Value.type) = of (args.reverse ++ rest) := by
  rw [pushAll_eq]
  simp [of]

theorem ofTypes_of (args : List Value) : ofTypes (args.map Value.type) = of args.reverse := by
  simp [ofTypes, of]

theorem isExactly_of (h : (of stack).isExactly ts = true) :
    ∃ args : List Value, args.map Value.type = ts ∧ stack = args.reverse := by
  unfold isExactly at h
  split at h
  · rename_i s hpop
    obtain ⟨args, rest, hargs, rfl, rfl⟩ := popAll_of hpop
    have hrest : rest = [] := by simpa [of] using h
    exact ⟨args, hargs, by rw [hrest, List.append_nil]⟩
  · contradiction

end StackShape

open StackShape (of)

theorem splitStack_topmost {ts : List ValType} {stack : List Value} (h : Topmost ts stack) :
    ∃ args rest : List Value, args.map Value.type = ts ∧
      splitStack ts.length stack = some (args.reverse, rest) := by
  obtain ⟨args, rest, hargs, rfl⟩ := h
  have hlen : ts.length = args.reverse.length := by rw [← hargs]; simp
  exact ⟨args, rest, hargs, by rw [hlen, splitStack_append]⟩

/-- A list of values with one of them replaced by a value of the same type. -/
theorem map_type_set {locals : List Value} {ts : List ValType} (h : locals.map Value.type = ts)
    {i : Nat} {v : Value} (hi : ts[i]? = some v.type) : (locals.set i v).map Value.type = ts := by
  rw [List.map_set, h]
  apply List.ext_getElem?
  intro j
  by_cases hj : i = j
  · subst hj
    rw [List.getElem?_set_self (lt_length_of_getElem? hi), hi]
  · rw [List.getElem?_set_ne hj]

theorem exists_local {locals : List Value} {ts : List ValType} (h : locals.map Value.type = ts)
    {i : Nat} {t : ValType} (hi : ts[i]? = some t) : ∃ v, locals[i]? = some v ∧ v.type = t := by
  rw [← h, List.getElem?_map, Option.map_eq_some_iff] at hi
  exact hi

/-! ### Typed outcomes -/

/-- A call gave results of the given types, or ended without getting stuck. -/
def Returned.Typed (ts : List ValType) (r : Returned) : Prop :=
  match r.1 with
  | .ok results => results.map Value.type = ts
  | .error h => h ≠ .stuck

/-- What code may do that leaves operands of the given shape if it falls through. -/
def Outcome.Typed (c : Scope) (s : StackShape) : Outcome → Prop
  | .next f => of f.stack = s ∧ f.locals.map Value.type = c.locals
  | .branch d f =>
    (∃ label, c.labels[d]? = some label ∧ Topmost label f.stack) ∧
      f.locals.map Value.type = c.locals
  | .return_ f => Topmost c.results f.stack
  | .halt h _ => h ≠ .stuck

/-- Surroundings that provide what a scope promises. -/
structure Surroundings.Provides (e : Surroundings) (c : Scope) : Prop where
  types : e.types = c.types
  functions : e.functions.map Callee.type = c.functions
  own : ∀ n t, .own n t ∈ e.functions → ∀ args scan, args.map Value.type = t.params →
    Returned.Typed t.results (e.callOwn n args scan)

theorem Surroundings.Provides.inside {e : Surroundings} {c : Scope} (h : e.Provides c)
    (label : List ValType) : e.Provides (c.inside label) := ⟨h.types, h.functions, h.own⟩

namespace Outcome.Typed

variable {c : Scope} {s s' : StackShape} {o : Outcome}

theorem andThen (h : o.Typed c s) {rest : Frame → Outcome}
    (hrest : ∀ f, of f.stack = s → f.locals.map Value.type = c.locals → (rest f).Typed c s') :
    (o.andThen rest).Typed c s' := by
  cases o with
  | next f => exact hrest f h.1 h.2
  | branch d f => exact h
  | return_ f => exact h
  | halt h' scan => exact h

/-- Leaving a block whose label takes its results. -/
theorem leave {results : List ValType} (h : o.Typed (c.inside results) s)
    (hexact : s.isExactly results = true) (below : List Value) :
    (o.leave results.length below).Typed c ((of below).pushAll results) := by
  cases o with
  | next f =>
    obtain ⟨rfl, hlocals⟩ := h
    obtain ⟨args, hargs, hstack⟩ := StackShape.isExactly_of hexact
    refine ⟨?_, hlocals⟩
    rw [← hargs, StackShape.pushAll_of, hstack]
  | branch d f =>
    obtain ⟨⟨label, hlabel, htop⟩, hlocals⟩ := h
    cases d with
    | zero =>
      obtain rfl : results = label := Option.some.inj hlabel
      obtain ⟨args, rest, hargs, hsplit⟩ := splitStack_topmost htop
      simp only [Outcome.leave, hsplit]
      refine ⟨?_, hlocals⟩
      rw [← hargs, StackShape.pushAll_of]
    | succ d => exact ⟨⟨label, hlabel, htop⟩, hlocals⟩
  | return_ f => exact h
  | halt h' scan => exact h

/-- The rounds of a loop. Each one starts with the parameters of the loop, the first one on entry
and any other by a branch to the loop. -/
theorem again {params results : List ValType} {run : Frame → Outcome}
    (hrun : ∀ f, of f.stack = .ofTypes params → f.locals.map Value.type = c.locals →
      (run f).Typed (c.inside params) s)
    (rounds : Nat) {f : Frame} (hf : of f.stack = .ofTypes params)
    (hlocals : f.locals.map Value.type = c.locals) :
    (Outcome.again run params.length rounds f).Typed (c.inside results) s := by
  induction rounds generalizing f with
  | zero => exact Halt.noConfusion
  | succ rounds ih =>
    have hround := hrun f hf hlocals
    unfold Outcome.again
    cases ho : run f with
    | next g =>
      rw [ho] at hround
      exact hround
    | branch d g =>
      rw [ho] at hround
      obtain ⟨⟨label, hlabel, htop⟩, hg⟩ := hround
      cases d with
      | zero =>
        obtain rfl : params = label := Option.some.inj hlabel
        obtain ⟨args, rest, hargs, hsplit⟩ := splitStack_topmost htop
        simp only [hsplit]
        refine ih ?_ hg
        rw [← hargs, StackShape.ofTypes_of]
      | succ d => exact ⟨⟨label, hlabel, htop⟩, hg⟩
    | return_ g =>
      rw [ho] at hround
      exact hround
    | halt h scan =>
      rw [ho] at hround
      exact hround

/-- The end of a function whose body is the only label. -/
theorem returned (h : o.Typed (c.inside c.results) s) (hexact : s.isExactly c.results = true)
    (hlabels : c.labels = []) : Returned.Typed c.results (o.returned c.results.length) := by
  have hresults : ∀ f : Frame, Topmost c.results f.stack →
      Returned.Typed c.results (Outcome.returned.results c.results.length f) := by
    intro f htop
    obtain ⟨args, rest, hargs, hsplit⟩ := splitStack_topmost htop
    simp only [Outcome.returned.results, hsplit, Returned.Typed, List.reverse_reverse]
    exact hargs
  cases o with
  | next f =>
    obtain ⟨rfl, _⟩ := h
    obtain ⟨args, hargs, hstack⟩ := StackShape.isExactly_of hexact
    exact hresults f ⟨args, [], hargs, by rw [hstack, List.append_nil]⟩
  | branch d f =>
    obtain ⟨⟨label, hlabel, htop⟩, _⟩ := h
    cases d with
    | zero =>
      obtain rfl : c.results = label := Option.some.inj hlabel
      exact hresults f htop
    | succ d =>
      have hnone : c.labels[d]? = some label := hlabel
      rw [hlabels] at hnone
      contradiction
  | return_ f => exact hresults f h
  | halt h' scan => exact h

end Outcome.Typed

/-! ### Instructions -/

/-- An operator applied to operands of its parameter types gives one of its result type, or traps. -/
theorem Numeric.apply_typed (n : Numeric) {args : List Value}
    (hargs : args.map Value.type = n.type.params) (rest : List Value) :
    (∃ v, n.apply (args.reverse ++ rest) = some (.ok (v :: rest)) ∧ [v.type] = n.type.results) ∨
      ∃ t, n.apply (args.reverse ++ rest) = some (.error t) := by
  cases n with
  | eqz32 | extendSigned | extendUnsigned =>
    obtain ⟨v, rfl, hv⟩ := List.map_eq_singleton_iff.mp hargs
    obtain ⟨a, rfl⟩ := Value.of_type_i32 hv
    exact .inl ⟨_, rfl, rfl⟩
  | eqz64 | wrap =>
    obtain ⟨v, rfl, hv⟩ := List.map_eq_singleton_iff.mp hargs
    obtain ⟨a, rfl⟩ := Value.of_type_i64 hv
    exact .inl ⟨_, rfl, rfl⟩
  | relation32 r | arith32 r =>
    obtain ⟨v, w, rfl, hv, hw⟩ := Value.of_map_type_pair hargs
    obtain ⟨a, rfl⟩ := Value.of_type_i32 hv
    obtain ⟨b, rfl⟩ := Value.of_type_i32 hw
    exact .inl ⟨_, rfl, rfl⟩
  | relation64 r =>
    obtain ⟨v, w, rfl, hv, hw⟩ := Value.of_map_type_pair hargs
    obtain ⟨a, rfl⟩ := Value.of_type_i64 hv
    obtain ⟨b, rfl⟩ := Value.of_type_i64 hw
    exact .inl ⟨_, rfl, rfl⟩
  | arith64 o =>
    obtain ⟨v, w, rfl, hv, hw⟩ := Value.of_map_type_pair hargs
    obtain ⟨a, rfl⟩ := Value.of_type_i64 hv
    obtain ⟨b, rfl⟩ := Value.of_type_i64 hw
    have happly : (Numeric.arith64 o).apply ([.i64 a, .i64 b].reverse ++ rest) =
        some ((o.eval a b).map fun v => .i64 v :: rest) := rfl
    rw [happly]
    cases o.eval a b with
    | ok v => exact .inl ⟨_, rfl, rfl⟩
    | error t => exact .inr ⟨t, rfl⟩

section Soundness

variable {e : Surroundings} {c : Scope} {f : Frame} {s : StackShape}

/-- A call of a function that the scope knows. -/
theorem Surroundings.call_typed (he : e.Provides c) {i : Nat} {type : FuncType}
    (hi : c.functions[i]? = some type) {below : StackShape}
    (hpop : (of f.stack).popAll type.params = some below)
    (hlocals : f.locals.map Value.type = c.locals) :
    (e.call i f).Typed c (below.pushAll type.results) := by
  obtain ⟨stack, locals, scan⟩ := f
  obtain ⟨args, rest, hargs, hstack, rfl⟩ := StackShape.popAll_of hpop
  obtain rfl : stack = args.reverse ++ rest := hstack
  rw [← he.functions, List.getElem?_map, Option.map_eq_some_iff] at hi
  obtain ⟨callee, hcallee, rfl⟩ := hi
  have htake := takeArguments_reverse hargs rest
  have hresults : ∀ results : List Value, results.map Value.type = callee.type.results →
      of (results.reverse ++ rest) = (of rest).pushAll callee.type.results := by
    intro results h
    rw [← h, StackShape.pushAll_of]
  cases callee with
  | host h =>
    obtain ⟨results, after, hinvoke, htyped⟩ := h.invoke_ok hargs scan
    simp only [Surroundings.call, hcallee, htake, hinvoke]
    exact ⟨hresults results htyped, hlocals⟩
  | own n t =>
    have hown := he.own n t (List.mem_of_getElem? hcallee) args scan hargs
    simp only [Surroundings.call, hcallee, htake]
    generalize e.callOwn n args scan = returned at hown ⊢
    obtain ⟨result, after⟩ := returned
    cases result with
    | ok results => exact ⟨hresults results hown, hlocals⟩
    | error h => exact hown

theorem Plain.exec_typed {p : Plain} (h : p.check c (of f.stack) = some s) (he : e.Provides c)
    (hlocals : f.locals.map Value.type = c.locals) : (p.exec e f).Typed c s := by
  cases p with
  | unreachable => exact Halt.noConfusion
  | nop => exact ⟨Option.some.inj h, hlocals⟩
  | br d =>
    simp only [Plain.check, Option.bind_eq_bind, Option.bind_eq_some_iff] at h
    obtain ⟨label, hlabel, below, hpop, _⟩ := h
    exact ⟨⟨label, hlabel, StackShape.topmost_of_popAll hpop⟩, hlocals⟩
  | brIf d =>
    simp only [Plain.check, Option.bind_eq_bind, Option.bind_eq_some_iff] at h
    obtain ⟨label, hlabel, mid, hcond, below, hpop, hs⟩ := h
    obtain ⟨v, rest, hstack, hv, rfl⟩ := StackShape.pop_of hcond
    obtain ⟨a, rfl⟩ := Value.of_type_i32 hv
    obtain ⟨args, under, hargs, rfl, rfl⟩ := StackShape.popAll_of hpop
    have hs' : of (args.reverse ++ under) = s := by
      rw [← StackShape.pushAll_of, hargs]
      exact Option.some.inj hs
    simp only [Plain.exec, hstack]
    by_cases ha : a = 0
    · rw [if_pos ha]
      exact ⟨hs', hlocals⟩
    · rw [if_neg ha]
      exact ⟨⟨label, hlabel, args, under, hargs, rfl⟩, hlocals⟩
  | return_ =>
    simp only [Plain.check, Option.bind_eq_bind, Option.bind_eq_some_iff] at h
    obtain ⟨below, hpop, _⟩ := h
    exact StackShape.topmost_of_popAll hpop
  | call i =>
    simp only [Plain.check, Option.bind_eq_bind, Option.bind_eq_some_iff] at h
    obtain ⟨type, htype, below, hpop, hs⟩ := h
    rw [← Option.some.inj hs]
    exact Surroundings.call_typed he htype hpop hlocals
  | drop =>
    simp only [Plain.check, Option.bind_eq_bind, Option.bind_eq_some_iff] at h
    obtain ⟨⟨u, below⟩, hpop, hs⟩ := h
    obtain ⟨v, rest, hstack, rfl, rfl⟩ := StackShape.popAny_of hpop
    simp only [Plain.exec, hstack]
    exact ⟨Option.some.inj hs, hlocals⟩
  | select =>
    simp only [Plain.check, Option.bind_eq_bind, Option.bind_eq_some_iff] at h
    obtain ⟨s₁, hcond, ⟨u, s₂⟩, hfirst, ⟨w, s₃⟩, hsecond, joined, hjoin, _, _, hs⟩ := h
    obtain ⟨v, rest, hstack, hv, rfl⟩ := StackShape.pop_of hcond
    obtain ⟨a, rfl⟩ := Value.of_type_i32 hv
    obtain ⟨x, rest, rfl, rfl, rfl⟩ := StackShape.popAny_of hfirst
    obtain ⟨y, rest, rfl, rfl, rfl⟩ := StackShape.popAny_of hsecond
    simp only [StackShape.join] at hjoin
    split at hjoin
    · rename_i hsame
      obtain rfl := Option.some.inj hjoin
      simp only [Plain.exec, hstack]
      refine ⟨?_, hlocals⟩
      rw [← Option.some.inj hs]
      by_cases ha : a = 0
      · rw [if_pos ha]
        rfl
      · rw [if_neg ha]
        simp only [StackShape.of, StackShape.pushAny, List.map_cons, hsame]
    · contradiction
  | localGet i =>
    simp only [Plain.check, Option.bind_eq_bind, Option.bind_eq_some_iff] at h
    obtain ⟨t, ht, hs⟩ := h
    obtain ⟨v, hv, rfl⟩ := exists_local hlocals ht
    simp only [Plain.exec, hv]
    exact ⟨Option.some.inj hs, hlocals⟩
  | localSet i =>
    simp only [Plain.check, Option.bind_eq_bind, Option.bind_eq_some_iff] at h
    obtain ⟨t, ht, hpop⟩ := h
    obtain ⟨v, rest, hstack, rfl, rfl⟩ := StackShape.pop_of hpop
    obtain ⟨old, hold, _⟩ := exists_local hlocals ht
    simp only [Plain.exec, hstack]
    rw [if_pos (lt_length_of_getElem? hold)]
    exact ⟨rfl, map_type_set hlocals ht⟩
  | localTee i =>
    simp only [Plain.check, Option.bind_eq_bind, Option.bind_eq_some_iff] at h
    obtain ⟨t, ht, below, hpop, hs⟩ := h
    obtain ⟨v, rest, hstack, rfl, rfl⟩ := StackShape.pop_of hpop
    obtain ⟨old, hold, _⟩ := exists_local hlocals ht
    simp only [Plain.exec, hstack]
    rw [if_pos (lt_length_of_getElem? hold)]
    exact ⟨Option.some.inj hs, map_type_set hlocals ht⟩
  | i32Const v => exact ⟨Option.some.inj h, hlocals⟩
  | i64Const v => exact ⟨Option.some.inj h, hlocals⟩
  | numeric n =>
    simp only [Plain.check, Option.bind_eq_bind, Option.bind_eq_some_iff] at h
    obtain ⟨below, hpop, hs⟩ := h
    obtain ⟨args, rest, hargs, hstack, rfl⟩ := StackShape.popAll_of hpop
    rcases n.apply_typed hargs rest with ⟨v, happly, hv⟩ | ⟨t, happly⟩
    · simp only [Plain.exec, hstack, happly]
      refine ⟨?_, hlocals⟩
      rw [← Option.some.inj hs, ← hv]
      rfl
    · simp only [Plain.exec, hstack, happly]
      exact Halt.noConfusion

/-! ### Code -/

/-- Entering a block takes operands of its parameter types. -/
theorem Surroundings.enter_typed (he : e.Provides c) {t : BlockType} {type : FuncType}
    (ht : t.resolve? c.types = some type) {below : StackShape}
    (hpop : (of f.stack).popAll type.params = some below) :
    ∃ inner rest, e.enter t f = some (type, { f with stack := inner }, rest) ∧
      of inner = .ofTypes type.params ∧ below = of rest := by
  obtain ⟨args, rest, hargs, hstack, rfl⟩ := StackShape.popAll_of hpop
  have hlen : type.params.length = args.reverse.length := by rw [← hargs]; simp
  refine ⟨args.reverse, rest, ?_, ?_, rfl⟩
  · simp only [Surroundings.enter, he.types, ht, hstack, hlen, splitStack_append, Option.bind_eq_bind,
      Option.bind_some]
    rfl
  · rw [← hargs, StackShape.ofTypes_of]

/-- Going on with code that is valid on the operands that are left. -/
theorem Outcome.Typed.andThen_exec {o : Outcome} {mid : StackShape} (h : o.Typed c mid) {k : Code}
    (hk : k.check c mid = some s)
    (hrest : ∀ g : Frame, k.check c (of g.stack) = some s → g.locals.map Value.type = c.locals →
      (k.exec e g).Typed c s) :
    (o.andThen fun g => k.exec e g).Typed c s := by
  refine h.andThen ?_
  rintro g rfl hlocals
  exact hrest g hk hlocals

/-- Valid code does what the checker has computed, and does not get stuck. -/
theorem Code.exec_typed {code : Code} (h : code.check c (of f.stack) = some s)
    (he : e.Provides c) (hlocals : f.locals.map Value.type = c.locals) :
    (code.exec e f).Typed c s := by
  induction code generalizing c f s with
  | done => exact ⟨Option.some.inj h, hlocals⟩
  | plain p k ih =>
    obtain ⟨mid, hp, hk⟩ := check_plain h
    exact (Plain.exec_typed hp he hlocals).andThen_exec hk fun g hg hg' => ih hg he hg'
  | block t b k ihb ihk =>
    obtain ⟨type, below, last, ht, hpop, hbody, hexact, hk⟩ := check_block h
    obtain ⟨inner, rest, henter, hinner, rfl⟩ := Surroundings.enter_typed he ht hpop
    rw [← hinner] at hbody
    have hrun := ihb (f := { f with stack := inner }) hbody (he.inside _) hlocals
    simp only [exec, henter]
    exact (hrun.leave hexact rest).andThen_exec hk fun g hg hg' => ihk hg he hg'
  | loop t b k ihb ihk =>
    obtain ⟨type, below, last, ht, hpop, hbody, hexact, hk⟩ := check_loop h
    obtain ⟨inner, rest, henter, hinner, rfl⟩ := Surroundings.enter_typed he ht hpop
    have hrounds : ∀ g, of g.stack = .ofTypes type.params → g.locals.map Value.type = c.locals →
        (b.exec e g).Typed (c.inside type.params) last := by
      intro g hg hg'
      rw [← hg] at hbody
      exact ihb hbody (he.inside _) hg'
    have hrun : (Outcome.again (fun g => b.exec e g) type.params.length e.rounds
        { f with stack := inner }).Typed (c.inside type.results) last :=
      Outcome.Typed.again hrounds e.rounds hinner hlocals
    simp only [exec, henter]
    exact (hrun.leave hexact rest).andThen_exec hk fun g hg hg' => ihk hg he hg'
  | ifThen t b k ihb ihk =>
    obtain ⟨type, popped, below, last, ht, hcond, hpop, hbody, hexact, hsame, hk⟩ := check_ifThen h
    obtain ⟨v, under, hstack, hv, rfl⟩ := StackShape.pop_of hcond
    obtain ⟨a, rfl⟩ := Value.of_type_i32 hv
    obtain ⟨inner, rest, henter, hinner, rfl⟩ :=
      Surroundings.enter_typed (f := { f with stack := under }) he ht hpop
    simp only [exec, hstack, henter]
    by_cases ha : a = 0
    · -- the operands of the block are its results
      have hskip : (Outcome.next { f with stack := inner }).Typed (c.inside type.results)
          (.ofTypes type.results) := ⟨hsame ▸ hinner, hlocals⟩
      rw [if_pos ha]
      exact (hskip.leave (StackShape.isExactly_ofTypes _) rest).andThen_exec hk
        fun g hg hg' => ihk hg he hg'
    · rw [← hinner] at hbody
      have hrun := ihb (f := { f with stack := inner }) hbody (he.inside _) hlocals
      rw [if_neg ha]
      exact (hrun.leave hexact rest).andThen_exec hk fun g hg hg' => ihk hg he hg'
  | ifElse t b a k ihb iha ihk =>
    obtain ⟨type, popped, below, last, other, ht, hcond, hpop, hbody, hexact, hother, hexact', hk⟩ :=
      check_ifElse h
    obtain ⟨v, under, hstack, hv, rfl⟩ := StackShape.pop_of hcond
    obtain ⟨x, rfl⟩ := Value.of_type_i32 hv
    obtain ⟨inner, rest, henter, hinner, rfl⟩ :=
      Surroundings.enter_typed (f := { f with stack := under }) he ht hpop
    rw [← hinner] at hbody hother
    simp only [exec, hstack, henter]
    by_cases hx : x = 0
    · have hrun := iha (f := { f with stack := inner }) hother (he.inside _) hlocals
      rw [if_pos hx]
      exact (hrun.leave hexact' rest).andThen_exec hk fun g hg hg' => ihk hg he hg'
    · have hrun := ihb (f := { f with stack := inner }) hbody (he.inside _) hlocals
      rw [if_neg hx]
      exact (hrun.leave hexact rest).andThen_exec hk fun g hg hg' => ihk hg he hg'

end Soundness

/-! ### Calls of own functions -/

/-- Every function that an instance calls its own is one, and its code is valid as the body of a
function of its type. -/
structure Instance.Valid (m : Instance) : Prop where
  own : ∀ n t, .own n t ∈ m.functions → ∃ f, m.own[n]? = some f ∧ f.type = t
  body : ∀ f ∈ m.own, f.code.isValidBody ⟨m.types, m.functions.map Callee.type,
    f.type.params ++ f.locals.map Value.type, [], f.type.results⟩ = true

/-- One call does not get stuck if the calls that it makes do not. -/
theorem Instance.Valid.runOwn_typed {m : Instance} (h : m.Valid) (rounds : Nat)
    {callOwn : Nat → List Value → ScanState → Returned}
    (hcall : ∀ n t, .own n t ∈ m.functions → ∀ args scan, args.map Value.type = t.params →
      Returned.Typed t.results (callOwn n args scan)) {n : Nat} {f : OwnFunction}
    (hf : m.own[n]? = some f) {args : List Value} (hargs : args.map Value.type = f.type.params)
    (scan : ScanState) : Returned.Typed f.type.results (m.runOwn rounds callOwn n args scan) := by
  obtain ⟨last, hcheck, hexact⟩ := Code.check_of_isValidBody (h.body f (List.mem_of_getElem? hf))
  have hprovides : (⟨m.types, m.functions, rounds, callOwn⟩ : Surroundings).Provides
      ⟨m.types, m.functions.map Callee.type, f.type.params ++ f.locals.map Value.type, [],
        f.type.results⟩ := ⟨rfl, rfl, hcall⟩
  have hlocals : (args ++ f.locals).map Value.type =
      f.type.params ++ f.locals.map Value.type := by
    rw [List.map_append, hargs]
  have hrun := Code.exec_typed (f := ⟨[], args ++ f.locals, scan⟩) hcheck
    (hprovides.inside _) hlocals
  simp only [runOwn, hf]
  exact hrun.returned hexact rfl

/-- A call of an own function ends without getting stuck, to whatever depth such functions may call
each other. -/
theorem Instance.Valid.invoke_typed {m : Instance} (h : m.Valid) (rounds depth : Nat) {n : Nat}
    {f : OwnFunction} (hf : m.own[n]? = some f) {args : List Value}
    (hargs : args.map Value.type = f.type.params) (scan : ScanState) :
    Returned.Typed f.type.results (m.invoke rounds depth n args scan) := by
  induction depth generalizing n f args scan with
  | zero =>
    refine h.runOwn_typed rounds ?_ hf hargs scan
    intro _ _ _ _ _ _
    exact Halt.noConfusion
  | succ depth ih =>
    refine h.runOwn_typed rounds ?_ hf hargs scan
    intro n t ht args scan hargs
    obtain ⟨g, hg, rfl⟩ := h.own n t ht
    exact ih hg hargs scan

/-- The same of the main function of a built module. -/
theorem Instance.invoke_typed {code : Code} (h : code.isValidBody mainScope = true)
    (rounds depth : Nat) (scan : ScanState) :
    Returned.Typed mainType.results ((Instance.ofCode code).invoke rounds depth 0 [] scan) := by
  have hvalid : (Instance.ofCode code).Valid := by
    constructor
    · intro n t ht
      obtain ⟨rfl, rfl⟩ : n = 0 ∧ t = mainType := by
        simpa [Instance.ofCode, HostFunction.all] using ht
      exact ⟨.main code, rfl, rfl⟩
    · intro f hf
      obtain rfl : f = .main code := List.mem_singleton.mp hf
      exact h
  exact hvalid.invoke_typed (f := .main code) rounds depth rfl rfl scan

end RuleScan
