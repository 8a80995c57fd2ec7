import RuleScan.Proofs.BuiltModules
import RuleScan.Proofs.ConditionTyping

/-!
# Generated code is valid

The code of a well-typed condition is valid on any operands and adds one of its own type, wherever
the label of its rule takes no operands. The code of a rule leaves the operands as it found them, so
rules can be put one after another. Generated code refers to no label around it, and is therefore
emitted as it is into any body.
-/
namespace RuleScan

/-- What generated code needs of its scope: the host functions and the locals of a main function. -/
structure Scope.Serves (c : Scope) : Prop where
  function : ∀ h : HostFunction, c.functions[h.index]? = some h.type
  locals : c.locals = mainLocals.map (·.2)

namespace Scope.Serves

variable {c : Scope}

theorem inside (h : c.Serves) (label : List ValType) : (c.inside label).Serves :=
  ⟨h.function, h.locals⟩

theorem wide (h : c.Serves) : c.locals[Symbols.standard.wideScratch]? = some .i64 := by
  rw [h.locals]
  rfl

theorem narrow (h : c.Serves) : c.locals[Symbols.standard.narrowScratch]? = some .i32 := by
  rw [h.locals]
  rfl

theorem flag (h : c.Serves) : c.locals[Symbols.standard.exceptionFlag]? = some .i32 := by
  rw [h.locals]
  rfl

end Scope.Serves

/-! ### Pieces of generated code -/

namespace Code

section Pieces

variable {c : Scope} {s : StackShape} {k : Code}

theorem check_const32 {v : Int32} : (const32 v k).check c s = k.check c (s.push .i32) := rfl

theorem check_const64 {v : Int64} : (const64 v k).check c s = k.check c (s.push .i64) := rfl

theorem check_load {i : Nat} {t : ValType} (h : c.locals[i]? = some t) :
    (load i k).check c s = k.check c (s.push t) := by
  simp [load, check, Plain.check, h]

theorem check_store {i : Nat} {t : ValType} (h : c.locals[i]? = some t) :
    (store i k).check c (s.push t) = k.check c s := by
  simp [store, check, Plain.check, h]

theorem check_tee {i : Nat} {t : ValType} (h : c.locals[i]? = some t) :
    (plain (.localTee i) k).check c (s.push t) = k.check c (s.push t) := by
  simp [check, Plain.check, h]

theorem check_select :
    (plain .select k).check c (((s.push .i64).push .i64).push .i32) = k.check c (s.push .i64) := rfl

/-- An operator takes operands of its parameter types and gives those of its result types. -/
theorem check_apply (n : Numeric) :
    (apply n k).check c (s.pushAll n.type.params) = k.check c (s.pushAll n.type.results) := by
  simp [apply, check, Plain.check]

theorem check_eqz64 : (apply .eqz64 k).check c (s.push .i64) = k.check c (s.push .i32) :=
  check_apply .eqz64

theorem check_relation64 {r : Relation} :
    (apply (.relation64 r) k).check c ((s.push .i64).push .i64) = k.check c (s.push .i32) :=
  check_apply (.relation64 r)

theorem check_arith32 {o : Arith32} :
    (apply (.arith32 o) k).check c ((s.push .i32).push .i32) = k.check c (s.push .i32) :=
  check_apply (.arith32 o)

theorem check_arith64 {o : Arith64} :
    (apply (.arith64 o) k).check c ((s.push .i64).push .i64) = k.check c (s.push .i64) :=
  check_apply (.arith64 o)

theorem check_callHost (hc : c.Serves) (h : HostFunction) :
    (callHost h k).check c (s.pushAll h.type.params) = k.check c (s.pushAll h.type.results) := by
  simp [callHost, check, Plain.check, hc.function h]

/-- A raise takes its condition. Its branch goes to the label of the rule, one block further out
than from the place of the raise. -/
theorem check_raiseIf (hc : c.Serves) {d : Nat} (hd : c.labels[d]? = some []) :
    (raiseIf d k).check c (s.push .i32) = k.check c s := by
  have hlabel : (c.inside []).labels[d + 1]? = some [] := hd
  have hbranch : (plain (.br (d + 1)) done).check (c.inside []) ⟨[], false⟩ =
      some .anything := by
    simp [check, Plain.check, hlabel, StackShape.popAll]
  have hbody : (const32 1 (store Symbols.standard.exceptionFlag
      (plain (.br (d + 1)) done))).check (c.inside []) (.ofTypes []) = some .anything := by
    rw [check_const32, check_store (hc.inside []).flag]
    exact hbranch
  rw [raiseIf, check, StackShape.pop_push]
  simp only [BlockType.resolve?, Option.bind_eq_bind, Option.bind_some, hbody]
  rfl

theorem check_checkedDiv (hc : c.Serves) {d : Nat} (hd : c.labels[d]? = some []) :
    (checkedDiv d k).check c ((s.push .i64).push .i64) = k.check c (s.push .i64) := by
  rw [checkedDiv, check_store hc.wide, check_load hc.wide, check_eqz64, check_raiseIf hc hd]
  -- the divisor, replaced by one where it is minus one, and the quotient
  rw [check_load hc.wide, check_const64, check_relation64, check_store hc.narrow, check_const64,
    check_load hc.wide, check_load hc.narrow, check_select, check_arith64,
    check_tee hc.wide]
  -- the overflow
  rw [check_const64, check_relation64, check_load hc.narrow, check_arith32, check_raiseIf hc hd]
  -- the sign of the quotient
  rw [check_load hc.wide, check_const64, check_const64, check_load hc.narrow, check_select,
    check_arith64]

theorem check_checkedRem (hc : c.Serves) {d : Nat} (hd : c.labels[d]? = some []) :
    (checkedRem d k).check c ((s.push .i64).push .i64) = k.check c (s.push .i64) := by
  rw [checkedRem, check_store hc.wide, check_load hc.wide, check_eqz64, check_raiseIf hc hd,
    check_load hc.wide, check_arith64]

end Pieces

end Code

/-! ### Conditions and rules -/

/-- The type of the operand that holds a value of a condition. -/
def Ty.operand : Ty → ValType
  | .bool => .i32
  | .int => .i64

theorem CompareOp.check_operation_int {op : CompareOp} (h : ∀ n, op ≠ .unknown n) {c : Scope}
    {s : StackShape} {k : Code} :
    (Code.plain (op.operation (some .int)) k).check c ((s.push .i64).push .i64) =
      k.check c (s.push .i32) := by
  cases op with
  | unknown n => exact absurd rfl (h n)
  | _ => exact Code.check_relation64

theorem CompareOp.check_operation_bool (op : CompareOp) {c : Scope} {s : StackShape} {k : Code} :
    (Code.plain (op.operation (some .bool)) k).check c ((s.push .i32).push .i32) =
      k.check c (s.push .i32) :=
  Code.check_apply (.relation32 (if op = .eq then .eq else .ne))

theorem ArithOp.check_code {op : ArithOp} (h : ∀ n, op ≠ .unknown n) {c : Scope} (hc : c.Serves)
    {d : Nat} (hd : c.labels[d]? = some []) {s : StackShape} {k : Code} :
    (op.code d k).check c ((s.push .i64).push .i64) = k.check c (s.push .i64) := by
  cases op with
  | unknown n => exact absurd rfl (h n)
  | add => exact Code.check_arith64
  | sub => exact Code.check_arith64
  | mul => exact Code.check_arith64
  | div => exact Code.check_checkedDiv hc hd
  | rem => exact Code.check_checkedRem hc hd

/-- A conditional with a truth value as its result, if both branches leave one. -/
theorem Code.check_ifElse_i32 {c : Scope} {s : StackShape} {a b k : Code}
    (ha : a.check (c.inside [.i32]) ⟨[], false⟩ = some (StackShape.push ⟨[], false⟩ .i32))
    (hb : b.check (c.inside [.i32]) ⟨[], false⟩ = some (StackShape.push ⟨[], false⟩ .i32)) :
    (Code.ifElse (.value .i32) a b k).check c (s.push .i32) = k.check c (s.push .i32) := by
  have hempty : StackShape.ofTypes [] = ⟨[], false⟩ := rfl
  rw [Code.check, StackShape.pop_push]
  simp only [BlockType.resolve?, Option.bind_eq_bind, Option.bind_some, hempty, ha, hb]
  rfl

/-- The code of a condition adds an operand of its type. -/
theorem HasType.check_compile {x : Condition} {t : Ty} (h : HasType x t) {c : Scope}
    (hc : c.Serves) {d : Nat} (hd : c.labels[d]? = some []) (k : Code) (s : StackShape) :
    (x.compile d k).check c s = k.check c (s.push t.operand) := by
  induction h generalizing c d k s with
  | bool b => exact Code.check_const32
  | int v => exact Code.check_const64
  | pattern p => exact Code.check_callHost hc .isPatternMatch
  | patternAt hoff ih =>
    rw [Condition.compile, Code.check_const32, ih hc hd]
    exact Code.check_callHost hc .isPatternMatchAt
  | patternIn hlo hhi ihlo ihhi =>
    rw [Condition.compile, Code.check_const32, ihlo hc hd, ihhi hc hd]
    exact Code.check_callHost hc .isPatternMatchIn
  | not hx ih =>
    rw [Condition.compile, ih hc hd]
    exact Code.check_apply .eqz32
  | and hx hy ihx ihy =>
    rw [Condition.compile, ihx hc hd]
    exact Code.check_ifElse_i32 (ihy (hc.inside _) (d := d + 1) hd _ _) rfl
  | or hx hy ihx ihy =>
    rw [Condition.compile, ihx hc hd]
    exact Code.check_ifElse_i32 rfl (ihy (hc.inside _) (d := d + 1) hd _ _)
  | compareInt hop hx hy ihx ihy =>
    rw [Condition.compile, ihx hc hd, ihy hc hd, Condition.infer_of_hasType hx]
    exact CompareOp.check_operation_int hop
  | compareBool hop hx hy ihx ihy =>
    rw [Condition.compile, ihx hc hd, ihy hc hd, Condition.infer_of_hasType hx]
    exact CompareOp.check_operation_bool _
  | arith hop hx hy ihx ihy =>
    rw [Condition.compile, ihx hc hd, ihy hc hd]
    exact ArithOp.check_code hop hc hd

/-- The code of a rule leaves the operands as they were. -/
theorem Rule.check_code {r : Rule} (h : HasType r.condition .bool) {c : Scope} (hc : c.Serves)
    (k : Code) (s : StackShape) : (r.code k).check c s = k.check c s := by
  have htail : (Code.apply .eqz32 <| .plain (.brIf 0) <| Code.const32 r.id <|
      Code.callHost .ruleMatch .done).check (c.inside []) (StackShape.push ⟨[], false⟩ .i32) =
      some ⟨[], false⟩ :=
    Code.check_callHost (hc.inside []) .ruleMatch
  have hbody := h.check_compile (hc.inside []) (d := 0) rfl (Code.apply .eqz32 <|
    .plain (.brIf 0) <| Code.const32 r.id <| Code.callHost .ruleMatch .done) (.ofTypes [])
  rw [Rule.code, Code.check_const32, Code.check_store hc.flag, Code.check]
  simp only [BlockType.resolve?, Option.bind_eq_bind, Option.bind_some, hbody]
  rw [show StackShape.push (.ofTypes []) Ty.bool.operand = StackShape.push ⟨[], false⟩ .i32 from rfl,
    htail]
  rfl

/-- The code of rules, one after another. -/
def Rule.codeAll (rules : List Rule) (rest : Code) : Code := rules.foldr Rule.code rest

theorem Rule.check_codeAll {rules : List Rule} (h : ∀ r ∈ rules, HasType r.condition .bool)
    {c : Scope} (hc : c.Serves) (k : Code) (s : StackShape) :
    (Rule.codeAll rules k).check c s = k.check c s := by
  induction rules with
  | nil => rfl
  | cons r rules ih =>
    obtain ⟨hr, hrules⟩ := List.forall_mem_cons.mp h
    have hcode : Rule.codeAll (r :: rules) k = r.code (Rule.codeAll rules k) := rfl
    rw [hcode, Rule.check_code hr hc, ih hrules]

/-! ### Emission -/

theorem Rule.codeAll_append (rules : List Rule) (k rest : Code) :
    (Rule.codeAll rules k).append rest = Rule.codeAll rules (k.append rest) := by
  induction rules with
  | nil => rfl
  | cons r rules ih =>
    have hcode (k : Code) : Rule.codeAll (r :: rules) k = r.code (Rule.codeAll rules k) := rfl
    have hr (k : Code) : (r.code k).append rest = r.code (k.append rest) := rfl
    rw [hcode, hcode, hr, ih]

theorem Rule.instrs_codeAll (rules : List Rule) :
    (Rule.codeAll rules .done).instrs = rules.flatMap Rule.program := by
  induction rules with
  | nil => rfl
  | cons r rules ih =>
    have hcode : Rule.codeAll (r :: rules) .done =
        (Rule.codeAll [r] .done).append (Rule.codeAll rules .done) := by
      rw [Rule.codeAll_append]
      rfl
    rw [hcode, Code.instrs, Code.tokens_append, List.map_append, List.flatMap_cons, ← ih]
    rfl

/-- The rules whose code is emitted: those without a fault. -/
def Rule.emitted (rules : List Rule) : List Rule := rules.filter fun r => r.faults.isEmpty

theorem Rule.hasType_of_emitted (rules : List Rule) :
    ∀ r ∈ Rule.emitted rules, HasType r.condition .bool := by
  intro r hr
  have hfaults : r.faults = [] := by simpa using (List.mem_filter.mp hr).2
  exact (Rule.faults_eq_nil.mp hfaults).2

/-- The code that is emitted for rules. -/
def Rule.emittedCode (rules : List Rule) : Code := Rule.codeAll (Rule.emitted rules) .done

theorem Rule.check_emittedCode (rules : List Rule) {c : Scope} (hc : c.Serves) (s : StackShape) :
    (Rule.emittedCode rules).check c s = some s :=
  Rule.check_codeAll (Rule.hasType_of_emitted rules) hc .done s

theorem mainScope_serves : mainScope.Serves where
  function h := by cases h <;> rfl
  locals := rfl

/-- Adding rules appends their code, whatever the body holds and whatever blocks are open in it. -/
theorem Builder.addRules_drafting {b : Builder} (h : b.phase = .drafting) (rules : List Rule) :
    b.addRules rules = .ok
      ({ b with body := b.body.extend (Rule.emittedCode rules).instrs },
        rules.flatMap Rule.errors) := by
  have hcheck := Rule.check_emittedCode rules mainScope_serves ⟨[], false⟩
  have hemit : b.body.emitAll (Rule.emittedCode rules).instrs =
      b.body.extend (Rule.emittedCode rules).instrs :=
    Code.appends_instrs hcheck (Nat.zero_le _)
  have hprogram : (rules.filter fun r => r.faults.isEmpty).flatMap Rule.program =
      (Rule.emittedCode rules).instrs := (Rule.instrs_codeAll _).symm
  simp only [Builder.addRules, Builder.emit, h, hprogram, hemit]
  rfl

/-- The code of rules is a valid body of a main function. -/
theorem Rule.isValidBody_codeAll {rules : List Rule} (h : ∀ r ∈ rules, HasType r.condition .bool) :
    (Rule.codeAll rules .done).isValidBody mainScope = true :=
  Code.isValidBody_of_check
    (Rule.check_codeAll h (mainScope_serves.inside mainScope.results) .done ⟨[], false⟩) rfl

end RuleScan
