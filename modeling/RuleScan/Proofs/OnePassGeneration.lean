import RuleScan.Proofs.BlockNesting
import RuleScan.Proofs.CheckingPass
import RuleScan.Proofs.GeneratedValidity

/-!
# Generating code in one pass

A pass emits the code of a rule for the depth at which it stands: the depth of a raise is how many more
blocks are open than were just inside the block of the rule. The pass adds exactly the code and the
errors that `Builder.addRules` adds, wherever it starts.
-/
namespace RuleScan

namespace Generator

/-! ### What the steps of a pass do -/

/-- The pass after some instructions were emitted. -/
def extend (g : Generator) (is : List Instr) : Generator := { g with body := g.body.emitAll is }

variable (g : Generator)

theorem emit_apply (is : List Instr) : emit is g = ((), g.extend is) := rfl

theorem emitPlain_apply (ps : List Plain) :
    emitPlain ps g = ((), g.extend (ps.map Plain.instr)) := rfl

theorem extend_extend (is js : List Instr) : (g.extend is).extend js = g.extend (is ++ js) := by
  simp [extend, Body.emitAll_append]

end Generator

/-! ### Code in front of other code -/

theorem Code.instrs_append (c k : Code) : (c.append k).instrs = c.instrs ++ k.instrs := by
  rw [instrs, tokens_append, List.map_append]
  rfl

theorem ArithOp.code_append (op : ArithOp) (d : Nat) (k rest : Code) :
    (op.code d k).append rest = op.code d (k.append rest) := by
  cases op <;> rfl

theorem Condition.compile_append (c : Condition) (d : Nat) (k rest : Code) :
    (c.compile d k).append rest = c.compile d (k.append rest) := by
  induction c generalizing d k with
  | missing | foreign | bool | int | pattern => rfl
  | patternAt p off ih => exact congrArg (Code.const32 p) (ih d _)
  | patternIn p lo hi ihlo ihhi =>
    refine congrArg (Code.const32 p) ((ihlo d _).trans ?_)
    rw [ihhi]
    rfl
  | not x ih => exact ih d _
  | and x y ihx ihy | or x y ihx ihy => exact ihx d _
  | compare op x y ihx ihy => simp only [compile, ihx, ihy, Code.append]
  | arith op x y ihx ihy => simp only [compile, ihx, ihy, ArithOp.code_append]

namespace Condition

/-- The instructions of a condition inside `d` blocks of its rule. -/
def instrs (c : Condition) (d : Nat) : List Instr := (c.compile d .done).instrs

/-- The code of a condition is the same in front of any code. -/
theorem instrs_compile (c : Condition) (d : Nat) (k : Code) :
    (c.compile d k).instrs = c.instrs d ++ k.instrs := by
  rw [instrs, ← Code.instrs_append, compile_append]
  rfl

variable (d : Nat)

theorem instrs_patternAt (p : PatternId) (off : Condition) :
    (patternAt p off).instrs d = [Plain.i32Const p].map Plain.instr ++
      (off.instrs d ++ [Plain.call HostFunction.isPatternMatchAt.index].map Plain.instr) := by
  rw [instrs, compile, Code.const32, Code.instrs_plain, instrs_compile]
  rfl

theorem instrs_patternIn (p : PatternId) (lo hi : Condition) :
    (patternIn p lo hi).instrs d = [Plain.i32Const p].map Plain.instr ++ (lo.instrs d ++
      (hi.instrs d ++ [Plain.call HostFunction.isPatternMatchIn.index].map Plain.instr)) := by
  rw [instrs, compile, Code.const32, Code.instrs_plain, instrs_compile, instrs_compile]
  rfl

theorem instrs_not (x : Condition) :
    (Condition.not x).instrs d = x.instrs d ++ [Plain.numeric .eqz32].map Plain.instr := by
  rw [instrs, compile, instrs_compile]
  rfl

/-- The second operand of a conjunction or a disjunction is one block further inside. -/
theorem instrs_and (x y : Condition) :
    (Condition.and x y).instrs d = x.instrs d ++ ([.opening .if_ (BlockType.value .i32).byte] ++
      (y.instrs (d + 1) ++ [.op .else_, .i32Const 0, .op .end_])) := by
  rw [instrs, compile, instrs_compile, Code.instrs_ifElse]
  rfl

theorem instrs_or (x y : Condition) :
    (Condition.or x y).instrs d = x.instrs d ++
      ([.opening .if_ (BlockType.value .i32).byte, .i32Const 1, .op .else_] ++
        (y.instrs (d + 1) ++ [.op .end_])) := by
  rw [instrs, compile, instrs_compile, Code.instrs_ifElse]
  rfl

theorem instrs_compare (op : CompareOp) (x y : Condition) :
    (compare op x y).instrs d = x.instrs d ++
      (y.instrs d ++ [op.operation x.infer.toOption].map Plain.instr) := by
  rw [instrs, compile, instrs_compile, instrs_compile]
  rfl

theorem instrs_arith (op : ArithOp) (x y : Condition) :
    (arith op x y).instrs d = x.instrs d ++ (y.instrs d ++ (op.code d .done).instrs) := by
  rw [instrs, compile, instrs_compile, instrs_compile]

end Condition

theorem Rule.program_eq (r : Rule) :
    r.program = Instr.clearException ++ [.opening .block BlockType.void.byte] ++
      r.condition.instrs 0 ++ [Plain.numeric .eqz32, .brIf 0, .i32Const r.id,
        .call HostFunction.ruleMatch.index].map Plain.instr ++ [.op .end_] := by
  have hprogram : r.program = (r.code .done).instrs := rfl
  rw [hprogram, code, Code.const32, Code.instrs_plain, Code.store, Code.instrs_plain,
    Code.instrs_block, Condition.instrs_compile]
  simp only [List.append_assoc]
  rfl

namespace Generator

/-! ### The generator and the code of conditions -/

/-- The pass is inside `d` blocks of the rule at hand. -/
def AtDepth (g : Generator) (d : Nat) : Prop := g.body.depth = g.ruleDepth + d

theorem AtDepth.extend {g : Generator} {d : Nat} (h : g.AtDepth d) {is : List Instr}
    (hlevel : ∀ opened, Instr.nestAll opened is = opened) : (g.extend is).AtDepth d := by
  unfold AtDepth at *
  rw [Generator.extend, Body.depth, Body.opened_emitAll, hlevel]
  exact h

theorem AtDepth.plain {g : Generator} {d : Nat} (h : g.AtDepth d) (ps : List Plain) :
    (g.extend (ps.map Plain.instr)).AtDepth d := by
  refine h.extend fun opened => ?_
  induction ps with
  | nil => rfl
  | cons p ps ih => rw [List.map_cons, Instr.nestAll_cons, Instr.nest_plain, ih]

theorem AtDepth.enter {g : Generator} {d : Nat} (h : g.AtDepth d) {is : List Instr}
    (hopen : ∀ opened, Instr.nestAll opened is = .if_ :: opened) : (g.extend is).AtDepth (d + 1) := by
  unfold AtDepth at *
  rw [Generator.extend, Body.depth, Body.opened_emitAll, hopen, List.length_cons]
  exact congrArg (· + 1) h

theorem nestAll_if (opened : List Opener) (t : UInt8) :
    Instr.nestAll opened [.opening .if_ t] = .if_ :: opened := Instr.nest_if opened t

/-- The depth of a raise is what is left when the depth of the rule is taken away. -/
theorem raiseIf_apply {g : Generator} {d : Nat} (h : g.AtDepth d) :
    raiseIf g = ((), g.extend (Code.raiseIf d .done).instrs) := by
  have hinside := h.enter (nestAll_if · BlockType.void.byte)
  have hdepth : (g.extend [.opening .if_ BlockType.void.byte]).body.depth -
      (g.extend [.opening .if_ BlockType.void.byte]).ruleDepth = d + 1 := by
    rw [hinside, Nat.add_sub_cancel_left]
  have hraise (g : Generator) : raise g =
      ((), g.extend (Instr.raise (UInt32.ofNat (g.body.depth - g.ruleDepth)))) := rfl
  rw [raiseIf, bind_apply, emit_apply, bind_apply, hraise, hdepth, emit_apply, extend_extend,
    extend_extend]
  rfl

theorem genDiv_apply {g : Generator} {d : Nat} (h : g.AtDepth d) :
    genDiv g = ((), g.extend (Code.checkedDiv d .done).instrs) := by
  have hraised (ps : List Plain) := (h.plain ps).extend (Code.nestAll_instrs (.raiseIf d .done))
  rw [genDiv, bind_apply, emitPlain_apply, bind_apply, raiseIf_apply (h.plain _), bind_apply,
    emitPlain_apply, bind_apply, raiseIf_apply ((hraised _).plain _), emitPlain_apply]
  simp only [extend_extend]
  rfl

theorem genRem_apply {g : Generator} {d : Nat} (h : g.AtDepth d) :
    genRem g = ((), g.extend (Code.checkedRem d .done).instrs) := by
  rw [genRem, bind_apply, emitPlain_apply, bind_apply, raiseIf_apply (h.plain _), emitPlain_apply]
  simp only [extend_extend]
  rfl

theorem genArith_apply (op : ArithOp) {g : Generator} {d : Nat} (h : g.AtDepth d) :
    genArith op g = ((), g.extend (op.code d .done).instrs) := by
  cases op with
  | unknown n => rfl
  | add | sub | mul => rfl
  | div => exact genDiv_apply h
  | rem => exact genRem_apply h

/-- The code of a comparison follows that of its operands. -/
theorem gen_compare {op : CompareOp} {x y : Condition} {t : Ty} {g : Generator} {d : Nat}
    (hx : HasType x t) (hgenx : gen x g = ((), g.extend (x.instrs d)))
    (hgeny : gen y (g.extend (x.instrs d)) = ((), (g.extend (x.instrs d)).extend (y.instrs d))) :
    gen (.compare op x y) g = ((), g.extend ((Condition.compare op x y).instrs d)) := by
  rw [gen, bind_apply, hgenx, bind_apply, hgeny, bind_apply, check_of_hasType hx, emitPlain_apply,
    extend_extend, extend_extend, Condition.instrs_compare, Condition.infer_of_hasType hx]
  rfl

/-- The instructions in front of the second operand of a disjunction open one block. -/
theorem nestAll_or (opened : List Opener) : Instr.nestAll opened
    [.opening .if_ (BlockType.value .i32).byte, .i32Const 1, .op .else_] = .if_ :: opened := by
  have hconst := Instr.nest_plain (.if_ :: opened) (.i32Const 1)
  rw [Instr.nestAll_cons, Instr.nest_if]
  exact (congrArg (Instr.nest · (.op .else_)) hconst).trans (Instr.nest_else _)

/-- The pass emits the code of a condition that has a type, for the depth at which it is. -/
theorem gen_apply {c : Condition} {t : Ty} (h : HasType c t) {g : Generator} {d : Nat}
    (hd : g.AtDepth d) : gen c g = ((), g.extend (c.instrs d)) := by
  have hlevel {g : Generator} {d : Nat} (hd : g.AtDepth d) (x : Condition) (e : Nat) :
      (g.extend (x.instrs e)).AtDepth d := hd.extend (Code.nestAll_instrs _)
  induction h generalizing g d with
  | bool | int | pattern => rfl
  | patternAt _ ih =>
    rw [gen, bind_apply, emitPlain_apply, bind_apply, ih (hd.plain _), emitPlain_apply,
      Condition.instrs_patternAt]
    simp only [extend_extend, List.append_assoc]
  | @patternIn p lo hi _ _ ihlo ihhi =>
    rw [gen, bind_apply, emitPlain_apply, bind_apply, ihlo (hd.plain _), bind_apply,
      ihhi (hlevel (hd.plain _) lo d), emitPlain_apply, Condition.instrs_patternIn]
    simp only [extend_extend, List.append_assoc]
  | not _ ih => rw [gen, bind_apply, ih hd, emitPlain_apply, Condition.instrs_not, extend_extend]
  | @and x y _ _ ihx ihy =>
    have hinside := (hlevel hd x d).enter (nestAll_if · (BlockType.value .i32).byte)
    rw [gen, bind_apply, ihx hd, bind_apply, emit_apply, bind_apply, ihy hinside, emit_apply,
      Condition.instrs_and]
    simp only [extend_extend, List.append_assoc]
  | @or x y _ _ ihx ihy =>
    have hinside := (hlevel hd x d).enter nestAll_or
    rw [gen, bind_apply, ihx hd, bind_apply, emit_apply, bind_apply, ihy hinside, emit_apply,
      Condition.instrs_or]
    simp only [extend_extend, List.append_assoc]
  | compareInt hop hx _ ihx ihy =>
    exact gen_compare hx (ihx hd) (ihy (hlevel hd _ d))
  | compareBool hop hx _ ihx ihy =>
    exact gen_compare hx (ihx hd) (ihy (hlevel hd _ d))
  | @arith op x y hop _ _ ihx ihy =>
    rw [gen, bind_apply, ihx hd, bind_apply, ihy (hlevel hd x d),
      genArith_apply op (hlevel (hlevel hd x d) y d), Condition.instrs_arith]
    simp only [extend_extend, List.append_assoc]

/-! ### Rules -/

/-- The code of a rule is emitted wherever the pass is, and nothing is reported. -/
theorem genRule_apply {r : Rule} (h : HasType r.condition .bool) (g : Generator) :
    genRule r g = ((), (g.extend r.program).withDepth (g.body.depth + 1)) := by
  have hopens (opened : List Opener) : Instr.nestAll opened (Instr.clearException ++
      [.opening .block BlockType.void.byte]) = .block :: opened := by
    have hclear : Instr.nestAll opened Instr.clearException = opened :=
      Code.nestAll_instrs (.const32 0 (.store Symbols.standard.exceptionFlag .done)) opened
    rw [Instr.nestAll_append, hclear]
    exact Instr.nest_block opened BlockType.void.byte
  have hdepth : (g.extend (Instr.clearException ++
      [.opening .block BlockType.void.byte])).body.depth = g.body.depth + 1 := by
    rw [Generator.extend, Body.depth, Body.opened_emitAll, hopens]
    rfl
  have hmark (g : Generator) : markDepth g = ((), g.withDepth g.body.depth) := rfl
  have hkeeps (g : Generator) (n : Nat) (is : List Instr) :
      (g.withDepth n).extend is = (g.extend is).withDepth n := rfl
  have hinside : ((g.extend (Instr.clearException ++
      [.opening .block BlockType.void.byte])).withDepth (g.body.depth + 1)).AtDepth 0 := hdepth
  rw [genRule, bind_apply, emit_apply, bind_apply, emit_apply, extend_extend, bind_apply, hmark,
    hdepth, bind_apply, gen_apply h hinside, bind_apply, emitPlain_apply, emit_apply, hkeeps,
    hkeeps, hkeeps, extend_extend, extend_extend, extend_extend, Rule.program_eq]
  simp only [List.append_assoc]

/-- A rule that is refused has its faults reported, and no code. -/
theorem addRule_of_faults {r : Rule} (h : r.faults ≠ []) (g : Generator) :
    addRule r g = ((), (g.turnTo r).charge r.faults) := by
  have hturn : (modify fun g => g.turnTo r : Pass Unit) g = ((), g.turnTo r) := rfl
  rw [addRule, bind_apply, hturn]
  by_cases hid : r.id < 0
  · have hfaults : r.faults = [.negativeId r.id] := by rw [Rule.faults, if_pos hid]
    rw [if_pos hid, hfaults, report_apply]
  · have hfaults : r.faults = r.condition.infer.faultsAs .condition .bool := by
      rw [Rule.faults, if_neg hid]
    rw [hfaults] at h ⊢
    rw [if_neg hid, bind_apply, (finds_check r.condition).apply]
    cases hinfer : r.condition.infer with
    | error faults => rfl
    | ok t =>
      cases t with
      | bool => exact absurd (by rw [hinfer]; rfl) h
      | int =>
        simp only [Except.toOption, Inferred.faults, charge_nil, report_apply]
        rfl

/-- A rule without a fault has its code emitted, and nothing is reported. -/
theorem addRule_of_sound {r : Rule} (h : r.faults = []) (g : Generator) :
    addRule r g = ((), ((g.turnTo r).extend r.program).withDepth (g.body.depth + 1)) := by
  have hturn : (modify fun g => g.turnTo r : Pass Unit) g = ((), g.turnTo r) := rfl
  obtain ⟨hid, htype⟩ := Rule.faults_eq_nil.mp h
  rw [addRule, bind_apply, hturn, if_neg hid, bind_apply, check_of_hasType htype]
  exact genRule_apply htype (g.turnTo r)

/-- A pass over rules emits the code of those without a fault and reports the faults of the others, in
the order of the rules. -/
theorem addRules_apply (rules : List Rule) (g : Generator) :
    (addRules rules g).2.body = g.body.emitAll ((Rule.emitted rules).flatMap Rule.program) ∧
      (addRules rules g).2.errors = g.errors ++ rules.flatMap Rule.errors := by
  induction rules generalizing g with
  | nil => exact ⟨rfl, (List.append_nil _).symm⟩
  | cons r rules ih =>
    have hstep : addRules (r :: rules) g = addRules rules (addRule r g).2 := rfl
    obtain ⟨hbody, herrors⟩ := ih (addRule r g).2
    rw [hstep, hbody, herrors, List.flatMap_cons]
    by_cases hfaults : r.faults = []
    · have hemitted : Rule.emitted (r :: rules) = r :: Rule.emitted rules := by
        simp [Rule.emitted, hfaults]
      have hnone : r.errors = [] := by rw [Rule.errors, hfaults, List.map_nil]
      rw [addRule_of_sound hfaults, hemitted, List.flatMap_cons, Body.emitAll_append, hnone]
      exact ⟨rfl, rfl⟩
    · have hemitted : Rule.emitted (r :: rules) = Rule.emitted rules := by
        simp [Rule.emitted, hfaults]
      rw [addRule_of_faults hfaults, hemitted, ← List.append_assoc]
      exact ⟨rfl, rfl⟩

end Generator

/-- One pass over the rules does what adding them does. -/
theorem Builder.generate_eq (b : Builder) (rules : List Rule) :
    b.generate rules = b.addRules rules := by
  obtain ⟨hbody, herrors⟩ := Generator.addRules_apply rules ⟨b.body, "", 0, []⟩
  unfold Builder.generate Builder.addRules Builder.emit
  cases b.phase with
  | drafting =>
    simp only [hbody, herrors]
    rfl
  | notSetUp | finalized => rfl

end RuleScan
