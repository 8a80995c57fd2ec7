import RuleScan.Proofs.CodeExecution
import RuleScan.Proofs.GeneratedValidity
import RuleScan.Proofs.HostCalls
import RuleScan.Proofs.ScanReports

/-!
# Generated code computes what the evaluator does

The code of a condition is run in front of any code, on any stack, with any values in the scratch
locals, inside any number of blocks of its rule. It goes on with the value that the evaluator gives,
or takes the branch out of the rule where the evaluator raises an exception. The induction is on
the typing derivation; it needs the type only to know which form the operands on the stack have.
-/
namespace RuleScan

/-! ### Host calls -/

/-- The first functions are those of the host, in the order of their indexes. -/
def Surroundings.HasHost (e : Surroundings) : Prop :=
  ∀ h : HostFunction, e.functions[h.index]? = some (.host h)

theorem Surroundings.hasHost_append (types : List FuncType) (others : List Callee) (rounds : Nat)
    (callOwn : Nat → List Value → ScanState → Returned) :
    (⟨types, HostFunction.all.map .host ++ others, rounds, callOwn⟩ : Surroundings).HasHost := by
  intro h
  cases h <;> rfl

/-- Calling a host function takes its arguments from the stack and leaves its results. -/
theorem Code.exec_callHost {e : Surroundings} (he : e.HasHost) {h : HostFunction}
    (args : List Value) {results : List Value} {scan after : ScanState}
    (hargs : args.map Value.type = h.type.params)
    (hinvoke : h.invoke args scan = (.ok results, after)) (k : Code) (below locals : List Value) :
    (Code.callHost h k).exec e ⟨args.reverse ++ below, locals, scan⟩ =
      k.exec e ⟨results.reverse ++ below, locals, after⟩ := by
  have htake := takeArguments_reverse hargs below
  simp only [Code.callHost, Code.exec, Plain.exec, Surroundings.call, he h, Callee.type, htake,
    hinvoke]
  rfl

/-! ### Conditions -/

namespace Continues

variable {e : Surroundings} {d : Nat} {k k' : Code} {stack stack' : List Value} {x : Int32}
variable {scan : ScanState} {r : Except Failure Datum} {o : Outcome}

/-- Code that goes on with more code that computes, from the first value, the value of the whole. -/
theorem bind (h : Continues e d k stack x scan r o) (t : Ty) (hr : Evaluates r t)
    {f : Datum → Except Failure Datum}
    (hf : ∀ v w n, v.type = t → Continues e d k' stack' x scan (f v)
      (k.exec e ⟨v.value :: stack, scratch w n x, scan⟩)) :
    Continues e d k' stack' x scan (r >>= f) o := by
  rcases hr with ⟨v, rfl, hv⟩ | rfl
  · obtain ⟨w, n, rfl⟩ := h
    exact hf v w n hv
  · exact h

theorem bind_int (h : Continues e d k stack x scan r o) (hr : Evaluates r .int)
    {f : Int64 → Except Failure Datum}
    (hf : ∀ a w n, Continues e d k' stack' x scan (f a)
      (k.exec e ⟨.i64 a :: stack, scratch w n x, scan⟩)) :
    Continues e d k' stack' x scan (r >>= fun v => v.asInt >>= f) o := by
  refine h.bind .int hr ?_
  intro v w n hv
  cases v with
  | int a => exact hf a w n
  | bool b => contradiction

theorem bind_bool (h : Continues e d k stack x scan r o) (hr : Evaluates r .bool)
    {f : Bool → Except Failure Datum}
    (hf : ∀ b w n, Continues e d k' stack' x scan (f b)
      (k.exec e ⟨.ofBool b :: stack, scratch w n x, scan⟩)) :
    Continues e d k' stack' x scan (r >>= fun v => v.asBool >>= f) o := by
  refine h.bind .bool hr ?_
  intro v w n hv
  cases v with
  | bool b => exact hf b w n
  | int a => contradiction

/-- Code that fills a block with one result: its value becomes that of the block, and a branch out
of the rule has one block less to leave. -/
theorem leave (h : Continues e (d + 1) .done [] x scan r o) (k : Code) (stack : List Value) :
    Continues e d k stack x scan r ((o.leave 1 stack).andThen fun g => k.exec e g) := by
  match r, h with
  | .ok v, ⟨w, n, ho⟩ =>
    subst ho
    exact ⟨w, n, rfl⟩
  | .error .exception, ⟨rest, w, n, ho⟩ =>
    subst ho
    exact ⟨rest, w, n, rfl⟩

end Continues

theorem CompareOp.operation_int {op : CompareOp} (h : ∀ n, op ≠ .unknown n) (a b : Int64) :
    ∃ r, op.operation (some .int) = .numeric (.relation64 r) ∧
      op.evalInt a b = .ok (r.holds64 a b) := by
  cases op with
  | unknown n => exact absurd rfl (h n)
  | _ => exact ⟨_, rfl, rfl⟩

/-- Truth values are one and zero, so comparing them as numbers compares them. -/
theorem CompareOp.operation_bool {op : CompareOp} (h : op = .eq ∨ op = .ne) (a b : Bool) :
    ∃ r, op.operation (some .bool) = .numeric (.relation32 r) ∧
      op.evalBool a b = .ok (r.holds32 (if a then 1 else 0) (if b then 1 else 0)) := by
  rcases h with rfl | rfl
  · exact ⟨.eq, rfl, by cases a <;> cases b <;> rfl⟩
  · exact ⟨.ne, rfl, by cases a <;> cases b <;> rfl⟩

/-- The code of an operator on the two numbers on the stack. -/
theorem ArithOp.exec_code {op : ArithOp} (h : ∀ n, op ≠ .unknown n) (e : Surroundings) (d : Nat)
    (k : Code) (a b : Int64) (stack : List Value) (w : Int64) (n x : Int32) (scan : ScanState) :
    Continues e d k stack x scan ((op.eval a b).map .int)
      ((op.code d k).exec e ⟨.i64 b :: .i64 a :: stack, scratch w n x, scan⟩) := by
  cases op with
  | unknown n => exact absurd rfl (h n)
  | add => exact ⟨w, n, Code.exec_arith64 _ _ _ _ _ rfl⟩
  | sub => exact ⟨w, n, Code.exec_arith64 _ _ _ _ _ rfl⟩
  | mul => exact ⟨w, n, Code.exec_arith64 _ _ _ _ _ rfl⟩
  | div => exact Code.exec_checkedDiv e d k a b stack w n x scan
  | rem => exact Code.exec_checkedRem e d k a b stack w n x scan

theorem Evaluates.asBool_eq {r : Except Failure Datum} (h : Evaluates r .bool) :
    (r >>= fun v => v.asBool >>= fun b => .ok (.bool b)) = r := by
  rcases h.bool with ⟨b, rfl⟩ | rfl <;> rfl

/-- The code of a condition computes its value, or raises where the evaluation does. -/
theorem HasType.continues {c : Condition} {t : Ty} (h : HasType c t) {e : Surroundings}
    (he : e.HasHost) (scan : ScanState) (flag : Int32) (d : Nat) (k : Code) (stack : List Value)
    (w : Int64) (n : Int32) :
    Continues e d k stack flag scan (c.eval scan.index)
      ((c.compile d k).exec e ⟨stack, scratch w n flag, scan⟩) := by
  induction h generalizing d k stack w n with
  | bool b => exact ⟨w, n, rfl⟩
  | int v => exact ⟨w, n, rfl⟩
  | pattern p =>
    exact ⟨w, n, Code.exec_callHost he [.i32 p] rfl
      (HostFunction.invoke_isPatternMatch p scan) k stack _⟩
  | @patternAt p off hoff ih =>
    refine (ih d _ (.i32 p :: stack) w n).bind_int (hoff.evaluates _) ?_
    intro o w n
    exact ⟨w, n, Code.exec_callHost he [.i32 p, .i64 o] rfl
      (HostFunction.invoke_isPatternMatchAt p o scan) k stack _⟩
  | @patternIn p lo hi hlo hhi ihlo ihhi =>
    refine (ihlo d _ (.i32 p :: stack) w n).bind_int (hlo.evaluates _) ?_
    intro l w n
    refine (ihhi d _ (.i64 l :: .i32 p :: stack) w n).bind_int (hhi.evaluates _) ?_
    intro u w n
    exact ⟨w, n, Code.exec_callHost he [.i32 p, .i64 l, .i64 u] rfl
      (HostFunction.invoke_isPatternMatchIn p l u scan) k stack _⟩
  | not hx ih =>
    refine (ih d _ stack w n).bind_bool (hx.evaluates _) ?_
    intro b w n
    cases b <;> exact ⟨w, n, rfl⟩
  | and hx hy ihx ihy =>
    refine (ihx d _ stack w n).bind_bool (hx.evaluates _) ?_
    intro b w n
    cases b with
    | false => exact ⟨w, n, rfl⟩
    | true =>
      have hleave := (ihy (d + 1) .done [] w n).leave k stack
      rwa [← (hy.evaluates scan.index).asBool_eq] at hleave
  | or hx hy ihx ihy =>
    refine (ihx d _ stack w n).bind_bool (hx.evaluates _) ?_
    intro b w n
    cases b with
    | true => exact ⟨w, n, rfl⟩
    | false =>
      have hleave := (ihy (d + 1) .done [] w n).leave k stack
      rwa [← (hy.evaluates scan.index).asBool_eq] at hleave
  | @compareInt op x y hknown hx hy ihx ihy =>
    refine (ihx d _ stack w n).bind .int (hx.evaluates _) ?_
    intro v w n hv
    refine (ihy d _ (v.value :: stack) w n).bind .int (hy.evaluates _) ?_
    intro u w n hu
    cases v with
    | bool b => contradiction
    | int a =>
      cases u with
      | bool b => contradiction
      | int b =>
        obtain ⟨r, hr, heval⟩ := CompareOp.operation_int hknown a b
        simp only [Condition.infer_of_hasType hx, Except.toOption, hr, CompareOp.eval, heval]
        exact ⟨w, n, rfl⟩
  | @compareBool op x y hop hx hy ihx ihy =>
    refine (ihx d _ stack w n).bind .bool (hx.evaluates _) ?_
    intro v w n hv
    refine (ihy d _ (v.value :: stack) w n).bind .bool (hy.evaluates _) ?_
    intro u w n hu
    cases v with
    | int a => contradiction
    | bool a =>
      cases u with
      | int b => contradiction
      | bool b =>
        obtain ⟨r, hr, heval⟩ := CompareOp.operation_bool hop a b
        simp only [Condition.infer_of_hasType hx, Except.toOption, hr, CompareOp.eval, heval]
        exact ⟨w, n, rfl⟩
  | @arith op x y hknown hx hy ihx ihy =>
    refine (ihx d _ stack w n).bind_int (hx.evaluates _) ?_
    intro a w n
    refine (ihy d _ (.i64 a :: stack) w n).bind_int (hy.evaluates _) ?_
    intro b w n
    have hcode := ArithOp.exec_code hknown e d k a b stack w n flag scan
    cases hr : op.eval a b <;> rw [hr] at hcode <;> exact hcode

/-! ### Rules -/

/-- The exception flag after a rule: one if its evaluation raised an exception. -/
def Rule.flag (index : PatternSource) (r : Rule) : Int32 :=
  match r.condition.eval index with
  | .error .exception => 1
  | _ => 0

/-- The scan after a rule: it is reported if it holds. -/
def Rule.report (scan : ScanState) (r : Rule) : ScanState :=
  if r.holds scan.index then scan.ruleMatch r.id else scan

/-- The code of a rule reports it if it holds, sets the flag if its evaluation raised an exception,
and falls through with the operands that it found. -/
theorem Rule.exec_code {r : Rule} (h : HasType r.condition .bool) {e : Surroundings}
    (he : e.HasHost) (k : Code) (stack : List Value) (w : Int64) (n x : Int32) (scan : ScanState) :
    ∃ w' n', (r.code k).exec e ⟨stack, scratch w n x, scan⟩ =
      k.exec e ⟨stack, scratch w' n' (r.flag scan.index), r.report scan⟩ := by
  have hbody := h.continues he scan 0 0 (Code.apply .eqz32 <| .plain (.brIf 0) <|
    Code.const32 r.id <| Code.callHost .ruleMatch .done) [] w n
  unfold Rule.code
  rw [Code.exec_const32, Code.exec_store_flag, Code.exec, Surroundings.enter_void]
  rcases (h.evaluates scan.index).bool with ⟨b, hb⟩ | hb
  · rw [hb] at hbody
    obtain ⟨w', n', ho⟩ := hbody
    have hflag : r.flag scan.index = 0 := by simp [Rule.flag, hb]
    refine ⟨w', n', ?_⟩
    simp only [ho, hflag]
    cases b with
    | false =>
      have hreport : r.report scan = scan := by simp [Rule.report, Rule.holds, hb]
      rw [hreport]
      rfl
    | true =>
      have hreport : r.report scan = scan.ruleMatch r.id := by simp [Rule.report, Rule.holds, hb]
      have hcall := Code.exec_callHost he [.i32 r.id] rfl
        (HostFunction.invoke_ruleMatch r.id scan) .done [] (scratch w' n' 0)
      have hrun : (Code.apply .eqz32 <| .plain (.brIf 0) <| Code.const32 r.id <|
          Code.callHost .ruleMatch .done).exec e ⟨[(Datum.bool true).value], scratch w' n' 0, scan⟩ =
          .next ⟨[], scratch w' n' 0, scan.ruleMatch r.id⟩ := hcall
      rw [hreport, hrun]
      rfl
  · rw [hb] at hbody
    obtain ⟨rest, w', n', ho⟩ := hbody
    have hflag : r.flag scan.index = 1 := by simp [Rule.flag, hb]
    have hreport : r.report scan = scan := by simp [Rule.report, Rule.holds, hb]
    refine ⟨w', n', ?_⟩
    simp only [ho, hflag, hreport]
    rfl

@[simp] theorem Rule.report_index (scan : ScanState) (r : Rule) :
    (r.report scan).index = scan.index := by
  unfold Rule.report
  split
  · exact ScanState.ruleMatch_index _ _
  · rfl

/-- The exception flag after rules: that of the last one, or the one before them if there is none. -/
def flagAfter (index : PatternSource) (x : Int32) (rules : List Rule) : Int32 :=
  (rules.getLast?.map (Rule.flag index)).getD x

theorem flagAfter_cons (index : PatternSource) (x : Int32) (r : Rule) (rules : List Rule) :
    flagAfter index x (r :: rules) = flagAfter index (r.flag index) rules := by
  cases rules with
  | nil => rfl
  | cons s rules => simp only [flagAfter, List.getLast?_cons, Option.map_some,
      Option.getD_some]

/-- The scan after rules. -/
def Rule.reportAll (scan : ScanState) (rules : List Rule) : ScanState :=
  rules.foldl Rule.report scan

/-- The code of rules runs them in turn and falls through. -/
theorem Rule.exec_codeAll {rules : List Rule} (h : ∀ r ∈ rules, HasType r.condition .bool)
    {e : Surroundings} (he : e.HasHost) (k : Code) (stack : List Value) (w : Int64) (n x : Int32)
    (scan : ScanState) :
    ∃ w' n', (rules = [] → w' = w ∧ n' = n) ∧
      (Rule.codeAll rules k).exec e ⟨stack, scratch w n x, scan⟩ =
        k.exec e ⟨stack, scratch w' n' (flagAfter scan.index x rules), Rule.reportAll scan rules⟩ := by
  induction rules generalizing w n x scan with
  | nil => exact ⟨w, n, fun _ => ⟨rfl, rfl⟩, rfl⟩
  | cons r rules ih =>
    obtain ⟨hr, hrules⟩ := List.forall_mem_cons.mp h
    obtain ⟨w₁, n₁, hfirst⟩ := Rule.exec_code hr he (Rule.codeAll rules k) stack w n x scan
    obtain ⟨w₂, n₂, _, hrest⟩ := ih hrules w₁ n₁ (r.flag scan.index) (r.report scan)
    rw [Rule.report_index] at hrest
    refine ⟨w₂, n₂, fun hnil => by contradiction, ?_⟩
    rw [flagAfter_cons]
    exact hfirst.trans hrest

/-- Reporting rules in turn is reporting the numbers of those that hold. -/
theorem Rule.reportAll_eq (scan : ScanState) (rules : List Rule) :
    Rule.reportAll scan rules =
      ((rules.filter (·.holds scan.index)).map (·.id)).foldl ScanState.ruleMatch scan := by
  induction rules generalizing scan with
  | nil => rfl
  | cons r rules ih =>
    have hstep : Rule.reportAll scan (r :: rules) = Rule.reportAll (r.report scan) rules := rfl
    rw [hstep, ih, Rule.report_index]
    cases hr : r.holds scan.index <;> simp [Rule.report, hr]

theorem flagAfter_getLast? {index : PatternSource} {x : Int32} {rules : List Rule} {last : Rule}
    (h : rules.getLast? = some last) : flagAfter index x rules = last.flag index := by
  rw [flagAfter, h]
  rfl

theorem Code.encode_instrs (code : Code) :
    code.instrs.mapM Instr.encode = .ok (code.tokens.map Token.bytes) := by
  unfold Code.instrs
  induction code.tokens with
  | nil => rfl
  | cons t ts ih =>
    simp only [List.map_cons, List.mapM_cons, Token.encode_instr, ih]
    rfl

/-- Generated code is correct in any surrounding code. It is appended to any body as it is, and read
back in front of whatever follows it. From any operands, scratch locals and scan it goes on with the
code that follows, with the same operands, after the rules that hold have been reported in turn. The
exception flag tells whether the last of the rules raised an exception; without rules the locals stay
as they were. -/
theorem Rule.emittedCode_runs_anywhere (rules : List Rule) :
    (∀ symbols body, (⟨.drafting, symbols, body⟩ : Builder).addRules rules =
      .ok (⟨.drafting, symbols, body.extend (Rule.emittedCode rules).instrs⟩,
        rules.flatMap Rule.errors)) ∧
    (∃ parts, (Rule.emittedCode rules).instrs.mapM Instr.encode = .ok parts ∧
      (parts.flatten.length < UInt32.size → ∀ rest us k a outer, Token.readAll rest = some us →
        us.foldrM Code.prepend [] = some (⟨k, a⟩ :: outer) →
        ∃ ts, Token.readAll (parts.flatten ++ rest) = some ts ∧
          ts.foldrM Code.prepend [] = some (⟨(Rule.emittedCode rules).append k, a⟩ :: outer))) ∧
    ∀ types others rounds callOwn k stack w n x scan,
      let e : Surroundings := ⟨types, HostFunction.all.map .host ++ others, rounds, callOwn⟩
      ∃ w' n' x', ((Rule.emittedCode rules).append k).exec e ⟨stack, scratch w n x, scan⟩ =
          k.exec e ⟨stack, scratch w' n' x',
            (((Rule.emitted rules).filter (·.holds scan.index)).map (·.id)).foldl
              ScanState.ruleMatch scan⟩ ∧
        (Rule.emitted rules = [] → w' = w ∧ n' = n ∧ x' = x) ∧
        ∀ last, (Rule.emitted rules).getLast? = some last → x' = last.flag scan.index := by
  refine ⟨fun symbols body => Builder.addRules_drafting rfl rules, ?_, ?_⟩
  · refine ⟨_, Code.encode_instrs _, ?_⟩
    rw [← List.flatMap_def]
    intro hsize rest us k a outer hread hnest
    exact Code.nests_before (Rule.check_emittedCode rules mainScope_serves ⟨[], false⟩)
      mainScope_small rfl hsize hread hnest
  · intro types others rounds callOwn k stack w n x scan e
    have happend : (Rule.emittedCode rules).append k = Rule.codeAll (Rule.emitted rules) k :=
      Rule.codeAll_append _ .done k
    obtain ⟨w', n', hnone, hrun⟩ := Rule.exec_codeAll (Rule.hasType_of_emitted rules)
      (Surroundings.hasHost_append types others rounds callOwn) k stack w n x scan
    rw [Rule.reportAll_eq] at hrun
    refine ⟨w', n', flagAfter scan.index x (Rule.emitted rules), ?_, ?_, ?_⟩
    · rw [happend]
      exact hrun
    · intro hempty
      obtain ⟨hw, hn⟩ := hnone hempty
      refine ⟨hw, hn, ?_⟩
      rw [hempty]
      rfl
    · intro last hlast
      exact flagAfter_getLast? hlast

end RuleScan
