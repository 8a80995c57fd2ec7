import RuleScan.Module.Generator
import RuleScan.Proofs.ConditionTyping

/-!
# Checking in one pass

The checker of a pass adds to a list of errors as it goes and separately says whether a condition has a
type. It finds the type that is inferred for the condition, or reports the faults that are.
-/
namespace RuleScan

namespace Generator

/-! ### What the steps of a check do -/

/-- The pass after some faults of the rule at hand were reported. -/
def charge (g : Generator) (faults : List TypeFault) : Generator :=
  { g with errors := g.errors ++ faults.map fun f => ⟨g.rule, f.message⟩ }

variable (g : Generator)

theorem bind_apply {α β : Type} (x : Pass α) (f : α → Pass β) :
    (x >>= f) g = f (x g).1 (x g).2 := rfl

theorem pure_apply {α : Type} (a : α) : (pure a : Pass α) g = (a, g) := rfl

theorem report_apply (f : TypeFault) : report f g = ((), g.charge [f]) := rfl

theorem charge_nil : g.charge [] = g := by simp [charge]

theorem charge_charge (fs gs : List TypeFault) : (g.charge fs).charge gs = g.charge (fs ++ gs) := by
  simp [charge]

end Generator

/-! ### The checker and the inferred type -/

def Inferred.faults : Inferred → List TypeFault
  | .ok _ => []
  | .error faults => faults

theorem Inferred.unless_toOption (faults : List TypeFault) (type : Ty) :
    (Inferred.unless faults type).toOption = if decide (faults = []) then some type else none := by
  unfold Inferred.unless
  split
  · simp [*, Except.toOption]
  · simp [*, Except.toOption]

theorem Inferred.unless_faults (faults : List TypeFault) (type : Ty) :
    (Inferred.unless faults type).faults = faults := by
  unfold Inferred.unless
  split
  · simp [*, Inferred.faults]
  · rfl

namespace Generator

/-- A check that finds a type, or that finds faults and reports them all. -/
structure Finds (x : Pass (Option Ty)) (r : Inferred) : Prop where
  apply : ∀ g, x g = (r.toOption, g.charge r.faults)
  ne_nil : r ≠ .error []

theorem finds_refuse (f : TypeFault) : Finds (refuse f) (.error [f]) := ⟨fun _ => rfl, by simp⟩

theorem finds_ok (t : Ty) : Finds (pure (some t)) (.ok t) :=
  ⟨fun g => by rw [pure_apply, Inferred.faults, charge_nil]; rfl, by simp⟩

/-- An operand is as expected exactly if there is nothing to report about it. -/
theorem Finds.expect {x : Pass (Option Ty)} {r : Inferred} (h : Finds x r) (place : Place)
    (expected : Ty) (g : Generator) :
    expect x place expected g =
      (decide (r.faultsAs place expected = []), g.charge (r.faultsAs place expected)) := by
  rw [Generator.expect, bind_apply, h.apply]
  cases r with
  | error faults =>
    have hne : faults ≠ [] := fun hnil => h.ne_nil (by rw [hnil])
    simp only [Except.toOption, pure_apply, Inferred.faults, Inferred.faultsAs, hne, decide_false]
  | ok actual =>
    by_cases heq : actual = expected
    · simp [Except.toOption, Inferred.faults, Inferred.faultsAs, heq, pure_apply, charge_nil]
    · simp [Except.toOption, Inferred.faults, Inferred.faultsAs, heq, charge_nil, bind_apply,
        report_apply, pure_apply]

theorem Finds.expectBoth {x y : Pass (Option Ty)} {r q : Inferred} (hx : Finds x r)
    (hy : Finds y q) (left right : Place) (expected : Ty) (g : Generator) :
    let faults := r.faultsAs left expected ++ q.faultsAs right expected
    expectBoth x y left right expected g = (decide (faults = []), g.charge faults) := by
  intro faults
  have hnil : (decide (q.faultsAs right expected = []) && decide (r.faultsAs left expected = [])) =
      decide (faults = []) := by
    rw [Bool.eq_iff_iff]
    simp only [faults, Bool.and_eq_true, decide_eq_true_eq, List.append_eq_nil_iff]
    exact and_comm
  rw [Generator.expectBoth, bind_apply, hx.expect, bind_apply, hy.expect, pure_apply, charge_charge,
    hnil]

/-- A node that has a type if there is nothing to report about its operands. -/
theorem Finds.of_operands {x : Pass Bool} {faults : List TypeFault}
    (h : ∀ g, x g = (decide (faults = []), g.charge faults)) (t : Ty) :
    Finds (do return if ← x then some t else none) (Inferred.unless faults t) := by
  refine ⟨fun g => ?_, Inferred.unless_ne_error_nil _ _⟩
  rw [bind_apply, h, pure_apply, Inferred.unless_toOption, Inferred.unless_faults]

theorem finds_comparison (op : CompareOp) (s t : Ty) :
    Finds (checkComparison op (some s) (some t)) (op.inferOn s t) := by
  by_cases heq : s = t
  · subst heq
    cases op with
    | unknown n => simpa [checkComparison, CompareOp.inferOn] using finds_refuse _
    | eq | ne => simpa [checkComparison, CompareOp.inferOn, CompareOp.isEquality] using finds_ok .bool
    | lt | le | gt | ge =>
      cases s with
      | bool => simpa [checkComparison, CompareOp.inferOn, CompareOp.isEquality] using finds_refuse _
      | int => simpa [checkComparison, CompareOp.inferOn, CompareOp.isEquality] using finds_ok .bool
  · simpa [checkComparison, CompareOp.inferOn, heq] using finds_refuse _

/-- The pass finds the type that is inferred, or reports the faults that are. -/
theorem finds_check (c : Condition) : Finds (check c) c.infer := by
  induction c with
  | missing | foreign => exact finds_refuse _
  | bool | pattern => exact finds_ok .bool
  | int => exact finds_ok .int
  | patternAt p off ih => exact .of_operands (ih.expect _ _) .bool
  | not x ih => exact .of_operands (ih.expect _ _) .bool
  | patternIn p lo hi ihlo ihhi => exact .of_operands (ihlo.expectBoth ihhi _ _ _) .bool
  | and x y ihx ihy | or x y ihx ihy => exact .of_operands (ihx.expectBoth ihy _ _ _) .bool
  | arith op x y ihx ihy =>
    cases op with
    | unknown n => exact finds_refuse _
    | _ => exact .of_operands (ihx.expectBoth ihy _ _ _) .int
  | compare op x y ihx ihy =>
    refine ⟨fun g => ?_, Condition.infer_ne_error_nil _⟩
    rw [check, bind_apply, ihx.apply, bind_apply, ihy.apply, charge_charge, Condition.infer]
    cases hx : x.infer with
    | error es =>
      cases hy : y.infer <;> simp [checkComparison, Except.toOption, Inferred.faults, pure_apply]
    | ok s =>
      cases hy : y.infer with
      | error fs => simp [checkComparison, Except.toOption, Inferred.faults, pure_apply]
      | ok t =>
        simp only [Except.toOption, Inferred.faults, List.append_nil, charge_nil]
        exact (finds_comparison op s t).apply g

/-- A condition with a type is not reported when it is checked. -/
theorem check_of_hasType {c : Condition} {t : Ty} (h : HasType c t) (g : Generator) :
    check c g = (some t, g) := by
  rw [(finds_check c).apply, Condition.infer_of_hasType h, Inferred.faults, charge_nil]
  rfl

end Generator

end RuleScan
