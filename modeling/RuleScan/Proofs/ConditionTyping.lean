import Mathlib.Control.Monad.Basic
import RuleScan.Condition.Eval
import RuleScan.Condition.Typing

/-!
# The checker of conditions and their evaluation

`Condition.infer` gives a type exactly to the conditions that have it, and otherwise at least one
fault. A condition that has a type evaluates to a value of that type or raises an exception; no
operand of the wrong type is ever met.
-/
namespace RuleScan

namespace Inferred

theorem unless_eq_ok {faults : List TypeFault} {type t : Ty} :
    Inferred.unless faults type = .ok t ↔ faults = [] ∧ t = type := by
  unfold Inferred.unless
  split
  · simp [*, eq_comm]
  · simp [*]

theorem unless_ne_error_nil (faults : List TypeFault) (type : Ty) :
    Inferred.unless faults type ≠ .error [] := by
  unfold Inferred.unless
  split
  · simp
  · simpa using ‹_›

theorem faultsAs_eq_nil {r : Inferred} (hr : r ≠ .error []) {place : Place} {expected : Ty} :
    r.faultsAs place expected = [] ↔ r = .ok expected := by
  cases r with
  | error faults =>
    have hf : faults ≠ [] := fun h => hr (by rw [h])
    simp [faultsAs, hf]
  | ok actual => simp [faultsAs]

end Inferred

/-- A comparison of operands with types is refused for one reason, or is a boolean. -/
theorem CompareOp.inferOn_eq_ok {op : CompareOp} {x y t : Ty} :
    op.inferOn x y = .ok t ↔
      t = .bool ∧ x = y ∧ (∀ n, op ≠ .unknown n) ∧ (x = .bool → op = .eq ∨ op = .ne) := by
  by_cases hxy : x = y
  · subst hxy
    cases op <;> cases x <;> simp [inferOn, isEquality, eq_comm]
  · simp [inferOn, hxy]

theorem CompareOp.inferOn_ne_error_nil (op : CompareOp) (x y : Ty) :
    op.inferOn x y ≠ .error [] := by
  cases op <;> cases x <;> cases y <;> simp [inferOn, isEquality]

namespace Condition

/-- A condition without a type has a fault. -/
theorem infer_ne_error_nil (c : Condition) : c.infer ≠ .error [] := by
  induction c with
  | compare op x y ihx ihy =>
    rw [infer]
    cases hx : x.infer with
    | ok s =>
      cases hy : y.infer with
      | ok t => exact op.inferOn_ne_error_nil s t
      | error fs =>
        rw [hy] at ihy
        exact ihy
    | error es =>
      cases hy : y.infer with
      | ok t =>
        rw [hx] at ihx
        exact ihx
      | error fs =>
        have hes : es ≠ [] := fun h => ihx (by rw [hx, h])
        simp [hes]
  | arith op x y =>
    cases op with
    | unknown n => simp [infer]
    | _ => exact Inferred.unless_ne_error_nil _ _
  | patternAt | patternIn | not | and | or => exact Inferred.unless_ne_error_nil _ _
  | _ => simp [infer]

theorem faultsAs_eq_nil {c : Condition} {place : Place} {expected : Ty} :
    c.infer.faultsAs place expected = [] ↔ c.infer = .ok expected :=
  Inferred.faultsAs_eq_nil c.infer_ne_error_nil

/-- The comparison of two operands that have types. -/
theorem infer_compare {op : CompareOp} {x y : Condition} {t : Ty} :
    (compare op x y).infer = .ok t ↔
      ∃ s, x.infer = .ok s ∧ y.infer = .ok s ∧ op.inferOn s s = .ok t := by
  rw [infer]
  cases hx : x.infer with
  | error es => cases hy : y.infer <;> simp
  | ok s =>
    cases hy : y.infer with
    | error fs => simp
    | ok u =>
      constructor
      · intro h
        obtain ⟨_, rfl, _⟩ := CompareOp.inferOn_eq_ok.mp h
        exact ⟨s, rfl, rfl, h⟩
      · rintro ⟨_, hs, hu, h⟩
        cases hs
        cases hu
        exact h

theorem hasType_of_infer {c : Condition} {t : Ty} (h : c.infer = .ok t) : HasType c t := by
  induction c generalizing t with
  | missing | foreign => contradiction
  | bool b => cases h; exact .bool b
  | int v => cases h; exact .int v
  | pattern p => cases h; exact .pattern p
  | patternAt p off ih =>
    obtain ⟨hoff, rfl⟩ := Inferred.unless_eq_ok.mp h
    exact .patternAt (ih (faultsAs_eq_nil.mp hoff))
  | patternIn p lo hi ihlo ihhi =>
    obtain ⟨hnil, rfl⟩ := Inferred.unless_eq_ok.mp h
    obtain ⟨hlo, hhi⟩ := List.append_eq_nil_iff.mp hnil
    exact .patternIn (ihlo (faultsAs_eq_nil.mp hlo)) (ihhi (faultsAs_eq_nil.mp hhi))
  | not x ih =>
    obtain ⟨hx, rfl⟩ := Inferred.unless_eq_ok.mp h
    exact .not (ih (faultsAs_eq_nil.mp hx))
  | and x y ihx ihy =>
    obtain ⟨hnil, rfl⟩ := Inferred.unless_eq_ok.mp h
    obtain ⟨hx, hy⟩ := List.append_eq_nil_iff.mp hnil
    exact .and (ihx (faultsAs_eq_nil.mp hx)) (ihy (faultsAs_eq_nil.mp hy))
  | or x y ihx ihy =>
    obtain ⟨hnil, rfl⟩ := Inferred.unless_eq_ok.mp h
    obtain ⟨hx, hy⟩ := List.append_eq_nil_iff.mp hnil
    exact .or (ihx (faultsAs_eq_nil.mp hx)) (ihy (faultsAs_eq_nil.mp hy))
  | compare op x y ihx ihy =>
    obtain ⟨s, hx, hy, hop⟩ := infer_compare.mp h
    obtain ⟨rfl, _, hknown, hbool⟩ := CompareOp.inferOn_eq_ok.mp hop
    cases s with
    | bool => exact .compareBool (hbool rfl) (ihx hx) (ihy hy)
    | int => exact .compareInt hknown (ihx hx) (ihy hy)
  | arith op x y ihx ihy =>
    have hknown : ∀ n, op ≠ .unknown n := by
      rintro n rfl
      contradiction
    have harith : Inferred.unless (x.infer.faultsAs (.left op.symbol) .int ++
        y.infer.faultsAs (.right op.symbol) .int) .int = .ok t := by
      cases op with
      | unknown n => exact absurd rfl (hknown n)
      | _ => exact h
    obtain ⟨hnil, rfl⟩ := Inferred.unless_eq_ok.mp harith
    obtain ⟨hx, hy⟩ := List.append_eq_nil_iff.mp hnil
    exact .arith hknown (ihx (faultsAs_eq_nil.mp hx)) (ihy (faultsAs_eq_nil.mp hy))

theorem infer_of_hasType {c : Condition} {t : Ty} (h : HasType c t) : c.infer = .ok t := by
  induction h with
  | bool | int | pattern => rfl
  | patternAt _ ih => exact Inferred.unless_eq_ok.mpr ⟨faultsAs_eq_nil.mpr ih, rfl⟩
  | not _ ih => exact Inferred.unless_eq_ok.mpr ⟨faultsAs_eq_nil.mpr ih, rfl⟩
  | patternIn _ _ ihx ihy | and _ _ ihx ihy | or _ _ ihx ihy =>
    refine Inferred.unless_eq_ok.mpr ⟨List.append_eq_nil_iff.mpr ⟨?_, ?_⟩, rfl⟩
    · exact faultsAs_eq_nil.mpr ihx
    · exact faultsAs_eq_nil.mpr ihy
  | compareInt hknown _ _ ihx ihy =>
    exact infer_compare.mpr ⟨.int, ihx, ihy,
      CompareOp.inferOn_eq_ok.mpr ⟨rfl, rfl, hknown, fun h => Ty.noConfusion h⟩⟩
  | compareBool hop _ _ ihx ihy =>
    refine infer_compare.mpr ⟨.bool, ihx, ihy, CompareOp.inferOn_eq_ok.mpr ⟨rfl, rfl, ?_, fun _ => hop⟩⟩
    rintro n rfl
    rcases hop with hop | hop <;> contradiction
  | @arith op x y hknown _ _ ihx ihy =>
    have hnil : x.infer.faultsAs (.left op.symbol) .int ++
        y.infer.faultsAs (.right op.symbol) .int = [] :=
      List.append_eq_nil_iff.mpr ⟨faultsAs_eq_nil.mpr ihx, faultsAs_eq_nil.mpr ihy⟩
    cases op with
    | unknown n => exact absurd rfl (hknown n)
    | _ => exact Inferred.unless_eq_ok.mpr ⟨hnil, rfl⟩

/-- The checker agrees with the typing relation. -/
theorem infer_eq_ok_iff {c : Condition} {t : Ty} : c.infer = .ok t ↔ HasType c t :=
  ⟨hasType_of_infer, infer_of_hasType⟩

end Condition

/-- A rule without fault has a number that is not negative and a condition that is a boolean. -/
theorem Rule.faults_eq_nil {r : Rule} :
    r.faults = [] ↔ ¬ r.id < 0 ∧ HasType r.condition .bool := by
  unfold Rule.faults
  split
  · simp [*]
  · simp [*, Condition.faultsAs_eq_nil, Condition.infer_eq_ok_iff]

/-! ### Evaluation -/

section Except

variable {ε α β : Type}

@[simp] theorem ok_bind (a : α) (f : α → Except ε β) : (Except.ok a >>= f) = f a := rfl

@[simp] theorem error_bind (e : ε) (f : α → Except ε β) :
    ((Except.error e : Except ε α) >>= f) = .error e := rfl

@[simp] theorem pure_eq_ok (a : α) : (pure a : Except ε α) = .ok a := rfl

end Except

/-- An evaluation that gives a value of a type or raises an exception. -/
def Evaluates (r : Except Failure Datum) (t : Ty) : Prop :=
  (∃ v, r = .ok v ∧ v.type = t) ∨ r = .error .exception

theorem Evaluates.int {r : Except Failure Datum} (h : Evaluates r .int) :
    (∃ v, r = .ok (.int v)) ∨ r = .error .exception := by
  rcases h with ⟨v, hv, ht⟩ | h
  · cases v with
    | int v => exact .inl ⟨v, hv⟩
    | bool b => contradiction
  · exact .inr h

theorem Evaluates.bool {r : Except Failure Datum} (h : Evaluates r .bool) :
    (∃ b, r = .ok (.bool b)) ∨ r = .error .exception := by
  rcases h with ⟨v, hv, ht⟩ | h
  · cases v with
    | bool b => exact .inl ⟨b, hv⟩
    | int v => contradiction
  · exact .inr h

theorem evaluates_of_bool (b : Bool) : Evaluates (.ok (.bool b)) .bool := .inl ⟨_, rfl, rfl⟩

theorem CompareOp.evalInt_known {op : CompareOp} (h : ∀ n, op ≠ .unknown n) (a b : Int64) :
    ∃ r, op.evalInt a b = .ok r := by
  cases op with
  | unknown n => exact absurd rfl (h n)
  | _ => exact ⟨_, rfl⟩

theorem CompareOp.evalBool_equality {op : CompareOp} (h : op = .eq ∨ op = .ne) (a b : Bool) :
    ∃ r, op.evalBool a b = .ok r := by
  rcases h with rfl | rfl <;> exact ⟨_, rfl⟩

theorem ArithOp.eval_known {op : ArithOp} (h : ∀ n, op ≠ .unknown n) (a b : Int64) :
    (∃ r, op.eval a b = .ok r) ∨ op.eval a b = .error .exception := by
  cases op with
  | unknown n => exact absurd rfl (h n)
  | div | rem =>
    simp only [ArithOp.eval]
    split
    · exact .inr rfl
    · exact .inl ⟨_, rfl⟩
  | _ => exact .inl ⟨_, rfl⟩

/-- A condition with a type evaluates to a value of that type, unless it raises an exception. -/
theorem HasType.evaluates {c : Condition} {t : Ty} (h : HasType c t) (index : PatternSource) :
    Evaluates (c.eval index) t := by
  induction h with
  | bool b => exact evaluates_of_bool b
  | int v => exact .inl ⟨_, rfl, rfl⟩
  | pattern p => exact evaluates_of_bool _
  | patternAt _ ih =>
    rcases ih.int with ⟨o, ho⟩ | ho
    · simpa [Condition.eval, ho, Datum.asInt] using evaluates_of_bool _
    · exact .inr (by simp [Condition.eval, ho])
  | patternIn _ _ ihlo ihhi =>
    rcases ihlo.int with ⟨l, hl⟩ | hl
    · rcases ihhi.int with ⟨u, hu⟩ | hu
      · simpa [Condition.eval, hl, hu, Datum.asInt] using evaluates_of_bool _
      · exact .inr (by simp [Condition.eval, hl, hu, Datum.asInt])
    · exact .inr (by simp [Condition.eval, hl])
  | not _ ih =>
    rcases ih.bool with ⟨b, hb⟩ | hb
    · simpa [Condition.eval, hb, Datum.asBool] using evaluates_of_bool _
    · exact .inr (by simp [Condition.eval, hb])
  | and _ _ ihx ihy =>
    rcases ihx.bool with ⟨b, hb⟩ | hb
    · cases b with
      | false => simpa [Condition.eval, hb, Datum.asBool] using evaluates_of_bool _
      | true =>
        rcases ihy.bool with ⟨a, ha⟩ | ha
        · simpa [Condition.eval, hb, ha, Datum.asBool] using evaluates_of_bool _
        · exact .inr (by simp [Condition.eval, hb, ha, Datum.asBool])
    · exact .inr (by simp [Condition.eval, hb])
  | or _ _ ihx ihy =>
    rcases ihx.bool with ⟨b, hb⟩ | hb
    · cases b with
      | true => simpa [Condition.eval, hb, Datum.asBool] using evaluates_of_bool _
      | false =>
        rcases ihy.bool with ⟨a, ha⟩ | ha
        · simpa [Condition.eval, hb, ha, Datum.asBool] using evaluates_of_bool _
        · exact .inr (by simp [Condition.eval, hb, ha, Datum.asBool])
    · exact .inr (by simp [Condition.eval, hb])
  | compareInt hknown _ _ ihx ihy =>
    rcases ihx.int with ⟨a, ha⟩ | ha
    · rcases ihy.int with ⟨b, hb⟩ | hb
      · obtain ⟨r, hr⟩ := CompareOp.evalInt_known hknown a b
        simpa [Condition.eval, ha, hb, CompareOp.eval, hr] using evaluates_of_bool r
      · exact .inr (by simp [Condition.eval, ha, hb])
    · exact .inr (by simp [Condition.eval, ha])
  | compareBool hop _ _ ihx ihy =>
    rcases ihx.bool with ⟨a, ha⟩ | ha
    · rcases ihy.bool with ⟨b, hb⟩ | hb
      · obtain ⟨r, hr⟩ := CompareOp.evalBool_equality hop a b
        simpa [Condition.eval, ha, hb, CompareOp.eval, hr] using evaluates_of_bool r
      · exact .inr (by simp [Condition.eval, ha, hb])
    · exact .inr (by simp [Condition.eval, ha])
  | arith hknown _ _ ihx ihy =>
    rcases ihx.int with ⟨a, ha⟩ | ha
    · rcases ihy.int with ⟨b, hb⟩ | hb
      · rcases ArithOp.eval_known hknown a b with ⟨r, hr⟩ | hr
        · exact .inl ⟨.int r, by simp [Condition.eval, ha, hb, Datum.asInt, hr], rfl⟩
        · exact .inr (by simp [Condition.eval, ha, hb, Datum.asInt, hr])
      · exact .inr (by simp [Condition.eval, ha, hb, Datum.asInt])
    · exact .inr (by simp [Condition.eval, ha])

end RuleScan
