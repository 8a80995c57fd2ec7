import RuleScan.Condition.Code
import RuleScan.Condition.Eval
import RuleScan.Machine.Exec

/-!
# Running the pieces of generated code

Generated code keeps three locals: a wide and a narrow one for intermediate results, and the
exception flag. The equations below run one piece in front of any code that follows it. A checked
division either leaves the quotient or takes the branch out of the rule; the machine's own division
is reached only with operands for which it is defined, so it never traps.
-/
namespace RuleScan

/-- The locals of a main function. -/
def scratch (wide : Int64) (narrow flag : Int32) : List Value := [.i64 wide, .i32 narrow, .i32 flag]

namespace Code

variable (e : Surroundings) (k : Code) (stack : List Value) (locals : List Value)
variable (w : Int64) (n x : Int32) (scan : ScanState)

@[simp] theorem exec_const32 (v : Int32) :
    (const32 v k).exec e ⟨stack, locals, scan⟩ = k.exec e ⟨.i32 v :: stack, locals, scan⟩ := rfl

@[simp] theorem exec_const64 (v : Int64) :
    (const64 v k).exec e ⟨stack, locals, scan⟩ = k.exec e ⟨.i64 v :: stack, locals, scan⟩ := rfl

@[simp] theorem exec_load_wide :
    (load Symbols.standard.wideScratch k).exec e ⟨stack, scratch w n x, scan⟩ =
      k.exec e ⟨.i64 w :: stack, scratch w n x, scan⟩ := rfl

@[simp] theorem exec_load_narrow :
    (load Symbols.standard.narrowScratch k).exec e ⟨stack, scratch w n x, scan⟩ =
      k.exec e ⟨.i32 n :: stack, scratch w n x, scan⟩ := rfl

@[simp] theorem exec_store_wide (v : Int64) :
    (store Symbols.standard.wideScratch k).exec e ⟨.i64 v :: stack, scratch w n x, scan⟩ =
      k.exec e ⟨stack, scratch v n x, scan⟩ := rfl

@[simp] theorem exec_store_narrow (v : Int32) :
    (store Symbols.standard.narrowScratch k).exec e ⟨.i32 v :: stack, scratch w n x, scan⟩ =
      k.exec e ⟨stack, scratch w v x, scan⟩ := rfl

@[simp] theorem exec_store_flag (v : Int32) :
    (store Symbols.standard.exceptionFlag k).exec e ⟨.i32 v :: stack, scratch w n x, scan⟩ =
      k.exec e ⟨stack, scratch w n v, scan⟩ := rfl

@[simp] theorem exec_tee_wide (v : Int64) :
    (plain (.localTee Symbols.standard.wideScratch) k).exec e
        ⟨.i64 v :: stack, scratch w n x, scan⟩ =
      k.exec e ⟨.i64 v :: stack, scratch v n x, scan⟩ := rfl

@[simp] theorem exec_select (v : Int32) (a b : Value) :
    (plain .select k).exec e ⟨.i32 v :: b :: a :: stack, locals, scan⟩ =
      k.exec e ⟨(if v = 0 then b else a) :: stack, locals, scan⟩ := rfl

@[simp] theorem exec_eqz64 (a : Int64) :
    (apply .eqz64 k).exec e ⟨.i64 a :: stack, locals, scan⟩ =
      k.exec e ⟨.ofBool (a == 0) :: stack, locals, scan⟩ := rfl

@[simp] theorem exec_relation64 (r : Relation) (a b : Int64) :
    (apply (.relation64 r) k).exec e ⟨.i64 b :: .i64 a :: stack, locals, scan⟩ =
      k.exec e ⟨.ofBool (r.holds64 a b) :: stack, locals, scan⟩ := rfl

@[simp] theorem exec_and32 (a b : Int32) :
    (apply (.arith32 .and) k).exec e ⟨.i32 b :: .i32 a :: stack, locals, scan⟩ =
      k.exec e ⟨.i32 (a &&& b) :: stack, locals, scan⟩ := rfl

/-- An operation on 64-bit integers that does not trap. -/
theorem exec_arith64 {o : Arith64} {a b r : Int64} (h : o.eval a b = .ok r) :
    (apply (.arith64 o) k).exec e ⟨.i64 b :: .i64 a :: stack, locals, scan⟩ =
      k.exec e ⟨.i64 r :: stack, locals, scan⟩ := by
  simp only [apply, exec, Plain.exec, Numeric.apply, h]
  rfl

end Code

/-! ### Blocks -/

theorem Surroundings.enter_void (e : Surroundings) (f : Frame) :
    e.enter .void f = some (⟨[], []⟩, { f with stack := [] }, f.stack) := rfl

/-- A raise sets the flag and branches out of the rule, past the conditional around it. -/
theorem Code.exec_raiseIf (e : Surroundings) (d : Nat) (k : Code) (v : Int32) (stack : List Value)
    (w : Int64) (n x : Int32) (scan : ScanState) :
    (Code.raiseIf d k).exec e ⟨.i32 v :: stack, scratch w n x, scan⟩ =
      if v = 0 then k.exec e ⟨stack, scratch w n x, scan⟩
      else .branch d ⟨[], scratch w n 1, scan⟩ := by
  by_cases hv : v = 0
  · simp only [Code.raiseIf, Code.exec, Surroundings.enter_void, hv, if_true]
    rfl
  · simp only [Code.raiseIf, Code.exec, Surroundings.enter_void, hv, if_false]
    rfl

/-! ### Divisions -/

/-- The value on the stack that stands for the value of a condition. -/
def Datum.value : Datum → Value
  | .bool b => .ofBool b
  | .int v => .i64 v

/-- How code that computes `r` inside `d` blocks of its rule goes on: with the code that follows and
the value on the stack, or, after an exception, with the branch out of the rule and the flag set. -/
def Continues (e : Surroundings) (d : Nat) (k : Code) (stack : List Value) (x : Int32)
    (scan : ScanState) (r : Except Failure Datum) (o : Outcome) : Prop :=
  match r with
  | .ok v => ∃ w n, o = k.exec e ⟨v.value :: stack, scratch w n x, scan⟩
  | .error .exception => ∃ rest w n, o = .branch d ⟨rest, scratch w n 1, scan⟩
  | .error .illTyped => False

theorem div_eq_ofInt_tdiv {a b : Int64} (h : b ≠ -1) :
    a / b = Int64.ofInt (a.toInt.tdiv b.toInt) := by
  rw [← Int64.toInt_div_of_ne_right a b h, Int64.ofInt_toInt]

theorem mul_neg_one_eq_ofInt_tdiv (a : Int64) :
    a * -1 = Int64.ofInt (a.toInt.tdiv (-1 : Int64).toInt) := by
  have hone : (-1 : Int64).toInt = -1 := rfl
  rw [hone, Int.tdiv_neg, Int.tdiv_one, Int64.ofInt_neg, Int64.ofInt_toInt, Int64.mul_neg,
    Int64.mul_one]

theorem mod_eq_ofInt_tmod (a b : Int64) : a % b = Int64.ofInt (a.toInt.tmod b.toInt) := by
  rw [← Int64.toInt_mod, Int64.ofInt_toInt]

namespace Code

variable (e : Surroundings) (d : Nat) (k : Code) (a b : Int64) (stack : List Value)
variable (w : Int64) (n x : Int32) (scan : ScanState)

/-- With a divisor other than minus one the narrow local is zero, so the divisor is used as it is and
the quotient is not negated. -/
theorem exec_checkedDiv_plain (hb : b ≠ 0) (hneg : b ≠ -1) :
    (checkedDiv d k).exec e ⟨.i64 b :: .i64 a :: stack, scratch w n x, scan⟩ =
      k.exec e ⟨.i64 (a / b) :: stack, scratch (a / b) 0 x, scan⟩ := by
  have hzero : Value.ofBool (b == 0) = .i32 0 := by rw [beq_false_of_ne hb]; rfl
  have hminus : Value.ofBool (Relation.holds64 .eq b (-1)) = .i32 0 := by
    rw [Relation.holds64, beq_false_of_ne hneg]; rfl
  have hdiv : Arith64.div.eval a b = .ok (a / b) := by
    rw [Arith64.eval, if_neg hb, if_neg (fun h => hneg h.2)]
  have hmul : Arith64.mul.eval (a / b) 1 = .ok (a / b) := by
    rw [Arith64.eval, Int64.mul_one]
  unfold checkedDiv
  rw [exec_store_wide, exec_load_wide, exec_eqz64, hzero, exec_raiseIf, if_pos rfl]
  rw [exec_load_wide, exec_const64, exec_relation64, hminus, exec_store_narrow]
  rw [exec_const64, exec_load_wide, exec_load_narrow, exec_select, if_pos rfl,
    exec_arith64 _ _ _ _ _ hdiv, exec_tee_wide]
  rw [exec_const64, exec_relation64, Value.ofBool, exec_load_narrow, exec_and32, Int32.and_zero,
    exec_raiseIf, if_pos rfl]
  rw [exec_load_wide, exec_const64, exec_const64, exec_load_narrow, exec_select, if_pos rfl,
    exec_arith64 _ _ _ _ _ hmul]

/-- A divisor of minus one is replaced by one, so the quotient is the dividend; it is negated, unless
that is not possible in 64 bits, which raises the exception. -/
theorem exec_checkedDiv_neg :
    (checkedDiv d k).exec e ⟨.i64 (-1) :: .i64 a :: stack, scratch w n x, scan⟩ =
      if a = Int64.minValue then .branch d ⟨[], scratch a 1 1, scan⟩
      else k.exec e ⟨.i64 (a * -1) :: stack, scratch a 1 x, scan⟩ := by
  have hzero : Value.ofBool ((-1 : Int64) == 0) = .i32 0 := rfl
  have hminus : Value.ofBool (Relation.holds64 .eq (-1) (-1)) = .i32 1 := rfl
  have hone : (1 : Int32) ≠ 0 := by decide
  have hdiv : Arith64.div.eval a 1 = .ok a := by
    rw [Arith64.eval, if_neg (by decide), if_neg (fun h => absurd h.2 (by decide)), Int64.div_one]
  have hmul : Arith64.mul.eval a (-1) = .ok (a * -1) := rfl
  unfold checkedDiv
  rw [exec_store_wide, exec_load_wide, exec_eqz64, hzero, exec_raiseIf, if_pos rfl]
  rw [exec_load_wide, exec_const64, exec_relation64, hminus, exec_store_narrow]
  rw [exec_const64, exec_load_wide, exec_load_narrow, exec_select, if_neg hone,
    exec_arith64 _ _ _ _ _ hdiv, exec_tee_wide]
  rw [exec_const64, exec_relation64, Value.ofBool, exec_load_narrow, exec_and32, exec_raiseIf,
    Relation.holds64]
  by_cases ha : a = Int64.minValue
  · rw [if_pos (beq_iff_eq.mpr ha), if_neg (by decide), if_pos ha]
  · rw [if_neg (fun h => ha (beq_iff_eq.mp h)), if_pos (by decide), if_neg ha]
    rw [exec_load_wide, exec_const64, exec_const64, exec_load_narrow, exec_select, if_neg hone,
      exec_arith64 _ _ _ _ _ hmul]

theorem exec_checkedDiv_zero :
    (checkedDiv d k).exec e ⟨.i64 0 :: .i64 a :: stack, scratch w n x, scan⟩ =
      .branch d ⟨[], scratch 0 n 1, scan⟩ := by
  simp [checkedDiv, exec_raiseIf, Value.ofBool]

/-- A checked division computes the quotient of the evaluator, and raises where that does. -/
theorem exec_checkedDiv :
    Continues e d k stack x scan ((ArithOp.div.eval a b).map .int)
      ((checkedDiv d k).exec e ⟨.i64 b :: .i64 a :: stack, scratch w n x, scan⟩) := by
  by_cases hzero : b = 0
  · subst hzero
    have heval : ArithOp.div.eval a 0 = .error .exception := by
      simp [ArithOp.eval]
    rw [heval, exec_checkedDiv_zero]
    exact ⟨_, _, _, rfl⟩
  · by_cases hneg : b = -1
    · subst hneg
      rw [exec_checkedDiv_neg]
      by_cases ha : a = Int64.minValue
      · have heval : ArithOp.div.eval a (-1) = .error .exception := by
          simp [ArithOp.eval, ha]
        rw [heval, if_pos ha]
        exact ⟨_, _, _, rfl⟩
      · have heval : ArithOp.div.eval a (-1) = .ok (a * -1) := by
          rw [mul_neg_one_eq_ofInt_tdiv]
          exact if_neg (by simp [ha])
        rw [heval, if_neg ha]
        exact ⟨_, _, rfl⟩
    · have heval : ArithOp.div.eval a b = .ok (a / b) := by
        rw [div_eq_ofInt_tdiv hneg]
        exact if_neg (by simp [hzero, hneg])
      rw [heval, exec_checkedDiv_plain e d k a b stack w n x scan hzero hneg]
      exact ⟨_, _, rfl⟩

/-- A checked remainder computes that of the evaluator, and raises where that does. -/
theorem exec_checkedRem :
    Continues e d k stack x scan ((ArithOp.rem.eval a b).map .int)
      ((checkedRem d k).exec e ⟨.i64 b :: .i64 a :: stack, scratch w n x, scan⟩) := by
  by_cases hzero : b = 0
  · subst hzero
    have heval : ArithOp.rem.eval a 0 = .error .exception := by
      simp [ArithOp.eval]
    have hrun : (checkedRem d k).exec e ⟨.i64 0 :: .i64 a :: stack, scratch w n x, scan⟩ =
        .branch d ⟨[], scratch 0 n 1, scan⟩ := by
      simp [checkedRem, exec_raiseIf, Value.ofBool]
    rw [heval, hrun]
    exact ⟨_, _, _, rfl⟩
  · have heval : ArithOp.rem.eval a b = .ok (a % b) := by
      rw [mod_eq_ofInt_tmod]
      exact if_neg hzero
    have hbeq : (b == 0) = false := beq_false_of_ne hzero
    have hrem : Arith64.rem.eval a b = .ok (a % b) := if_neg hzero
    have hrun : (checkedRem d k).exec e ⟨.i64 b :: .i64 a :: stack, scratch w n x, scan⟩ =
        k.exec e ⟨.i64 (a % b) :: stack, scratch b n x, scan⟩ := by
      simp [checkedRem, exec_raiseIf, hbeq, Value.ofBool, exec_arith64 _ _ _ _ _ hrem]
    rw [heval, hrun]
    exact ⟨_, _, rfl⟩

end Code

end RuleScan
