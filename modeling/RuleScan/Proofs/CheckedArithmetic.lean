import RuleScan.Proofs.GeneratedExecution
import RuleScan.Proofs.OnePassGeneration

/-!
# Checked division and remainder

The instructions that a generator emits for a division or a remainder, wherever in a rule they stand.
They end in one of two ways: the two operands are replaced by the quotient or the remainder, or the
exception flag is set and a branch leaves all blocks up to that of the rule. The second happens exactly
if there is no quotient in 64 bits, or no remainder. They never halt, so neither does the machine's own
division in them.
-/
namespace RuleScan

/-! ### Code in front of other code -/

theorem Outcome.andThen_andThen (o : Outcome) (f g : Frame → Outcome) :
    (o.andThen f).andThen g = o.andThen fun frame => (f frame).andThen g := by
  cases o <;> rfl

/-- Code is run in front of other code as it is run alone, and then goes on if it falls through. -/
theorem Code.exec_append (e : Surroundings) (c k : Code) (f : Frame) :
    (c.append k).exec e f = (c.exec e f).andThen fun g => k.exec e g := by
  induction c generalizing f with
  | done => rfl
  | plain p c ih => simp only [append, exec, ih, Outcome.andThen_andThen]
  | block t b c _ ih | loop t b c _ ih =>
    simp only [append, exec, ih]
    cases e.enter t f with
    | none => rfl
    | some entered => exact (Outcome.andThen_andThen _ _ _).symm
  | ifThen t b c _ ih | ifElse t b a c _ _ ih =>
    simp only [append, exec, ih]
    split
    · rename_i v s _
      cases e.enter t { f with stack := s } with
      | none => rfl
      | some entered => exact (Outcome.andThen_andThen _ _ _).symm
    · rfl

namespace Code

/-- The instructions are executed as the given code, whatever follows them in a body and whatever blocks
they stand in. -/
def ExecutedAs (c : Code) (instrs : List Instr) : Prop :=
  ∃ parts, instrs.mapM Instr.encode = .ok parts ∧
    ∀ rest us k alternative outer, Token.readAll rest = some us →
      us.foldrM prepend [] = some (⟨k, alternative⟩ :: outer) →
      ∃ ts, Token.readAll (parts.flatten ++ rest) = some ts ∧
        ts.foldrM prepend [] = some (⟨c.append k, alternative⟩ :: outer)

theorem executedAs_instrs {c : Code} (h : ∀ t ∈ c.tokens, t.Fits) : c.ExecutedAs c.instrs := by
  refine ⟨_, encode_instrs c, ?_⟩
  intro rest us k alternative outer hread hnest
  rw [← List.flatMap_def]
  refine ⟨c.tokens ++ us, Token.readAll_append h hread, ?_⟩
  rw [List.foldrM_append, hnest]
  exact prepend_tokens c k alternative outer

end Code

/-! ### Blocks around code -/

/-- A block that is open around code: how many results it has, the operands below its own, and what is
done after it. -/
structure OpenBlock where
  arity : Nat
  below : List Value
  after : Frame → Outcome

/-- What becomes of an outcome inside open blocks, the innermost first: each is left as a block is when
its body has run. -/
def Outcome.within (o : Outcome) (blocks : List OpenBlock) : Outcome :=
  blocks.foldl (fun o b => (o.leave b.arity b.below).andThen b.after) o

/-- A branch with the number of the blocks leaves all of them, and nothing is done after any. -/
theorem Outcome.branch_within (f : Frame) (blocks : List OpenBlock) :
    (branch blocks.length f).within blocks = branch 0 f := by
  induction blocks with
  | nil => rfl
  | cons b blocks ih => exact ih

/-- The exception flag is set, and the branch is taken out of `d` blocks and the block of the rule. -/
def Outcome.Raises (d : Nat) (scan : ScanState) (o : Outcome) : Prop :=
  ∃ rest w n, o = .branch d ⟨rest, scratch w n 1, scan⟩

/-- After a raise the rule ends: what comes after its block is done, with the operands below it. -/
theorem Outcome.Raises.within_rule {scan : ScanState} {o : Outcome} {blocks : List OpenBlock}
    (h : o.Raises blocks.length scan) {rule : OpenBlock} (hvoid : rule.arity = 0) :
    ∃ w n, o.within (blocks ++ [rule]) = rule.after ⟨rule.below, scratch w n 1, scan⟩ := by
  obtain ⟨rest, w, n, rfl⟩ := h
  refine ⟨w, n, ?_⟩
  have hsplit : Outcome.within (.branch blocks.length ⟨rest, scratch w n 1, scan⟩) (blocks ++ [rule]) =
      ((Outcome.within (.branch blocks.length ⟨rest, scratch w n 1, scan⟩) blocks).leave rule.arity
        rule.below).andThen rule.after := List.foldl_append
  rw [hsplit, branch_within, hvoid]
  rfl

/-! ### The two operations -/

theorem toInt_ofInt_tdiv {a b : Int64} (h : ¬ (a = Int64.minValue ∧ b = -1)) :
    (Int64.ofInt (a.toInt.tdiv b.toInt)).toInt = a.toInt.tdiv b.toInt := by
  have hwrap : (Int64.ofInt (a.toInt.tdiv b.toInt)).toInt = (a / b).toInt := by
    rw [Int64.toInt_div, Int64.toInt_ofInt]
  rw [hwrap]
  by_cases hb : b = -1
  · exact Int64.toInt_div_of_ne_left a b fun ha => h ⟨ha, hb⟩
  · exact Int64.toInt_div_of_ne_right a b hb

theorem toInt_ofInt_tmod (a b : Int64) :
    (Int64.ofInt (a.toInt.tmod b.toInt)).toInt = a.toInt.tmod b.toInt := by
  rw [← mod_eq_ofInt_tmod, Int64.toInt_mod]

/-- The operands of an operation were replaced by a number, and the flag is as it was. -/
def Outcome.Leaves (stack : List Value) (x : Int32) (scan : ScanState) (v : Int) (o : Outcome) : Prop :=
  ∃ q w n, q.toInt = v ∧ o = .next ⟨.i64 q :: stack, scratch w n x, scan⟩

/-- Code that computes a number, or raises under a condition, does just that and never halts. -/
theorem Continues.raises_iff {e : Surroundings} {d : Nat} {stack : List Value} {x : Int32}
    {scan : ScanState} {P : Prop} [Decidable P] {v : Int} {o : Outcome}
    (h : Continues e d .done stack x scan
      (Except.map .int (if P then .error .exception else .ok (Int64.ofInt v))) o)
    (hfits : ¬ P → (Int64.ofInt v).toInt = v) :
    (o.Raises d scan ↔ P) ∧ (¬ P → o.Leaves stack x scan v) ∧ ∀ halt s, o ≠ .halt halt s := by
  by_cases hp : P
  · rw [if_pos hp] at h
    have hraises : o.Raises d scan := h
    refine ⟨iff_of_true hraises hp, fun hnot => absurd hp hnot, ?_⟩
    obtain ⟨rest, w, n, rfl⟩ := hraises
    exact fun halt s => Outcome.noConfusion
  · rw [if_neg hp] at h
    obtain ⟨w, n, rfl⟩ := h
    refine ⟨iff_of_false ?_ hp, fun _ => ⟨_, w, n, hfits hp, rfl⟩, fun halt s => Outcome.noConfusion⟩
    rintro ⟨rest, w', n', hnext⟩
    contradiction

namespace Code

/-- Only the depth of the raise could be too large to be written. -/
theorem fits_checked {d : Nat} (h : d + 1 < UInt32.size) {c : Code}
    (hc : c = checkedDiv d .done ∨ c = checkedRem d .done) : ∀ t ∈ c.tokens, t.Fits := by
  have hlocals : 0 < UInt32.size ∧ 1 < UInt32.size ∧ 2 < UInt32.size := by decide
  rcases hc with rfl | rfl <;>
    simp [checkedDiv, checkedRem, raiseIf, const32, const64, store, load, apply, tokens, Token.Fits,
      Plain.Fits, BlockType.HasByte, Symbols.standard, h, hlocals]

/-- Checked division and remainder inside `d` blocks of a rule. A generator there emits the instructions
of the code, and these are executed as the code if the depth can be written. The division raises an
exception exactly if the divisor is zero or the quotient does not fit, the remainder exactly if the
divisor is zero; a raise leaves the `d` blocks and that of the rule. Otherwise the operands are replaced
by the quotient or the remainder, truncated toward zero. Nothing halts, in particular not the machine's
division. -/
theorem checked_arithmetic (d : Nat) :
    (∀ g : Generator, g.AtDepth d →
      Generator.genDiv g = ((), g.extend (checkedDiv d .done).instrs) ∧
      Generator.genRem g = ((), g.extend (checkedRem d .done).instrs)) ∧
    (d + 1 < UInt32.size → (checkedDiv d .done).ExecutedAs (checkedDiv d .done).instrs ∧
      (checkedRem d .done).ExecutedAs (checkedRem d .done).instrs) ∧
    ∀ (e : Surroundings) (a b : Int64) (stack : List Value) (w : Int64) (n x : Int32)
      (scan : ScanState),
      let start : Frame := ⟨.i64 b :: .i64 a :: stack, scratch w n x, scan⟩
      let divided := (checkedDiv d .done).exec e start
      let reduced := (checkedRem d .done).exec e start
      (divided.Raises d scan ↔ b = 0 ∨ (a = Int64.minValue ∧ b = -1)) ∧
      (¬ (b = 0 ∨ (a = Int64.minValue ∧ b = -1)) →
        divided.Leaves stack x scan (a.toInt.tdiv b.toInt)) ∧
      (reduced.Raises d scan ↔ b = 0) ∧
      (b ≠ 0 → reduced.Leaves stack x scan (a.toInt.tmod b.toInt)) ∧
      (b = -1 → reduced.Leaves stack x scan 0) ∧
      (∀ halt s, divided ≠ .halt halt s ∧ reduced ≠ .halt halt s) ∧
      (∀ k, (checkedDiv d k).exec e start = divided.andThen (fun g => k.exec e g) ∧
        (checkedRem d k).exec e start = reduced.andThen (fun g => k.exec e g)) ∧
      ∀ o : Outcome, o.Raises d scan → ∀ (blocks : List OpenBlock) (rule : OpenBlock),
        blocks.length = d → rule.arity = 0 →
        ∃ w' n', o.within (blocks ++ [rule]) = rule.after ⟨rule.below, scratch w' n' 1, scan⟩ := by
  refine ⟨fun g hg => ⟨Generator.genDiv_apply hg, Generator.genRem_apply hg⟩,
    fun hd => ⟨executedAs_instrs (fits_checked hd (.inl rfl)),
      executedAs_instrs (fits_checked hd (.inr rfl))⟩, ?_⟩
  intro e a b stack w n x scan start divided reduced
  have hdiv := exec_checkedDiv e d .done a b stack w n x scan
  have hrem := exec_checkedRem e d .done a b stack w n x scan
  rw [ArithOp.eval] at hdiv
  rw [ArithOp.eval] at hrem
  obtain ⟨hdivided, hquotient, hdivides⟩ :=
    hdiv.raises_iff fun hnot => toInt_ofInt_tdiv (not_or.mp hnot).2
  obtain ⟨hreduced, hremainder, hreduces⟩ := hrem.raises_iff fun _ => toInt_ofInt_tmod a b
  refine ⟨hdivided, hquotient, hreduced, hremainder, ?_, fun halt s => ⟨hdivides halt s,
    hreduces halt s⟩, fun k => ⟨exec_append e (checkedDiv d .done) k start,
    exec_append e (checkedRem d .done) k start⟩, ?_⟩
  · rintro rfl
    have hzero : a.toInt.tmod (-1 : Int64).toInt = 0 :=
      (Int.tmod_neg a.toInt 1).trans (Int.tmod_one a.toInt)
    exact hzero ▸ hremainder (by decide)
  · rintro o hraises blocks rule rfl hvoid
    exact hraises.within_rule hvoid

/-- The least number in a branch of a condition: divided by one it is itself, divided by minus one it
raises, and the rule ends with the flag set. -/
theorem checked_arithmetic_least :
    let g : Generator := ⟨⟨#[], [.if_, .block], none⟩, "least", 1, []⟩
    let e : Surroundings := ⟨[], [], 0, fun _ _ scan => (.ok [], scan)⟩
    let scan := ScanState.new 1 none
    let start (b : Int64) : Frame := ⟨[.i64 b, .i64 Int64.minValue], scratch 7 1 0, scan⟩
    let branch : OpenBlock := ⟨1, [], .next⟩
    let rule : OpenBlock := ⟨0, [], .next⟩
    Generator.genDiv g = ((), g.extend (checkedDiv 1 .done).instrs) ∧
      (checkedDiv 1 .done).ExecutedAs (checkedDiv 1 .done).instrs ∧
      ((checkedDiv 1 .done).exec e (start 1)).Leaves [] 0 scan (-9223372036854775808) ∧
      ((checkedDiv 1 .done).exec e (start (-1))).Raises 1 scan ∧
      (∃ w n, ((checkedDiv 1 .done).exec e (start (-1))).within [branch, rule] =
        .next ⟨[], scratch w n 1, scan⟩) ∧
      ((checkedRem 1 .done).exec e (start (-1))).Leaves [] 0 scan 0 := by
  intro g e scan start branch rule
  obtain ⟨hgen, hexecuted, hruns⟩ := checked_arithmetic 1
  obtain ⟨_, hquotient, _⟩ := hruns e Int64.minValue 1 [] 7 1 0 scan
  obtain ⟨hraises, _, _, _, hremainder, _, _, hleaves⟩ := hruns e Int64.minValue (-1) [] 7 1 0 scan
  have hraised := hraises.mpr (.inr ⟨rfl, rfl⟩)
  exact ⟨(hgen g rfl).1, (hexecuted (by decide)).1, hquotient (by decide), hraised,
    hleaves _ hraised [branch] rule rfl rfl, hremainder rfl⟩

end Code

end RuleScan
