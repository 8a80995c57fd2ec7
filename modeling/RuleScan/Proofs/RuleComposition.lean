import RuleScan.Proofs.RuleAcceptance

/-!
# Rules are added one by one

The instructions of a rule depend on its number and its condition alone. They close exactly the blocks
that they open and branch to none but these, so they are the same wherever they stand, whatever blocks
are open there and whatever else is in the body. Adding rules in two steps is adding them in one.
-/
namespace RuleScan

/-! ### Branches -/

namespace Instr

/-- Where the given blocks are open, each branch goes to one of them or to one that was opened since. -/
def BranchesInside (opened : List Opener) (is : List Instr) : Prop :=
  ∀ before i after, is = before ++ i :: after → i.branches = true →
    ∃ d, i.immediate = some (.uint32 d) ∧ d.toNat < (nestAll opened before).length

theorem branchesInside_nil (opened : List Opener) : BranchesInside opened [] := by
  intro before i after h
  simp at h

theorem branchesInside_cons {opened : List Opener} {i : Instr} {is : List Instr}
    (hi : i.branches = true → ∃ d, i.immediate = some (.uint32 d) ∧ d.toNat < opened.length)
    (his : BranchesInside (nest opened i) is) : BranchesInside opened (i :: is) := by
  intro before j after heq
  cases before with
  | nil =>
    obtain ⟨rfl, _⟩ := List.cons.inj heq
    exact hi
  | cons first before =>
    obtain ⟨rfl, hrest⟩ := List.cons.inj heq
    exact his before j after hrest

theorem BranchesInside.append {opened : List Opener} {is js : List Instr}
    (hi : BranchesInside opened is) (hj : BranchesInside (nestAll opened is) js) :
    BranchesInside opened (is ++ js) := by
  induction is generalizing opened with
  | nil => exact hj
  | cons i is ih =>
    refine branchesInside_cons (hi [] i is rfl) (ih ?_ hj)
    intro before j after heq
    exact hi (i :: before) j after (by rw [heq, List.cons_append])

theorem branches_opening {o : Opcode} {t : UInt8} (h : o ≠ .br ∧ o ≠ .brIf) :
    (opening o t).branches = false := by
  simp [branches, opening, h.1, h.2]

end Instr

/-- A block with branches inside, followed by such code, is such code. -/
theorem Instr.BranchesInside.enclosed {opened : List Opener} {o : Opener} {i : Instr}
    {content rest : List Instr} (hi : i.branches = false) (hnest : nest opened i = o :: opened)
    (hlevel : nestAll (o :: opened) content = o :: opened)
    (hcontent : BranchesInside (o :: opened) content) (hrest : BranchesInside opened rest) :
    BranchesInside opened (i :: (content ++ .op .end_ :: rest)) := by
  refine branchesInside_cons (by simp [hi]) ?_
  rw [hnest]
  refine hcontent.append (branchesInside_cons (by simp [branches, op]) ?_)
  rw [hlevel, nest_end]
  exact hrest

/-- A plain instruction that is a branch has its depth as a 32-bit number. -/
theorem Plain.depth_of_branches {p : Plain} (h : p.instr.branches = true) :
    ∃ d, (p = .br d ∨ p = .brIf d) ∧ p.instr.immediate = some (.uint32 (UInt32.ofNat d)) := by
  cases p with
  | br d => exact ⟨d, .inl rfl, rfl⟩
  | brIf d => exact ⟨d, .inr rfl, rfl⟩
  | _ => simp [Plain.instr, Instr.branches, Instr.op, Instr.indexed, Instr.i32Const, Instr.i64Const] at h

namespace Code

/-- The branches of valid code go to labels of its scope: to as many blocks around it as it has labels
for, or to blocks of its own. -/
theorem branchesInside_instrs {code : Code} {c : Scope} {s s' : StackShape} {opened : List Opener}
    (h : code.check c s = some s') (hlabels : c.labels.length ≤ opened.length) :
    Instr.BranchesInside opened code.instrs := by
  induction code generalizing c s s' opened with
  | done => exact Instr.branchesInside_nil opened
  | plain p k ih =>
    obtain ⟨mid, hp, hk⟩ := check_plain h
    rw [instrs_plain]
    refine Instr.branchesInside_cons ?_ ?_
    · intro hbranch
      obtain ⟨d, hd, himmediate⟩ := Plain.depth_of_branches hbranch
      have hlt := Plain.check_branch hp hd
      have hle : (UInt32.ofNat d).toNat ≤ d := by
        rw [UInt32.toNat_ofNat']
        exact Nat.mod_le _ _
      exact ⟨_, himmediate, by omega⟩
    · rw [Instr.nest_plain]
      exact ih hk hlabels
  | block t b k ihb ihk =>
    obtain ⟨type, below, last, _, _, hbody, _, hk⟩ := check_block h
    rw [instrs_block]
    exact .enclosed (Instr.branches_opening (by simp)) (Instr.nest_block _ _) (nestAll_instrs b _)
      (ihb hbody (Nat.succ_le_succ hlabels)) (ihk hk hlabels)
  | loop t b k ihb ihk =>
    obtain ⟨type, below, last, _, _, hbody, _, hk⟩ := check_loop h
    rw [instrs_loop]
    exact .enclosed (Instr.branches_opening (by simp)) (Instr.nest_loop _ _) (nestAll_instrs b _)
      (ihb hbody (Nat.succ_le_succ hlabels)) (ihk hk hlabels)
  | ifThen t b k ihb ihk =>
    obtain ⟨type, popped, below, last, _, _, _, hbody, _, _, hk⟩ := check_ifThen h
    rw [instrs_ifThen]
    exact .enclosed (Instr.branches_opening (by simp)) (Instr.nest_if _ _) (nestAll_instrs b _)
      (ihb hbody (Nat.succ_le_succ hlabels)) (ihk hk hlabels)
  | ifElse t b e k ihb ihe ihk =>
    obtain ⟨type, popped, below, last, last', _, _, _, hbody, _, hother, _, hk⟩ := check_ifElse h
    have hinside : c.labels.length + 1 ≤ (Opener.if_ :: opened).length := Nat.succ_le_succ hlabels
    have helse : Instr.BranchesInside (.if_ :: opened) (.op .else_ :: e.instrs) := by
      refine Instr.branchesInside_cons (by simp [Instr.branches, Instr.op]) ?_
      rw [Instr.nest_else]
      exact ihe hother hinside
    have hlevel : Instr.nestAll (.if_ :: opened) (b.instrs ++ .op .else_ :: e.instrs) =
        .if_ :: opened := by
      rw [Instr.nestAll_append, nestAll_instrs, Instr.nestAll_cons, Instr.nest_else, nestAll_instrs]
    have hcontent : Instr.BranchesInside (.if_ :: opened) (b.instrs ++ .op .else_ :: e.instrs) := by
      refine (ihb hbody hinside).append ?_
      rw [nestAll_instrs]
      exact helse
    have hsplit : (ifElse t b e k).instrs = .opening .if_ t.byte ::
        ((b.instrs ++ .op .else_ :: e.instrs) ++ .op .end_ :: k.instrs) := by
      rw [instrs_ifElse, List.append_assoc, List.cons_append]
    rw [hsplit]
    exact .enclosed (Instr.branches_opening (by simp)) (Instr.nest_if _ _) hlevel hcontent
      (ihk hk hlabels)

end Code

/-! ### Rules -/

/-- The instructions of a rule that has the given number and condition, whatever its name. -/
def Rule.instrsOf (id : RuleId) (c : Condition) : List Instr := Rule.program ⟨id, "", c⟩

/-- The instructions of a rule are a world of their own: they fit where nothing is open, leave nothing
open, and branch to their own blocks only. -/
theorem Rule.instrsOf_selfContained (id : RuleId) {c : Condition} (h : HasType c .bool) :
    Instr.AllFit (Rule.instrsOf id c) ∧ Instr.openBlocks (Rule.instrsOf id c) = [] ∧
      Instr.BranchesInside [] (Rule.instrsOf id c) := by
  have hinstrs : Rule.instrsOf id c = (Rule.code ⟨id, "", c⟩ .done).instrs := rfl
  have hcheck := Rule.check_code (r := ⟨id, "", c⟩) h mainScope_serves .done ⟨[], false⟩
  have hemit : Body.empty.emitAll (Rule.instrsOf id c) = Body.empty.extend (Rule.instrsOf id c) :=
    Code.appends_instrs hcheck (Nat.zero_le _)
  refine ⟨?_, ?_, ?_⟩
  · rw [← Body.misuse_eq_none_iff, hemit]
    rfl
  · rw [hinstrs]
    exact Code.nestAll_instrs _ []
  · rw [hinstrs]
    exact Code.branchesInside_instrs hcheck (Nat.zero_le _)

namespace Builder

theorem addRules_append {b : Builder} (h : b.phase = .drafting) (rules more : List Rule) :
    b.addRules (rules ++ more) = do
      let first ← b.addRules rules
      let second ← first.1.addRules more
      return (second.1, first.2 ++ second.2) := by
  have hnext : ({ b with body := b.body.extend (rules.flatMap Rule.emission) } : Builder).phase =
      .drafting := h
  simp only [addRules_emission h, addRules_emission hnext, ok_bind, List.flatMap_append,
    ← Body.extend_extend]
  rfl

/-- Rules are added independently of their surroundings. There are instructions for each number and
condition such that adding rules to any builder that is not used up, whatever blocks are open in it and
whatever misuse it has noted, appends those of the accepted rules in order and does nothing else to
the builder, and the errors do not depend on it either. The instructions of a rule close the blocks that
they open, and every branch among them goes to one of these. A pass that reads the depth of each raise
off the body does the same, and so does adding the rules in two steps. -/
theorem addRules_position_independent :
    ∃ (code : RuleId → Condition → List Instr) (reported : Rule → List RuleError),
      (∀ (b : Builder) (rules : List Rule), b.phase = .drafting →
        b.addRules rules = .ok ({ b with body := { b.body with
          program := b.body.program ++
            (rules.flatMap fun r => if r.Accepted then code r.id r.condition else []).toArray } },
          rules.flatMap reported) ∧
        b.generate rules = b.addRules rules ∧
        ∀ more, b.addRules (rules ++ more) = do
          let first ← b.addRules rules
          let second ← first.1.addRules more
          return (second.1, first.2 ++ second.2)) ∧
      ∀ (id : RuleId) (c : Condition), HasType c .bool →
        Instr.AllFit (code id c) ∧ Instr.openBlocks (code id c) = [] ∧
        ∀ before i after, code id c = before ++ i :: after → i.branches = true →
          ∃ d, i.immediate = some (.uint32 d) ∧ d.toNat < (Instr.openBlocks before).length := by
  refine ⟨Rule.instrsOf, Rule.errors, ?_, fun id c => Rule.instrsOf_selfContained id⟩
  intro b rules hphase
  exact ⟨addRules_emission hphase rules, generate_eq b rules, addRules_append hphase rules⟩

/-- A division in a body that has an open loop and has noted a misuse. The loop stays open and the misuse
stays noted. -/
theorem addRules_afterMisuse :
    let b : Builder := { new with body := Body.empty.emitAll [.op .end_, .opening .loop 0x40] }
    let r : Rule := ⟨3, "r", .compare .eq (.arith .div (.int 6) (.int 2)) (.int 3)⟩
    b.body.misuse = some (0, .strayEnd) ∧ b.body.depth = 1 ∧
      ∃ c is, b.addRules [r] = .ok (c, []) ∧ c.body.misuse = some (0, .strayEnd) ∧ c.body.depth = 1 ∧
        c.body.program.toList = .opening .loop 0x40 :: is ∧ Instr.BranchesInside [] is := by
  intro b r
  obtain ⟨code, reported, hadd, hcode⟩ := addRules_position_independent
  have htype : HasType r.condition .bool :=
    .compareInt (by simp) (.arith (by simp) (.int 6) (.int 2)) (.int 3)
  have haccepted : r.Accepted := ⟨by decide, htype⟩
  obtain ⟨hrules, _, _⟩ := hadd b [r] rfl
  have hreported : reported r = [] := by
    have hsame := hrules.symm.trans (addRules_emission rfl [r])
    have herrors := (Prod.mk.inj (Except.ok.inj hsame)).2
    rw [List.flatMap_singleton, List.flatMap_singleton] at herrors
    exact herrors.trans (Rule.emission_of_accepted haccepted).2
  rw [List.flatMap_singleton, List.flatMap_singleton, if_pos haccepted, hreported] at hrules
  exact ⟨rfl, rfl, _, _, hrules, rfl, rfl, Array.toList_append, (hcode r.id r.condition htype).2.2⟩

end Builder

end RuleScan
