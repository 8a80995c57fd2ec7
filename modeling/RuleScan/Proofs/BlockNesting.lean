import Mathlib.Data.List.Induction
import RuleScan.Module.Body
import RuleScan.Proofs.ValidCode

/-!
# Open blocks and their misuse

Which blocks are open after some instructions follows from the operations of the instructions alone:
a block, loop or conditional opens one, whatever its immediate, and an `end` closes the innermost one.
A body keeps exactly this account as long as every instruction fits the blocks that are open before
it, and otherwise notes the first instruction that does not.
-/
namespace RuleScan

namespace Instr

/-- The block that an instruction opens, whatever its immediate. -/
def opener? (i : Instr) : Option Opener :=
  match Opcode.ofByte? i.opcode with
  | some .block => some .block
  | some .loop => some .loop
  | some .if_ => some .if_
  | _ => none

def opens (i : Instr) : Bool := i.opener?.isSome

def closes (i : Instr) : Bool := Opcode.ofByte? i.opcode = some .end_

/-- The blocks that are open after an instruction, the innermost first. -/
def nest (opened : List Opener) (i : Instr) : List Opener :=
  match i.opener? with
  | some o => o :: opened
  | none => if i.closes then opened.tail else opened

def nestAll (opened : List Opener) (is : List Instr) : List Opener := is.foldl nest opened

/-- The blocks that instructions leave open, the innermost first. -/
def openBlocks (is : List Instr) : List Opener := nestAll [] is

def branches (i : Instr) : Bool :=
  Opcode.ofByte? i.opcode = some .br ∨ Opcode.ofByte? i.opcode = some .brIf

theorem closes_iff {i : Instr} : i.closes = true ↔ Opcode.ofByte? i.opcode = some .end_ :=
  decide_eq_true_iff

theorem branches_iff {i : Instr} : i.branches = true ↔
    Opcode.ofByte? i.opcode = some .br ∨ Opcode.ofByte? i.opcode = some .brIf := decide_eq_true_iff

/-- How an instruction can fail to fit the blocks that are open before it. A branch may leave as many
blocks as are open, and then leaves the function. -/
inductive Misuses (opened : List Opener) (i : Instr) : Misuse → Prop where
  | strayEnd : i.closes = true → opened = [] → Misuses opened i .strayEnd
  | strayElse : Opcode.ofByte? i.opcode = some .else_ → opened.head? ≠ some .if_ →
      Misuses opened i .strayElse
  | branchTooDeep {d : UInt32} : i.branches = true → i.immediate = some (.uint32 d) →
      opened.length < d.toNat → Misuses opened i (.branchTooDeep d opened.length)

/-- Every instruction fits the blocks that are open before it. -/
def AllFit (is : List Instr) : Prop :=
  ∀ before i after, is = before ++ i :: after → ∀ m, ¬ i.Misuses (openBlocks before) m

/-- The first instruction that does not fit has `n` instructions before it. -/
def FirstMisuse (is : List Instr) (n : Nat) (m : Misuse) : Prop :=
  ∃ before i after, is = before ++ i :: after ∧ AllFit before ∧ i.Misuses (openBlocks before) m ∧
    n = before.length

theorem nestAll_append (opened : List Opener) (is js : List Instr) :
    nestAll opened (is ++ js) = nestAll (nestAll opened is) js := List.foldl_append

theorem openBlocks_concat (is : List Instr) (i : Instr) :
    openBlocks (is ++ [i]) = nest (openBlocks is) i := nestAll_append [] is [i]

theorem allFit_nil : AllFit [] := by
  intro before i after h
  simp at h

theorem AllFit.of_append {is js : List Instr} (h : AllFit (is ++ js)) : AllFit is := by
  intro before i after heq
  exact h before i (after ++ js) (by rw [heq, List.append_assoc, List.cons_append])

theorem allFit_concat {is : List Instr} {i : Instr} :
    AllFit (is ++ [i]) ↔ AllFit is ∧ ∀ m, ¬ i.Misuses (openBlocks is) m := by
  constructor
  · intro h
    exact ⟨h.of_append, h is i [] rfl⟩
  · rintro ⟨his, hi⟩ before j after heq
    -- the instruction is the last one, or stands among those before
    rcases List.eq_nil_or_concat after with rfl | ⟨init, last, rfl⟩
    · obtain ⟨rfl, hlast⟩ := List.append_inj' heq rfl
      obtain rfl := List.head_eq_of_cons_eq hlast
      exact hi
    · have hsplit : is ++ [i] = (before ++ j :: init) ++ [last] := by
        rw [heq, List.concat_eq_append, List.append_assoc, List.cons_append]
      exact his before j init (List.append_inj' hsplit rfl).1

/-- Instructions that do not all fit have a first one that does not. -/
theorem allFit_or_firstMisuse (is : List Instr) : AllFit is ∨ ∃ n m, FirstMisuse is n m := by
  induction is using List.reverseRecOn with
  | nil => exact .inl allFit_nil
  | append_singleton is i ih =>
    rcases ih with hfit | ⟨n, m, before, j, after, rfl, hbefore, hm, hn⟩
    · by_cases hi : ∃ m, i.Misuses (openBlocks is) m
      · obtain ⟨m, hm⟩ := hi
        exact .inr ⟨is.length, m, is, i, [], rfl, hfit, hm, rfl⟩
      · exact .inl (allFit_concat.mpr ⟨hfit, not_exists.mp hi⟩)
    · exact .inr ⟨n, m, before, j, after ++ [i], by simp, hbefore, hm, hn⟩

/-! ### Counting -/

/-- An instruction that opens a block closes none. -/
theorem closes_of_opens {i : Instr} (h : i.opens = true) : i.closes = false := by
  unfold opens opener? at h
  unfold closes
  split at h <;> simp_all

theorem length_nest {opened : List Opener} {i : Instr} (h : i.closes = true → opened ≠ []) :
    (nest opened i).length + i.closes.toNat = opened.length + i.opens.toNat := by
  cases hopener : i.opener? with
  | some o =>
    have hopens : i.opens = true := by rw [opens, hopener]; rfl
    have hcloses := closes_of_opens hopens
    simp [nest, hopener, hopens, hcloses]
  | none =>
    have hopens : i.opens = false := by rw [opens, hopener]; rfl
    cases hcloses : i.closes with
    | false => simp [nest, hopener, hopens, hcloses]
    | true =>
      have hpos := List.length_pos_iff.mpr (h hcloses)
      simp only [nest, hopener, hopens, hcloses, if_true, List.length_tail, Bool.toNat_true,
        Bool.toNat_false]
      omega

/-- What fits has as many blocks open as it opens more than it closes. -/
theorem AllFit.length_openBlocks {is : List Instr} (h : AllFit is) :
    (openBlocks is).length + is.countP closes = is.countP opens := by
  induction is using List.reverseRecOn with
  | nil => rfl
  | append_singleton is i ih =>
    obtain ⟨his, hi⟩ := allFit_concat.mp h
    have hlength := ih his
    have hclosing : i.closes = true → openBlocks is ≠ [] :=
      fun hcloses hempty => hi _ (.strayEnd hcloses hempty)
    have hstep := length_nest hclosing
    have hcount (p : Instr → Bool) : (is ++ [i]).countP p = is.countP p + (p i).toNat := by
      rw [List.countP_append, List.countP_singleton]
      cases p i <;> rfl
    rw [openBlocks_concat, hcount, hcount]
    omega

end Instr

/-! ### What a body keeps -/

namespace Body

theorem misuse_note_of_none {b : Body} (h : b.misuse = none) (m : Misuse) :
    (b.note m).misuse = some (b.size, m) := by simp [note, h]

theorem misuse_note_of_some {b : Body} {first : Nat × Misuse} (h : b.misuse = some first)
    (m : Misuse) : (b.note m).misuse = some first := by simp [note, h]

/-- An instruction that does not fit is noted. -/
theorem misuse_emit {b : Body} {i : Instr} {m : Misuse} (h : i.Misuses b.opened m) :
    (b.emit i).misuse = (b.note m).misuse := by
  cases h with
  | strayEnd hcloses hopened =>
    simp [emit, Instr.closes_iff.mp hcloses, hopened]
  | strayElse hop hopened =>
    simp only [emit, hop]
    split
    · exact absurd (by simp [*]) hopened
    · rfl
  | @branchTooDeep d hbranch himmediate hdeep =>
    have hbranched : (b.branch i).misuse = (b.note (.branchTooDeep d b.opened.length)).misuse := by
      have hpos : b.depth < d.toNat := hdeep
      simp only [branch, himmediate, if_pos hpos]
      rfl
    rcases Instr.branches_iff.mp hbranch with hop | hop <;> simpa only [emit, hop] using hbranched

/-- An instruction that fits is appended, and the blocks are accounted for. -/
theorem emit_of_fits {b : Body} {i : Instr} (h : ∀ m, ¬ i.Misuses b.opened m) :
    b.emit i = { b with program := b.program.push i, opened := i.nest b.opened } := by
  have hbranched (hbranch : i.branches = true) : b.branch i = b.push i := by
    unfold branch
    split
    · rename_i d himmediate
      exact if_neg fun hdeep => h _ (.branchTooDeep hbranch himmediate hdeep)
    · rfl
  unfold emit
  split
  case h_1 hop => simp [enter, Instr.nest, Instr.opener?, hop]
  case h_2 hop => simp [enter, Instr.nest, Instr.opener?, hop]
  case h_3 hop => simp [enter, Instr.nest, Instr.opener?, hop]
  case h_4 hop =>
    have hnest : i.nest b.opened = b.opened := by
      simp [Instr.nest, Instr.opener?, Instr.closes, hop]
    have hif : b.opened.head? = some .if_ := Decidable.not_not.mp fun hno => h _ (.strayElse hop hno)
    obtain ⟨outer, hopened⟩ := List.head?_eq_some_iff.mp hif
    rw [hnest, hopened]
    simp [push, hopened]
  case h_5 hop =>
    have hcloses := Instr.closes_iff.mpr hop
    have hne : b.opened ≠ [] := fun hempty => h _ (.strayEnd hcloses hempty)
    obtain ⟨o, outer, hopened⟩ := List.exists_cons_of_ne_nil hne
    simp [Instr.nest, Instr.opener?, hop, hcloses, hopened]
  case h_6 hop =>
    rw [hbranched (Instr.branches_iff.mpr (.inl hop))]
    simp [push, Instr.nest, Instr.opener?, Instr.closes, hop]
  case h_7 hop =>
    rw [hbranched (Instr.branches_iff.mpr (.inr hop))]
    simp [push, Instr.nest, Instr.opener?, Instr.closes, hop]
  case h_8 hblock hloop hif helse hend hbr hbrIf =>
    have hcloses : i.closes = false := decide_eq_false hend
    have hnest : i.nest b.opened = b.opened := by simp [Instr.nest, Instr.opener?, *]
    rw [hnest]
    rfl

/-- The blocks are accounted for in any case: an instruction that does not fit leaves them as they
are, and an `end` with nothing open has none to close. -/
theorem opened_emit (b : Body) (i : Instr) : (b.emit i).opened = i.nest b.opened := by
  by_cases hi : ∃ m, i.Misuses b.opened m
  · obtain ⟨m, hm⟩ := hi
    cases hm with
    | strayEnd hcloses hopened =>
      have hop := Instr.closes_iff.mp hcloses
      simp [emit, hop, hopened, note, Instr.nest, Instr.opener?]
    | strayElse hop hopened =>
      have hnest : i.nest b.opened = b.opened := by
        simp [Instr.nest, Instr.opener?, Instr.closes, hop]
      simp only [emit, hop, hnest]
      split <;> rfl
    | branchTooDeep hbranch =>
      have hbranched : (b.branch i).opened = b.opened := by
        unfold branch
        split
        · split <;> rfl
        · rfl
      rcases Instr.branches_iff.mp hbranch with hop | hop <;>
        simp [emit, hop, hbranched, Instr.nest, Instr.opener?, Instr.closes]
  · rw [emit_of_fits (not_exists.mp hi)]

theorem opened_emitAll (b : Body) (is : List Instr) :
    (b.emitAll is).opened = Instr.nestAll b.opened is := by
  induction is generalizing b with
  | nil => rfl
  | cons i is ih => rw [emitAll_cons, ih, opened_emit]; rfl

theorem misuse_emit_of_some {b : Body} {first : Nat × Misuse} (h : b.misuse = some first)
    (i : Instr) : (b.emit i).misuse = some first := by
  by_cases hi : ∃ m, i.Misuses b.opened m
  · obtain ⟨m, hm⟩ := hi
    rw [misuse_emit hm, misuse_note_of_some h]
  · rw [emit_of_fits (not_exists.mp hi)]
    exact h

/-- The first misuse stays, whatever is emitted afterwards. -/
theorem misuse_emitAll_of_some {b : Body} {first : Nat × Misuse} (h : b.misuse = some first)
    (is : List Instr) : (b.emitAll is).misuse = some first := by
  induction is generalizing b with
  | nil => exact h
  | cons i is ih => exact ih (misuse_emit_of_some h i)

/-- Instructions that fit are all there, and the open blocks are those that they leave open. -/
theorem emitAll_of_allFit {is : List Instr} (h : Instr.AllFit is) :
    empty.emitAll is = ⟨is.toArray, Instr.openBlocks is, none⟩ := by
  induction is using List.reverseRecOn with
  | nil => rfl
  | append_singleton is i ih =>
    obtain ⟨his, hi⟩ := Instr.allFit_concat.mp h
    have hlast (b : Body) : b.emitAll [i] = b.emit i := rfl
    rw [emitAll_append, ih his, hlast, emit_of_fits hi, Instr.openBlocks_concat]
    simp

theorem misuse_of_firstMisuse {is : List Instr} {n : Nat} {m : Misuse}
    (h : Instr.FirstMisuse is n m) : (empty.emitAll is).misuse = some (n, m) := by
  obtain ⟨before, i, after, rfl, hfit, hm, rfl⟩ := h
  rw [emitAll_append, emitAll_of_allFit hfit, emitAll_cons]
  refine misuse_emitAll_of_some ?_ after
  rw [misuse_emit hm, misuse_note_of_none rfl]
  rfl

theorem misuse_eq_none_iff {is : List Instr} :
    (empty.emitAll is).misuse = none ↔ Instr.AllFit is := by
  constructor
  · intro h
    rcases Instr.allFit_or_firstMisuse is with hfit | ⟨n, m, hfirst⟩
    · exact hfit
    · rw [misuse_of_firstMisuse hfirst] at h
      contradiction
  · intro h
    rw [emitAll_of_allFit h]

end Body

/-! ### Structured code -/

namespace Instr

variable (opened : List Opener)

theorem nestAll_cons (i : Instr) (is : List Instr) :
    nestAll opened (i :: is) = nestAll (nest opened i) is := rfl

@[simp] theorem nest_plain (p : Plain) : nest opened p.instr = opened := by
  cases p <;> simp [Plain.instr, nest, opener?, closes, op, indexed, i32Const, i64Const]

@[simp] theorem nest_block (t : UInt8) : nest opened (.opening .block t) = .block :: opened := by
  simp [nest, opener?, opening]

@[simp] theorem nest_loop (t : UInt8) : nest opened (.opening .loop t) = .loop :: opened := by
  simp [nest, opener?, opening]

@[simp] theorem nest_if (t : UInt8) : nest opened (.opening .if_ t) = .if_ :: opened := by
  simp [nest, opener?, opening]

@[simp] theorem nest_else : nest opened (.op .else_) = opened := by
  simp [nest, opener?, closes, op]

@[simp] theorem nest_end : nest opened (.op .end_) = opened.tail := by
  simp [nest, opener?, closes, op]

end Instr

namespace Code

variable (t : BlockType) (b e k : Code)

theorem instrs_plain (p : Plain) : (plain p k).instrs = p.instr :: k.instrs := rfl

theorem instrs_block : (block t b k).instrs =
    .opening .block t.byte :: (b.instrs ++ .op .end_ :: k.instrs) := by
  simp [instrs, tokens, Token.instr]

theorem instrs_loop : (loop t b k).instrs =
    .opening .loop t.byte :: (b.instrs ++ .op .end_ :: k.instrs) := by
  simp [instrs, tokens, Token.instr]

theorem instrs_ifThen : (ifThen t b k).instrs =
    .opening .if_ t.byte :: (b.instrs ++ .op .end_ :: k.instrs) := by
  simp [instrs, tokens, Token.instr]

theorem instrs_ifElse : (ifElse t b e k).instrs =
    .opening .if_ t.byte :: (b.instrs ++ .op .else_ :: (e.instrs ++ .op .end_ :: k.instrs)) := by
  simp [instrs, tokens, Token.instr]

/-- Structured code closes the blocks that it opens, and no others. -/
theorem nestAll_instrs (code : Code) (opened : List Opener) :
    Instr.nestAll opened code.instrs = opened := by
  induction code generalizing opened with
  | done => rfl
  | plain p k ih => rw [instrs_plain, Instr.nestAll_cons, Instr.nest_plain, ih]
  | block t b k ihb ihk =>
    rw [instrs_block, Instr.nestAll_cons, Instr.nest_block, Instr.nestAll_append, ihb,
      Instr.nestAll_cons, Instr.nest_end, ihk, List.tail_cons]
  | loop t b k ihb ihk =>
    rw [instrs_loop, Instr.nestAll_cons, Instr.nest_loop, Instr.nestAll_append, ihb,
      Instr.nestAll_cons, Instr.nest_end, ihk, List.tail_cons]
  | ifThen t b k ihb ihk =>
    rw [instrs_ifThen, Instr.nestAll_cons, Instr.nest_if, Instr.nestAll_append, ihb,
      Instr.nestAll_cons, Instr.nest_end, ihk, List.tail_cons]
  | ifElse t b e k ihb ihe ihk =>
    rw [instrs_ifElse, Instr.nestAll_cons, Instr.nest_if, Instr.nestAll_append, ihb,
      Instr.nestAll_cons, Instr.nest_else, Instr.nestAll_append, ihe, Instr.nestAll_cons,
      Instr.nest_end, ihk, List.tail_cons]

end Code

end RuleScan
