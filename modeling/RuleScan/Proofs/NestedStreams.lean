import RuleScan.Proofs.ControlGrammar

/-!
# Streams of tokens and the grammar

A stream of tokens that nests is that of the code it nests as. The grammar of blocks is about
instructions, and the instruction of a token is plain, opens, divides or closes a block as the token
does; so a stream nests exactly if its instructions are a sentence.
-/
namespace RuleScan

/-! ### Streams that nest -/

namespace Code

/-- How a block ends, with an alternative or without. -/
def closing : Option Code → List Token
  | none => [.end_]
  | some e => .else_ :: (e.tokens ++ [.end_])

/-- The tokens from a place inside a pending block to its `end`. -/
def Pending.tokens (p : Pending) : List Token := p.code.tokens ++ closing p.alternative

theorem flatMap_tokens_prepend {t : Token} {ps qs : List Pending} (h : prepend t ps = some qs) :
    qs.flatMap Pending.tokens = t :: ps.flatMap Pending.tokens := by
  unfold prepend at h
  split at h
  case h_8 => contradiction
  all_goals
    obtain rfl := Option.some.inj h
    simp [Pending.tokens, closing, tokens]

/-- The stream that was taken apart is what the pending blocks stand for. -/
theorem flatMap_tokens_foldrM {ts : List Token} {ps : List Pending}
    (h : ts.foldrM prepend [] = some ps) : ps.flatMap Pending.tokens = ts := by
  induction ts generalizing ps with
  | nil =>
    obtain rfl := Option.some.inj h
    rfl
  | cons t ts ih =>
    rw [List.foldrM_cons] at h
    obtain ⟨qs, hqs, hprepend⟩ := Option.bind_eq_some_iff.mp h
    rw [flatMap_tokens_prepend hprepend, ih hqs]

/-- A stream that nests is that of the code it nests as. -/
theorem eq_tokens_of_ofTokens? {ts : List Token} {c : Code} (h : ofTokens? ts = some c) :
    ts = c.tokens ++ [.end_] := by
  unfold ofTokens? at h
  split at h
  · rename_i c' hfold
    obtain rfl := Option.some.inj h
    rw [← flatMap_tokens_foldrM hfold]
    simp [Pending.tokens, closing]
  · contradiction

end Code

/-! ### Tokens and the grammar -/

namespace Token

theorem isPlain_instr (p : Plain) : p.instr.isPlain = true := by
  cases p <;>
    simp [Plain.instr, Instr.isPlain, Instr.opens, Instr.opener?, Instr.alternates, Instr.closes,
      Instr.op, Instr.indexed, Instr.i32Const, Instr.i64Const]

theorem closes_end : end_.instr.closes = true := by simp [instr, Instr.closes, Instr.op]

variable {t : Token}

theorem eq_plain (h : t.instr.isPlain = true) : ∃ p, t = .plain p := by
  cases t with
  | plain p => exact ⟨p, rfl⟩
  | _ =>
    simp [instr, Instr.isPlain, Instr.opens, Instr.opener?, Instr.alternates, Instr.closes,
      Instr.op, Instr.opening] at h

theorem eq_end (h : t.instr.closes = true) : t = .end_ := by
  cases t with
  | plain p =>
    rw [instr, (Instr.isPlain_iff.mp (isPlain_instr p)).2.2] at h
    contradiction
  | end_ => rfl
  | _ => simp [instr, Instr.closes, Instr.op, Instr.opening] at h

theorem eq_else (h : t.instr.alternates = true) : t = .else_ := by
  cases t with
  | plain p =>
    rw [instr, (Instr.isPlain_iff.mp (isPlain_instr p)).2.1] at h
    contradiction
  | else_ => rfl
  | _ => simp [instr, Instr.alternates, Instr.op, Instr.opening] at h

/-- What opens a block opens it as a block, a loop or a conditional. -/
theorem opening_cases {o : Opener} (h : t.instr.opener? = some o) :
    (o = .block ∧ ∃ type, t = .block type) ∨ (o = .loop ∧ ∃ type, t = .loop type) ∨
      (o = .if_ ∧ ∃ type, t = .if_ type) := by
  cases t with
  | plain p =>
    have hplain : (plain p).instr.opens = false := (Instr.isPlain_iff.mp (isPlain_instr p)).1
    rw [Instr.opens_of_opener? h] at hplain
    contradiction
  | _ => simp_all [instr, Instr.opener?, Instr.op, Instr.opening]

end Token

namespace Code

theorem structured_instrs (code : Code) : Instr.Structured code.instrs := by
  induction code with
  | done => exact .nil
  | plain p k ih => exact .plain (Token.isPlain_instr p) ih
  | block t b k ihb ihk =>
    rw [instrs_block]
    exact .block (by simp [Instr.opens, Instr.opener?, Instr.opening]) ihb Token.closes_end ihk
  | loop t b k ihb ihk =>
    rw [instrs_loop]
    exact .block (by simp [Instr.opens, Instr.opener?, Instr.opening]) ihb Token.closes_end ihk
  | ifThen t b k ihb ihk =>
    rw [instrs_ifThen]
    exact .block (by simp [Instr.opens, Instr.opener?, Instr.opening]) ihb Token.closes_end ihk
  | ifElse t b e k ihb ihe ihk =>
    rw [instrs_ifElse]
    exact .ifElse (by simp [Instr.opener?, Instr.opening]) ihb
      (by simp [Instr.alternates, Instr.op]) ihe Token.closes_end ihk

theorem map_instr_split {ts : List Token} {front back : List Instr} {i : Instr}
    (h : ts.map Token.instr = front ++ i :: back) :
    ∃ fs t bs, ts = fs ++ t :: bs ∧ fs.map Token.instr = front ∧ t.instr = i ∧
      bs.map Token.instr = back := by
  obtain ⟨fs, tail, rfl, hfront, htail⟩ := List.map_eq_append_iff.mp h
  obtain ⟨t, bs, rfl, ht, hback⟩ := List.map_eq_cons_iff.mp htail
  exact ⟨fs, t, bs, rfl, hfront, ht, hback⟩

/-- Tokens whose instructions are a sentence are those of structured code. -/
theorem exists_of_structured {is : List Instr} (h : Instr.Structured is) {ts : List Token}
    (hts : ts.map Token.instr = is) : ∃ code : Code, code.tokens = ts := by
  induction h generalizing ts with
  | nil => exact ⟨.done, (List.map_eq_nil_iff.mp hts).symm⟩
  | plain hplain _ ih =>
    obtain ⟨t, rest, rfl, rfl, hrest⟩ := List.map_eq_cons_iff.mp hts
    obtain ⟨p, rfl⟩ := Token.eq_plain hplain
    obtain ⟨k, rfl⟩ := ih hrest
    exact ⟨.plain p k, rfl⟩
  | block hopens _ hcloses _ ihbody ihrest =>
    obtain ⟨t, inner, rfl, rfl, hinner⟩ := List.map_eq_cons_iff.mp hts
    obtain ⟨bs, last, ks, rfl, hbody, rfl, hrest⟩ := map_instr_split hinner
    obtain ⟨b, rfl⟩ := ihbody hbody
    obtain ⟨k, rfl⟩ := ihrest hrest
    obtain rfl := Token.eq_end hcloses
    obtain ⟨o, hopener⟩ := Option.isSome_iff_exists.mp hopens
    rcases Token.opening_cases hopener with ⟨_, type, rfl⟩ | ⟨_, type, rfl⟩ | ⟨_, type, rfl⟩
    · exact ⟨.block type b k, rfl⟩
    · exact ⟨.loop type b k, rfl⟩
    · exact ⟨.ifThen type b k, rfl⟩
  | ifElse hopener _ hmiddle _ hcloses _ ihbody ihother ihrest =>
    obtain ⟨t, inner, rfl, rfl, hinner⟩ := List.map_eq_cons_iff.mp hts
    obtain ⟨bs, middle, tail, rfl, hbody, rfl, htail⟩ := map_instr_split hinner
    obtain ⟨es, last, ks, rfl, hother, rfl, hrest⟩ := map_instr_split htail
    obtain ⟨b, rfl⟩ := ihbody hbody
    obtain ⟨e, rfl⟩ := ihother hother
    obtain ⟨k, rfl⟩ := ihrest hrest
    obtain rfl := Token.eq_end hcloses
    obtain rfl := Token.eq_else hmiddle
    rcases Token.opening_cases hopener with ⟨ho, _⟩ | ⟨ho, _⟩ | ⟨_, type, rfl⟩
    · contradiction
    · contradiction
    · exact ⟨.ifElse type b e k, rfl⟩

/-- A stream nests exactly if its instructions are a sentence of the grammar. -/
theorem nests_iff {ts : List Token} : (∃ code, ofTokens? (ts ++ [.end_]) = some code) ↔
    Instr.Structured (ts.map Token.instr) := by
  constructor
  · rintro ⟨code, hcode⟩
    rw [List.append_cancel_right (eq_tokens_of_ofTokens? hcode)]
    exact code.structured_instrs
  · intro h
    obtain ⟨code, rfl⟩ := exists_of_structured h rfl
    exact ⟨code, ofTokens?_tokens code⟩

end Code

end RuleScan
