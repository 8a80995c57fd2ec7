import RuleScan.Machine.Validation
import RuleScan.Module.Body
import RuleScan.Proofs.InstructionStream

/-!
# What validation says about code

Operands that are put on the stack can be taken again. One inversion lemma for each form of code
says what a successful check has found. From them it follows that valid code can be emitted without
misuse, whatever blocks are open around it, and that its tokens can be read back from their bytes as
long as there are fewer than `2 ^ 32` of them.
-/
namespace RuleScan

/-! ### Operands -/

namespace StackShape

@[simp] theorem pop_push (s : StackShape) (t : ValType) : (s.push t).pop t = some s := by
  simp only [push, pushAny, pop, popAny, Option.bind_eq_bind, Option.bind_some, or_true,
    (Option.guard_eq_some' ()).mpr trivial]
  rfl

/-- Operands that were put on top can be taken again. -/
@[simp] theorem popAll_pushAll (s : StackShape) (ts : List ValType) :
    (s.pushAll ts).popAll ts = some s := by
  induction ts generalizing s with
  | nil => rfl
  | cons t ts ih =>
    have hpush : s.pushAll (t :: ts) = (s.push t).pushAll ts := rfl
    have hpop (s : StackShape) : s.popAll (t :: ts) = (s.popAll ts).bind (·.pop t) :=
      List.foldrM_cons
    rw [hpush, hpop, ih, Option.bind_some, pop_push]

theorem pushAll_eq (s : StackShape) (ts : List ValType) :
    s.pushAll ts = ⟨ts.reverse.map some ++ s.known, s.floating⟩ := by
  induction ts generalizing s with
  | nil => rfl
  | cons t ts ih =>
    have hpush : s.pushAll (t :: ts) = (s.push t).pushAll ts := rfl
    rw [hpush, ih]
    simp [push, pushAny]

theorem isExactly_ofTypes (ts : List ValType) : (ofTypes ts).isExactly ts = true := by
  have hpush : ofTypes ts = pushAll ⟨[], false⟩ ts := by
    rw [pushAll_eq]
    simp [ofTypes]
  rw [isExactly, hpush, popAll_pushAll]
  rfl

end StackShape

/-! ### Inversion of the check -/

namespace Code

variable {c : Scope} {s s' : StackShape} {t : BlockType} {b e k : Code} {p : Plain}

theorem check_plain (h : (plain p k).check c s = some s') :
    ∃ mid, p.check c s = some mid ∧ k.check c mid = some s' := by
  simpa only [check, Option.bind_eq_bind, Option.bind_eq_some_iff] using h

theorem check_block (h : (block t b k).check c s = some s') :
    ∃ type below last, t.resolve? c.types = some type ∧ s.popAll type.params = some below ∧
      b.check (c.inside type.results) (.ofTypes type.params) = some last ∧
      last.isExactly type.results = true ∧ k.check c (below.pushAll type.results) = some s' := by
  simp only [check, Option.bind_eq_bind, Option.bind_eq_some_iff, Option.guard_eq_some'] at h
  obtain ⟨type, ht, below, hbelow, last, hlast, _, hexact, hk⟩ := h
  exact ⟨type, below, last, ht, hbelow, hlast, hexact, hk⟩

theorem check_loop (h : (loop t b k).check c s = some s') :
    ∃ type below last, t.resolve? c.types = some type ∧ s.popAll type.params = some below ∧
      b.check (c.inside type.params) (.ofTypes type.params) = some last ∧
      last.isExactly type.results = true ∧ k.check c (below.pushAll type.results) = some s' := by
  simp only [check, Option.bind_eq_bind, Option.bind_eq_some_iff, Option.guard_eq_some'] at h
  obtain ⟨type, ht, below, hbelow, last, hlast, _, hexact, hk⟩ := h
  exact ⟨type, below, last, ht, hbelow, hlast, hexact, hk⟩

theorem check_ifThen (h : (ifThen t b k).check c s = some s') :
    ∃ type popped below last, t.resolve? c.types = some type ∧ s.pop .i32 = some popped ∧
      popped.popAll type.params = some below ∧
      b.check (c.inside type.results) (.ofTypes type.params) = some last ∧
      last.isExactly type.results = true ∧ type.params = type.results ∧
      k.check c (below.pushAll type.results) = some s' := by
  simp only [check, Option.bind_eq_bind, Option.bind_eq_some_iff, Option.guard_eq_some'] at h
  obtain ⟨type, ht, popped, hpop, below, hbelow, last, hlast, _, hexact, _, hsame, hk⟩ := h
  exact ⟨type, popped, below, last, ht, hpop, hbelow, hlast, hexact, hsame, hk⟩

theorem check_ifElse (h : (ifElse t b e k).check c s = some s') :
    ∃ type popped below last other, t.resolve? c.types = some type ∧ s.pop .i32 = some popped ∧
      popped.popAll type.params = some below ∧
      b.check (c.inside type.results) (.ofTypes type.params) = some last ∧
      last.isExactly type.results = true ∧
      e.check (c.inside type.results) (.ofTypes type.params) = some other ∧
      other.isExactly type.results = true ∧
      k.check c (below.pushAll type.results) = some s' := by
  simp only [check, Option.bind_eq_bind, Option.bind_eq_some_iff, Option.guard_eq_some'] at h
  obtain ⟨type, ht, popped, hpop, below, hbelow, last, hlast, _, hexact, other, hother, _, hexact',
    hk⟩ := h
  exact ⟨type, popped, below, last, other, ht, hpop, hbelow, hlast, hexact, hother, hexact', hk⟩

end Code

theorem lt_length_of_getElem? {α : Type} {xs : List α} {i : Nat} {a : α} (h : xs[i]? = some a) :
    i < xs.length := (List.getElem?_eq_some_iff.mp h).1

/-- A valid branch names a label that exists. -/
theorem Plain.check_branch {p : Plain} {c : Scope} {s s' : StackShape} {d : Nat}
    (h : p.check c s = some s') (hp : p = .br d ∨ p = .brIf d) : d < c.labels.length := by
  rcases hp with rfl | rfl <;>
  · simp only [Plain.check, Option.bind_eq_bind, Option.bind_eq_some_iff] at h
    obtain ⟨label, hl, _⟩ := h
    exact lt_length_of_getElem? hl

@[simp] theorem Scope.length_labels_inside (c : Scope) (label : List ValType) :
    (c.inside label).labels.length = c.labels.length + 1 := rfl

/-! ### Emission -/

namespace Body

/-- The body after instructions that leave the open blocks as they were. -/
def extend (b : Body) (is : List Instr) : Body := { b with program := b.program ++ is.toArray }

@[simp] theorem extend_depth (b : Body) (is : List Instr) : (b.extend is).depth = b.depth := rfl

theorem extend_extend (b : Body) (is js : List Instr) :
    (b.extend is).extend js = b.extend (is ++ js) := by
  simp only [extend, Array.append_assoc, List.append_toArray]

theorem extend_nil (b : Body) : b.extend [] = b := by
  simp only [extend, Array.append_empty]

theorem push_eq_extend (b : Body) (i : Instr) : b.push i = b.extend [i] := by
  simp only [push, extend, Array.push_eq_append]

theorem emitAll_cons (b : Body) (i : Instr) (is : List Instr) :
    b.emitAll (i :: is) = (b.emit i).emitAll is := rfl

theorem emitAll_append (b : Body) (is js : List Instr) :
    b.emitAll (is ++ js) = (b.emitAll is).emitAll js := List.foldl_append

/-- A branch within the open blocks is no misuse; its depth can only get smaller as a word. -/
theorem branch_within {b : Body} {o : Opcode} {d : Nat} (h : d ≤ b.depth) :
    b.branch (.indexed o (UInt32.ofNat d)) = b.extend [.indexed o (UInt32.ofNat d)] := by
  have hle : (UInt32.ofNat d).toNat ≤ d := by
    rw [UInt32.toNat_ofNat']
    exact Nat.mod_le _ _
  have hd : ¬ b.depth < (UInt32.ofNat d).toNat := by omega
  simp only [branch, Instr.indexed, if_neg hd, push_eq_extend]

theorem emit_plain {b : Body} {p : Plain} (h : ∀ d, p = .br d ∨ p = .brIf d → d ≤ b.depth) :
    b.emit p.instr = b.extend [p.instr] := by
  cases p with
  | br d => simpa [emit, Plain.instr, Instr.indexed] using branch_within (o := .br) (h d (.inl rfl))
  | brIf d =>
    simpa [emit, Plain.instr, Instr.indexed] using branch_within (o := .brIf) (h d (.inr rfl))
  | _ =>
    simp [emit, Plain.instr, Instr.op, Instr.indexed, Instr.i32Const, Instr.i64Const,
      push_eq_extend]

theorem emit_end {b : Body} {o : Opener} {outer : List Opener} (h : b.opened = o :: outer) :
    b.emit (.op .end_) = { b.extend [.op .end_] with opened := outer } := by
  simp [emit, Instr.op, h, extend]

theorem emit_else {b : Body} {outer : List Opener} (h : b.opened = .if_ :: outer) :
    b.emit (.op .else_) = b.extend [.op .else_] := by
  simp [emit, Instr.op, h, push_eq_extend]

/-- The body inside a block that was just opened. -/
def inside (b : Body) (o : Opener) (i : Instr) : Body :=
  { b.extend [i] with opened := o :: b.opened }

@[simp] theorem inside_depth (b : Body) (o : Opener) (i : Instr) :
    (b.inside o i).depth = b.depth + 1 := rfl

theorem emit_opening (b : Body) (t : UInt8) :
    b.emit (.opening .block t) = b.inside .block (.opening .block t) ∧
    b.emit (.opening .loop t) = b.inside .loop (.opening .loop t) ∧
    b.emit (.opening .if_ t) = b.inside .if_ (.opening .if_ t) := by
  simp [emit, Instr.opening, enter, inside, extend]

/-- Whether instructions are emitted as they are, without misuse, and leave the open blocks as they
were. -/
def Appends (b : Body) (is : List Instr) : Prop := b.emitAll is = b.extend is

theorem Appends.append {b : Body} {is js : List Instr} (hi : b.Appends is)
    (hj : (b.extend is).Appends js) : b.Appends (is ++ js) := by
  unfold Appends at *
  rw [emitAll_append, hi, hj, extend_extend]

/-- A block whose content leaves the open blocks as they were does so too. -/
theorem Appends.enclosed {b : Body} {o : Opener} {i : Instr} {content : List Instr}
    (hi : b.emit i = b.inside o i) (hc : (b.inside o i).Appends content) :
    b.Appends (i :: (content ++ [.op .end_])) := by
  have hopened : ((b.inside o i).extend content).opened = o :: b.opened := rfl
  unfold Appends at *
  rw [emitAll_cons, hi, emitAll_append, hc, emitAll_cons, emit_end hopened]
  simp [inside, extend, emitAll]

end Body

namespace Code

/-- The instructions of a sequence. -/
def instrs (code : Code) : List Instr := code.tokens.map Token.instr

/-- Valid code is emitted as it is, without misuse, if there are as many open blocks as labels. -/
theorem appends_instrs {code : Code} {c : Scope} {s s' : StackShape} {b : Body}
    (h : code.check c s = some s') (hdepth : c.labels.length ≤ b.depth + 1) :
    b.Appends code.instrs := by
  induction code generalizing c s s' b with
  | done => exact b.extend_nil.symm
  | plain p k ih =>
    obtain ⟨mid, hp, hk⟩ := check_plain h
    have hbranch : ∀ d, p = .br d ∨ p = .brIf d → d ≤ b.depth := by
      intro d hd
      have hlt := Plain.check_branch hp hd
      omega
    have hplain : b.Appends [p.instr] := Body.emit_plain hbranch
    exact hplain.append (ih hk (by simpa using hdepth))
  | block t body k ihb ihk =>
    obtain ⟨type, below, last, _, _, hbody, _, hk⟩ := check_block h
    have hi : (block t body k).instrs =
        (.opening .block t.byte :: (body.instrs ++ [.op .end_])) ++ k.instrs := by
      simp [instrs, tokens, Token.instr]
    have hblock := Body.Appends.enclosed (b.emit_opening t.byte).1
      (ihb hbody (by simpa using hdepth))
    rw [hi]
    exact hblock.append (ihk hk (by simpa using hdepth))
  | loop t body k ihb ihk =>
    obtain ⟨type, below, last, _, _, hbody, _, hk⟩ := check_loop h
    have hi : (loop t body k).instrs =
        (.opening .loop t.byte :: (body.instrs ++ [.op .end_])) ++ k.instrs := by
      simp [instrs, tokens, Token.instr]
    have hblock := Body.Appends.enclosed (b.emit_opening t.byte).2.1
      (ihb hbody (by simpa using hdepth))
    rw [hi]
    exact hblock.append (ihk hk (by simpa using hdepth))
  | ifThen t body k ihb ihk =>
    obtain ⟨type, popped, below, last, _, _, _, hbody, _, _, hk⟩ := check_ifThen h
    have hi : (ifThen t body k).instrs =
        (.opening .if_ t.byte :: (body.instrs ++ [.op .end_])) ++ k.instrs := by
      simp [instrs, tokens, Token.instr]
    have hblock := Body.Appends.enclosed (b.emit_opening t.byte).2.2
      (ihb hbody (by simpa using hdepth))
    rw [hi]
    exact hblock.append (ihk hk (by simpa using hdepth))
  | ifElse t body other k ihb ihe ihk =>
    obtain ⟨type, popped, below, last, last', _, _, _, hbody, _, hother, _, hk⟩ := check_ifElse h
    have hi : (ifElse t body other k).instrs = (.opening .if_ t.byte ::
        ((body.instrs ++ ([.op .else_] ++ other.instrs)) ++ [.op .end_])) ++ k.instrs := by
      simp [instrs, tokens, Token.instr]
    have hbody := ihb (b := b.inside .if_ (.opening .if_ t.byte)) hbody (by simpa using hdepth)
    have hopened : ((b.inside .if_ (.opening .if_ t.byte)).extend body.instrs).opened =
        .if_ :: b.opened := rfl
    have helse : ((b.inside .if_ (.opening .if_ t.byte)).extend body.instrs).Appends
        [.op .else_] := Body.emit_else hopened
    have hcontent := hbody.append (helse.append (ihe hother (by simpa using hdepth)))
    have hblock := Body.Appends.enclosed (b.emit_opening t.byte).2.2 hcontent
    rw [hi]
    exact hblock.append (ihk hk (by simpa using hdepth))

end Code

/-! ### Reading valid code back -/

theorem BlockType.hasByte_of_resolve {t : BlockType} {types : List FuncType} {type : FuncType}
    (h : t.resolve? types = some type) (htypes : types.length ≤ 64) : t.HasByte := by
  cases t with
  | index i => exact Nat.lt_of_lt_of_le (lt_length_of_getElem? h) htypes
  | _ => trivial

/-- A scope small enough for 32-bit indexes and one-byte block types. -/
structure Scope.Small (c : Scope) : Prop where
  types : c.types.length ≤ 64
  functions : c.functions.length ≤ UInt32.size
  locals : c.locals.length ≤ UInt32.size

theorem Scope.Small.inside {c : Scope} (h : c.Small) (label : List ValType) :
    (c.inside label).Small := ⟨h.types, h.functions, h.locals⟩

theorem Plain.fits_of_check {p : Plain} {c : Scope} {s s' : StackShape}
    (h : p.check c s = some s') (hc : c.Small) (hlabels : c.labels.length ≤ UInt32.size) :
    p.Fits := by
  have hfun := hc.functions
  have hloc := hc.locals
  cases p with
  | br d => exact Nat.lt_of_lt_of_le (Plain.check_branch h (.inl rfl)) hlabels
  | brIf d => exact Nat.lt_of_lt_of_le (Plain.check_branch h (.inr rfl)) hlabels
  | call f =>
    simp only [Plain.check, Option.bind_eq_bind, Option.bind_eq_some_iff] at h
    obtain ⟨type, ht, _⟩ := h
    exact Nat.lt_of_lt_of_le (lt_length_of_getElem? ht) hfun
  | localGet i | localSet i | localTee i =>
    simp only [Plain.check, Option.bind_eq_bind, Option.bind_eq_some_iff] at h
    obtain ⟨type, ht, _⟩ := h
    exact Nat.lt_of_lt_of_le (lt_length_of_getElem? ht) hloc
  | _ => trivial

/-- The tokens of valid code can be read back, if there are few enough for the labels to be
numbered in 32 bits. Each open block is one of the tokens, which bounds the nesting. -/
theorem Code.fits_of_check {code : Code} {c : Scope} {s s' : StackShape}
    (h : code.check c s = some s') (hc : c.Small)
    (hsize : c.labels.length + code.tokens.length ≤ UInt32.size) :
    ∀ t ∈ code.tokens, t.Fits := by
  induction code generalizing c s s' with
  | done => simp [tokens]
  | plain p k ih =>
    obtain ⟨mid, hp, hk⟩ := check_plain h
    simp only [tokens, List.length_cons] at hsize
    have hfits : p.Fits := Plain.fits_of_check hp hc (by omega)
    have hrest := ih hk hc (by omega)
    simpa only [tokens, List.forall_mem_cons] using ⟨hfits, hrest⟩
  | block t body k ihb ihk =>
    obtain ⟨type, below, last, ht, _, hbody, _, hk⟩ := check_block h
    simp only [tokens, List.length_cons, List.length_append] at hsize
    have hbody := ihb hbody (hc.inside _) (by rw [Scope.length_labels_inside]; omega)
    have hrest := ihk hk hc (by omega)
    simpa only [tokens, List.forall_mem_cons, List.forall_mem_append] using
      ⟨BlockType.hasByte_of_resolve ht hc.types, hbody, trivial, hrest⟩
  | loop t body k ihb ihk =>
    obtain ⟨type, below, last, ht, _, hbody, _, hk⟩ := check_loop h
    simp only [tokens, List.length_cons, List.length_append] at hsize
    have hbody := ihb hbody (hc.inside _) (by rw [Scope.length_labels_inside]; omega)
    have hrest := ihk hk hc (by omega)
    simpa only [tokens, List.forall_mem_cons, List.forall_mem_append] using
      ⟨BlockType.hasByte_of_resolve ht hc.types, hbody, trivial, hrest⟩
  | ifThen t body k ihb ihk =>
    obtain ⟨type, popped, below, last, ht, _, _, hbody, _, _, hk⟩ := check_ifThen h
    simp only [tokens, List.length_cons, List.length_append] at hsize
    have hbody := ihb hbody (hc.inside _) (by rw [Scope.length_labels_inside]; omega)
    have hrest := ihk hk hc (by omega)
    simpa only [tokens, List.forall_mem_cons, List.forall_mem_append] using
      ⟨BlockType.hasByte_of_resolve ht hc.types, hbody, trivial, hrest⟩
  | ifElse t body other k ihb ihe ihk =>
    obtain ⟨type, popped, below, last, last', ht, _, _, hbody, _, hother, _, hk⟩ := check_ifElse h
    simp only [tokens, List.length_cons, List.length_append] at hsize
    have hbody := ihb hbody (hc.inside _) (by rw [Scope.length_labels_inside]; omega)
    have hother := ihe hother (hc.inside _) (by rw [Scope.length_labels_inside]; omega)
    have hrest := ihk hk hc (by omega)
    simpa only [tokens, List.forall_mem_cons, List.forall_mem_append] using
      ⟨BlockType.hasByte_of_resolve ht hc.types, hbody, trivial, hother, trivial, hrest⟩

/-- Valid code is read and nested in front of anything that can be read and nested. -/
theorem Code.nests_before {code : Code} {c : Scope} {s s' : StackShape}
    (h : code.check c s = some s') (hc : c.Small) (hlabels : c.labels = [])
    (hsize : (code.tokens.flatMap Token.bytes).length < UInt32.size) {rest : List UInt8}
    {us : List Token} (hread : Token.readAll rest = some us) {k : Code} {a : Option Code}
    {outer : List Code.Pending} (hnest : us.foldrM Code.prepend [] = some (⟨k, a⟩ :: outer)) :
    ∃ ts, Token.readAll (code.tokens.flatMap Token.bytes ++ rest) = some ts ∧
      ts.foldrM Code.prepend [] = some (⟨code.append k, a⟩ :: outer) := by
  have hlen := Token.length_le_bytes code.tokens
  have hfits := Code.fits_of_check h hc (by rw [hlabels, List.length_nil]; omega)
  refine ⟨code.tokens ++ us, Token.readAll_append hfits hread, ?_⟩
  rw [List.foldrM_append, hnest]
  exact Code.prepend_tokens code k a outer

end RuleScan
