import RuleScan.Proofs.BuiltModules
import RuleScan.Proofs.InstructionCodec

/-!
# The life of a builder

Until its first build a builder has one sequence of instructions, and whatever is emitted is added at
its end. The first build closes the sequence and uses the builder up, whether it succeeds or not: from
then on only who kept the sequence can add to it, and no module is built. A builder that was never set
up is in neither state and stays so.
-/
namespace RuleScan

/-! ### Emission -/

namespace Body

theorem misuse_note (b : Body) (m : Misuse) : (b.note m).misuse ≠ none := by
  unfold note
  cases b.misuse <;> exact Option.some_ne_none _

theorem branch_cases (b : Body) (i : Instr) :
    b.branch i = b.push i ∨ ∃ m, b.branch i = (b.note m).push i := by
  unfold branch
  split
  · split
    · exact .inr ⟨_, rfl⟩
    · exact .inl rfl
  · exact .inl rfl

/-- An instruction is added at the end, or there is a misuse; the program then grows by that
instruction or stays as it is. -/
theorem emit_cases (b : Body) (i : Instr) :
    (b.emit i).program = b.program.push i ∧ (b.emit i).misuse = b.misuse ∨
      ∃ m, b.emit i = (b.note m).push i ∨ b.emit i = b.note m := by
  have hbranch : (b.branch i).program = b.program.push i ∧ (b.branch i).misuse = b.misuse ∨
      ∃ m, b.branch i = (b.note m).push i ∨ b.branch i = b.note m := by
    rcases b.branch_cases i with heq | ⟨m, heq⟩
    · exact .inl (heq ▸ ⟨rfl, rfl⟩)
    · exact .inr ⟨m, .inl heq⟩
  unfold emit
  split
  · exact .inl ⟨rfl, rfl⟩
  · exact .inl ⟨rfl, rfl⟩
  · exact .inl ⟨rfl, rfl⟩
  · split
    · exact .inl ⟨rfl, rfl⟩
    · exact .inr ⟨_, .inl rfl⟩
  · split
    · exact .inl ⟨rfl, rfl⟩
    · exact .inr ⟨_, .inr rfl⟩
  · exact hbranch
  · exact hbranch
  · exact .inl ⟨rfl, rfl⟩

theorem emit_program {b : Body} {i : Instr} (h : (b.emit i).misuse = none) :
    b.misuse = none ∧ (b.emit i).program.toList = b.program.toList ++ [i] := by
  rcases b.emit_cases i with ⟨hprogram, hmisuse⟩ | ⟨m, heq | heq⟩
  · exact ⟨hmisuse ▸ h, by rw [hprogram, Array.toList_push]⟩
  · rw [heq] at h
    exact absurd h (b.misuse_note m)
  · rw [heq] at h
    exact absurd h (b.misuse_note m)

/-- Without a misuse, the program is what was emitted. -/
theorem emitAll_program {b : Body} {is : List Instr} (h : (b.emitAll is).misuse = none) :
    b.misuse = none ∧ (b.emitAll is).program.toList = b.program.toList ++ is := by
  induction is generalizing b with
  | nil => exact ⟨h, (List.append_nil _).symm⟩
  | cons i is ih =>
    rw [emitAll_cons] at h ⊢
    obtain ⟨hnone, hprogram⟩ := ih h
    obtain ⟨hbefore, hi⟩ := emit_program hnone
    exact ⟨hbefore, by rw [hprogram, hi, List.append_assoc, List.singleton_append]⟩

/-- Instructions that can be closed are all there. -/
theorem program_of_close {is : List Instr} {bytes : List UInt8}
    (h : (empty.emitAll is).close = .ok bytes) : (empty.emitAll is).program.toList = is := by
  obtain ⟨hmisuse, _⟩ := close_ok h
  exact (emitAll_program hmisuse).2

theorem emit_starts (b : Body) (i : Instr) :
    ∃ more, (b.emit i).program.toList = b.program.toList ++ more := by
  rcases b.emit_cases i with ⟨hprogram, _⟩ | ⟨m, heq | heq⟩
  · exact ⟨[i], by rw [hprogram, Array.toList_push]⟩
  · exact ⟨[i], by rw [heq]; exact Array.toList_push⟩
  · exact ⟨[], by rw [heq, List.append_nil]; rfl⟩

/-- Emission keeps the instructions that are there, also after a misuse. -/
theorem emitAll_starts (b : Body) (is : List Instr) :
    ∃ more, (b.emitAll is).program.toList = b.program.toList ++ more := by
  induction is generalizing b with
  | nil => exact ⟨[], (List.append_nil _).symm⟩
  | cons i is ih =>
    obtain ⟨first, hfirst⟩ := b.emit_starts i
    obtain ⟨rest, hrest⟩ := ih (b.emit i)
    exact ⟨first ++ rest, by rw [emitAll_cons, hrest, hfirst, List.append_assoc]⟩

end Body

namespace Builder

/-! ### The effect of operations -/

/-- What an operation adds to a builder that is not used up. -/
def Operation.instrs : Operation → List Instr
  | .emit is => is
  | .emitKept is => is
  | .addRules rules => (rules.filter fun r => r.faults.isEmpty).flatMap Rule.program
  | .symbols => []
  | .build => []

/-- What an operation adds to a sequence that was kept. -/
def Operation.kept : Operation → List Instr
  | .emitKept is => is
  | _ => []

theorem performAll_cons (b : Builder) (op : Operation) (ops : List Operation) :
    b.performAll (op :: ops) =
      (((b.perform op).1.performAll ops).1, (b.perform op).2 :: ((b.perform op).1.performAll ops).2) :=
  rfl

theorem performAll_append (b : Builder) (ops more : List Operation) :
    b.performAll (ops ++ more) =
      (((b.performAll ops).1.performAll more).1,
        (b.performAll ops).2 ++ ((b.performAll ops).1.performAll more).2) := by
  induction ops generalizing b with
  | nil => rfl
  | cons op ops ih => simp only [List.cons_append, performAll_cons, ih]

/-- The builder whose main function was given the instructions `sofar`. -/
def draft (sofar : List Instr) : Builder := ⟨.drafting, .standard, Body.empty.emitAll sofar⟩

/-- That builder after a build. -/
def usedUp (sofar : List Instr) : Builder := { draft sofar with phase := .finalized }

theorem draft_append (sofar is : List Instr) :
    draft (sofar ++ is) = { draft sofar with body := (draft sofar).body.emitAll is } := by
  rw [draft, Body.emitAll_append]
  rfl

theorem perform_draft {op : Operation} (h : op ≠ .build) (sofar : List Instr) :
    ((draft sofar).perform op).1 = draft (sofar ++ op.instrs) := by
  cases op with
  | build => contradiction
  | symbols => exact congrArg draft (List.append_nil sofar).symm
  | emit is | emitKept is | addRules rules =>
    rw [draft_append]
    rfl

/-- Before the first build, instructions accumulate in the order of the operations. -/
theorem performAll_draft {ops : List Operation} (h : .build ∉ ops) (sofar : List Instr) :
    ((draft sofar).performAll ops).1 = draft (sofar ++ ops.flatMap Operation.instrs) := by
  induction ops generalizing sofar with
  | nil => exact congrArg draft (List.append_nil sofar).symm
  | cons op ops ih =>
    have hop : op ≠ .build := fun heq => h (heq ▸ List.mem_cons_self)
    have hrest := ih (fun hmem => h (List.mem_cons_of_mem op hmem))
    rw [performAll_cons, perform_draft hop, hrest, List.flatMap_cons, List.append_assoc]

theorem built_not_mem_draft {ops : List Operation} (h : .build ∉ ops) (sofar : List Instr)
    (m : Module) : .built m ∉ ((draft sofar).performAll ops).2 := by
  induction ops generalizing sofar with
  | nil => exact List.not_mem_nil
  | cons op ops ih =>
    have hop : op ≠ .build := fun heq => h (heq ▸ List.mem_cons_self)
    have hrest := ih (fun hmem => h (List.mem_cons_of_mem op hmem))
    have hanswer : ((draft sofar).perform op).2 ≠ .built m := by
      cases op with
      | build => contradiction
      | emit | emitKept | symbols | addRules => exact Answer.noConfusion
    rw [performAll_cons, perform_draft hop, List.mem_cons]
    exact not_or.mpr ⟨hanswer.symm, hrest _⟩

/-- A builder that is used up or was never set up has no main function to add to, and gives the same
reason for each build. Nothing of this changes it. -/
structure Refuses (b : Builder) (reason : BuildError) : Prop where
  emit : ∀ is, b.perform (.emit is) = (b, .unusable)
  addRules : ∀ rules, b.perform (.addRules rules) = (b, .unusable)
  build : b.perform .build = (b, .failed reason)

theorem refuses_finalized {b : Builder} (h : b.phase = .finalized) : b.Refuses .finalized := by
  obtain ⟨_, _, _⟩ := b
  subst h
  exact ⟨fun _ => rfl, fun _ => rfl, rfl⟩

theorem refuses_notSetUp {b : Builder} (h : b.phase = .notSetUp) : b.Refuses .notSetUp := by
  obtain ⟨_, _, _⟩ := b
  subst h
  exact ⟨fun _ => rfl, fun _ => rfl, rfl⟩

theorem perform_unusable {b : Builder} (h : b.phase ≠ .drafting) (op : Operation) :
    (b.perform op).1 = { b with body := b.body.emitAll op.kept } ∧
      ∀ m, (b.perform op).2 ≠ .built m := by
  obtain ⟨reason, hrefuses⟩ : ∃ reason, b.Refuses reason := by
    cases hphase : b.phase with
    | drafting => contradiction
    | finalized => exact ⟨_, refuses_finalized hphase⟩
    | notSetUp => exact ⟨_, refuses_notSetUp hphase⟩
  cases op with
  | emit is =>
    rw [hrefuses.emit]
    exact ⟨rfl, fun _ => Answer.noConfusion⟩
  | addRules rules =>
    rw [hrefuses.addRules]
    exact ⟨rfl, fun _ => Answer.noConfusion⟩
  | build =>
    rw [hrefuses.build]
    exact ⟨rfl, fun _ => Answer.noConfusion⟩
  | emitKept is | symbols => exact ⟨rfl, fun _ => Answer.noConfusion⟩

/-- A builder that cannot be added to stays so. Only a sequence that was kept grows. -/
theorem performAll_unusable {b : Builder} (h : b.phase ≠ .drafting) (ops : List Operation) :
    (b.performAll ops).1 = { b with body := b.body.emitAll (ops.flatMap Operation.kept) } ∧
      ∀ m, .built m ∉ (b.performAll ops).2 := by
  induction ops generalizing b with
  | nil => exact ⟨rfl, fun _ => List.not_mem_nil⟩
  | cons op ops ih =>
    obtain ⟨hstate, hanswer⟩ := perform_unusable h op
    obtain ⟨hrest, hanswers⟩ := ih (b := (b.perform op).1) (by rw [hstate]; exact h)
    rw [performAll_cons]
    constructor
    · rw [hrest, hstate, List.flatMap_cons, Body.emitAll_append]
    · intro m hm
      rcases List.mem_cons.mp hm with heq | hmem
      · exact hanswer m heq.symm
      · exact hanswers m hmem

/-! ### Until the first build -/

/-- What a builder does that is not used up and was given the instructions `sofar`. -/
structure Drafts (b : Builder) (sofar : List Instr) : Prop where
  symbols : b.perform .symbols = (b, .symbols .standard)
  emit : ∀ is, let c := draft (sofar ++ is)
    b.perform (.emit is) = (c, .emitted c.body.size c.body.depth)
  emitKept : ∀ is, b.perform (.emitKept is) = b.perform (.emit is)
  addRules : ∀ rules, let c := draft (sofar ++ (Operation.addRules rules).instrs)
    b.perform (.addRules rules) = (c, .added c.body.size c.body.depth (rules.flatMap Rule.errors))
  /-- The build uses the builder up, whether the instructions can be closed or not. -/
  built : ∀ bytes, (Body.empty.emitAll sofar).close = .ok bytes →
    b.perform .build =
      (usedUp sofar, .built (Module.ofLayout (Module.layoutOf bytes) sofar .standard))
  failed : ∀ err, (Body.empty.emitAll sofar).close = .error err →
    b.perform .build = (usedUp sofar, .failed err)

theorem drafts_draft (sofar : List Instr) : (draft sofar).Drafts sofar where
  symbols := rfl
  emit is := by
    rw [draft_append]
    rfl
  emitKept _ := rfl
  addRules rules := by
    rw [draft_append]
    rfl
  built bytes h := by
    simp only [perform, build, draft, h, Body.program_of_close h]
    rfl
  failed err h := by
    simp only [perform, build, draft, h]
    rfl

/-- What is built from instructions is around their encodings. -/
theorem perform_build_built {sofar : List Instr} {m : Module}
    (h : ((draft sofar).perform .build).2 = .built m) :
    m.program = sofar ∧ m.symbols = .standard ∧ (Body.empty.emitAll sofar).program.toList = sofar ∧
      ∃ parts, sofar.mapM Instr.encode = .ok parts ∧
        m.binary = (Module.layoutOf parts.flatten).encode ∧ m.hash = Sha256.hexDigest m.binary := by
  have hdrafts := drafts_draft sofar
  cases hclose : (Body.empty.emitAll sofar).close with
  | error err =>
    rw [hdrafts.failed err hclose] at h
    contradiction
  | ok bytes =>
    rw [hdrafts.built bytes hclose] at h
    obtain rfl := Answer.built.inj h
    have hprogram := Body.program_of_close hclose
    obtain ⟨_, _, parts, hparts, rfl⟩ := Body.close_ok hclose
    rw [hprogram] at hparts
    exact ⟨rfl, rfl, hprogram, parts, hparts, rfl, rfl⟩

/-- The whole life: what comes before the first build, that build, and what comes after it. -/
theorem performAll_build {before : List Operation} (hfirst : .build ∉ before)
    (later : List Operation) :
    let sofar := before.flatMap Operation.instrs
    new.performAll (before ++ .build :: later) =
      (((usedUp sofar).performAll later).1,
        (new.performAll before).2 ++
          ((draft sofar).perform .build).2 :: ((usedUp sofar).performAll later).2) := by
  intro sofar
  have hdraft : (new.performAll before).1 = draft sofar := performAll_draft hfirst []
  have hused : ((draft sofar).perform .build).1 = usedUp sofar := by
    cases hclose : (Body.empty.emitAll sofar).close with
    | error err => rw [(drafts_draft sofar).failed err hclose]
    | ok bytes => rw [(drafts_draft sofar).built bytes hclose]
  rw [performAll_append, performAll_cons, hdraft, hused]

/-- No module is built but by the first build. -/
theorem built_mem_iff {before : List Operation} (hfirst : .build ∉ before) (later : List Operation)
    (m : Module) : .built m ∈ (new.performAll (before ++ .build :: later)).2 ↔
      ((draft (before.flatMap Operation.instrs)).perform .build).2 = .built m := by
  have hearly : .built m ∉ (new.performAll before).2 := built_not_mem_draft hfirst [] m
  obtain ⟨_, hno⟩ := performAll_unusable (b := usedUp (before.flatMap Operation.instrs))
    Phase.noConfusion later
  rw [performAll_build hfirst later, List.mem_append, List.mem_cons]
  constructor
  · rintro (hmem | heq | hmem)
    · contradiction
    · exact heq.symm
    · exact absurd hmem (hno m)
  · exact fun heq => .inr (.inl heq.symm)

theorem performAll_blank (ops : List Operation) :
    let unset := (blank.performAll ops).1
    unset.Refuses .notSetUp ∧ unset.perform .symbols = (unset, .symbols .unset) := by
  intro unset
  have heq : unset = { blank with body := blank.body.emitAll (ops.flatMap Operation.kept) } :=
    (performAll_unusable (b := blank) Phase.noConfusion ops).1
  rw [heq]
  exact ⟨refuses_notSetUp rfl, rfl⟩

/-- The life of a builder. Before the first build each operation adds to one sequence, in the order of
the operations. The first build closes that sequence and uses the builder up, whatever it gives, and
the modules among all answers are those that it gave: at most one, whose program is what was emitted
before and whose binary and hash follow from it, while a sequence that was kept only grows at its end.
A builder that was never set up is not changed by a build and can never be added to. -/
theorem life_cycle {before : List Operation} (hfirst : .build ∉ before) (later : List Operation) :
    let sofar := before.flatMap Operation.instrs
    let first := (new.performAll before).1
    let last := (new.performAll (before ++ .build :: later)).1
    first.Drafts sofar ∧
    last.Refuses .finalized ∧ last.perform .symbols = (last, .symbols .standard) ∧
    last.body = Body.empty.emitAll (sofar ++ later.flatMap Operation.kept) ∧
    (∀ m, .built m ∈ (new.performAll (before ++ .build :: later)).2 ↔
      (first.perform .build).2 = .built m) ∧
    (∀ m, (first.perform .build).2 = .built m → m.program = sofar ∧ m.symbols = .standard ∧
      (∃ parts, sofar.mapM Instr.encode = .ok parts ∧
        m.binary = (Module.layoutOf parts.flatten).encode ∧ m.hash = Sha256.hexDigest m.binary) ∧
      ∃ more, last.body.program.toList = m.program ++ more) ∧
    ∀ ops, let unset := (blank.performAll ops).1
      unset.Refuses .notSetUp ∧ unset.perform .symbols = (unset, .symbols .unset) := by
  intro sofar first last
  have hdraft : first = draft sofar := performAll_draft hfirst []
  obtain ⟨hstate, _⟩ := performAll_unusable (b := usedUp sofar) Phase.noConfusion later
  have hlast : last = { usedUp sofar with
      body := (usedUp sofar).body.emitAll (later.flatMap Operation.kept) } :=
    (congrArg Prod.fst (performAll_build hfirst later)).trans hstate
  refine ⟨?_, ?_, ?_, ?_, ?_, ?_, ?_⟩
  · rw [hdraft]
    exact drafts_draft sofar
  · rw [hlast]
    exact refuses_finalized rfl
  · rw [hlast]
    rfl
  · rw [hlast, Body.emitAll_append]
    rfl
  · intro m
    rw [hdraft]
    exact built_mem_iff hfirst later m
  · intro m hm
    rw [hdraft] at hm
    obtain ⟨hprogram, hsymbols, hbody, hparts⟩ := perform_build_built hm
    obtain ⟨more, hmore⟩ :=
      (Body.empty.emitAll sofar).emitAll_starts (later.flatMap Operation.kept)
    refine ⟨hprogram, hsymbols, hparts, more, ?_⟩
    rw [hlast, hprogram]
    exact hmore.trans (congrArg (· ++ more) hbody)
  · exact performAll_blank

/-- A block that is opened and closed by different operations, with an instruction in it that comes
through a kept sequence. What is added to that sequence later is not in the module. -/
theorem life_cycle_of_kept :
    let before : List Operation :=
      [.emit [.opening .block 0x40], .symbols, .emitKept [.op .nop], .emit [.op .end_]]
    let later : List Operation := [.build, .emitKept [.op .nop], .emit [.op .nop]]
    ∃ m, (new.performAll (before ++ .build :: later)).2 =
        [.emitted 1 1, .symbols .standard, .emitted 2 1, .emitted 3 0, .built m,
          .failed .finalized, .emitted 4 0, .unusable] ∧
      m.program = [.opening .block 0x40, .op .nop, .op .end_] ∧
      ∃ more, (new.performAll (before ++ .build :: later)).1.body.program.toList =
        m.program ++ more := by
  intro before later
  obtain ⟨hdrafts, _, _, _, _, hmodule, _⟩ := @life_cycle before (by decide) later
  have hbuild := hdrafts.built [0x02, 0x40, 0x01, 0x0b] rfl
  obtain ⟨hprogram, _, _, hmore⟩ := hmodule _ (congrArg Prod.snd hbuild)
  exact ⟨_, rfl, hprogram, hmore⟩

end Builder

end RuleScan
