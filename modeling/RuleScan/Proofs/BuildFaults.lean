import RuleScan.Proofs.BlockNesting
import RuleScan.Proofs.BuiltModules
import RuleScan.Proofs.InstructionCodec

/-!
# What a build reports

Emitters are of two kinds: those for blocks, branches and arbitrary instructions hold what they emit
against the open blocks, and those for constants, locals and calls append it as it is. Either way the
body is that of the instructions one after another. A build succeeds exactly if every instruction
fits the blocks that are open before it, none is open at the end, and every instruction has an
encoding. Otherwise it reports the first misuse, or else the blocks left open, or else the first
instruction without an encoding.
-/
namespace RuleScan

/-! ### Emitters -/

/-- The calls that emit instructions. -/
inductive Emitter where
  /-- Any instruction; also blocks and branches are emitted in this way. -/
  | instr (i : Instr)
  | i32Const (v : Int32)
  | i64Const (v : Int64)
  | localGet (i : UInt32)
  | localSet (i : UInt32)
  | localTee (i : UInt32)
  | call (function : UInt32)
  | clearException
  | raise (depth : UInt32)
  | exceptionRaised
deriving DecidableEq, Repr

/-- The instructions of a call. -/
def Emitter.instrs : Emitter → List Instr
  | instr i => [i]
  | i32Const v => [.i32Const v]
  | i64Const v => [.i64Const v]
  | localGet i => [.indexed .localGet i]
  | localSet i => [.indexed .localSet i]
  | localTee i => [.indexed .localTee i]
  | call f => [.indexed .call f]
  | clearException => Instr.clearException
  | raise d => Instr.raise d
  | exceptionRaised => Instr.exceptionRaised

namespace Body

/-- The body after a call. Only instructions given as such are held against the open blocks, and the
branch of a raise. -/
def perform (b : Body) : Emitter → Body
  | .instr i => b.emit i
  | .i32Const v => b.push (.i32Const v)
  | .i64Const v => b.push (.i64Const v)
  | .localGet i => b.push (.indexed .localGet i)
  | .localSet i => b.push (.indexed .localSet i)
  | .localTee i => b.push (.indexed .localTee i)
  | .call f => b.push (.indexed .call f)
  | .clearException => (b.push (.i32Const 0)).push (.indexed .localSet 2)
  | .raise d => ((b.push (.i32Const 1)).push (.indexed .localSet 2)).emit (.indexed .br d)
  | .exceptionRaised => b.push (.indexed .localGet 2)

def performAll (b : Body) (calls : List Emitter) : Body := calls.foldl perform b

theorem perform_eq (b : Body) (call : Emitter) : b.perform call = b.emitAll call.instrs := by
  have hflag : UInt32.ofNat Symbols.standard.exceptionFlag = 2 := rfl
  cases call <;>
    simp [perform, Emitter.instrs, Instr.clearException, Instr.raise, Instr.exceptionRaised,
      emitAll, emit, Instr.i32Const, Instr.i64Const, Instr.indexed, hflag]

/-- Calls emit the instructions of each in turn. -/
theorem performAll_eq (b : Body) (calls : List Emitter) :
    b.performAll calls = b.emitAll (calls.flatMap Emitter.instrs) := by
  induction calls generalizing b with
  | nil => rfl
  | cons call calls ih =>
    rw [List.flatMap_cons, emitAll_append, ← perform_eq]
    exact ih _

end Body

/-! ### Faults -/

namespace Instr

def Encodable (i : Instr) : Prop := ∃ bytes, i.encode = .ok bytes

/-- The first instruction without an encoding has `n` instructions before it. -/
def FirstUnencodable (is : List Instr) (n : Nat) (e : EncodeError) : Prop :=
  ∃ before i after, is = before ++ i :: after ∧ (∀ j ∈ before, j.Encodable) ∧ i.encode = .error e ∧
    n = before.length

/-- Instructions that can be the body of a main function, as far as a builder can tell. -/
structure WellFormed (is : List Instr) : Prop where
  fit : AllFit is
  closed : openBlocks is = []
  encodable : ∀ i ∈ is, i.Encodable

/-- What is reported about instructions that are not well formed. A misuse comes before blocks left
open, and these before instructions without an encoding. -/
inductive Faulty (is : List Instr) : BuildError → Prop where
  | misuse {n : Nat} {m : Misuse} : FirstMisuse is n m → Faulty is (.misuse n m)
  | openBlocks : AllFit is → openBlocks is ≠ [] → Faulty is (.openBlocks (openBlocks is).length)
  | encoding {n : Nat} {e : EncodeError} : AllFit is → Instr.openBlocks is = [] →
      FirstUnencodable is n e → Faulty is (.encoding n e)

/-- A branch that has an encoding has a 32-bit number for its depth. -/
theorem Encodable.branch {i : Instr} (h : i.Encodable) (hbranch : i.branches = true) :
    ∃ d, i.immediate = some (.uint32 d) := by
  obtain ⟨bytes, hbytes⟩ := h
  obtain ⟨op, immediate, hop, himmediate, _⟩ := encode_eq_ok.mp hbytes
  have hindex : op.immediateKind = .index := by
    have hbranches : op = .br ∨ op = .brIf := by simpa [branches_iff, hop] using hbranch
    rcases hbranches with rfl | rfl <;> rfl
  unfold immediateBytes at himmediate
  split at himmediate <;> simp_all

theorem allEncodable_or_first (is : List Instr) :
    (∀ i ∈ is, i.Encodable) ∨ ∃ n e, FirstUnencodable is n e := by
  induction is with
  | nil => exact .inl (by simp)
  | cons i is ih =>
    cases hi : i.encode with
    | error e => exact .inr ⟨0, e, [], i, is, rfl, by simp, hi, rfl⟩
    | ok bytes =>
      have hencodable : i.Encodable := ⟨bytes, hi⟩
      rcases ih with hall | ⟨n, e, before, j, after, rfl, hbefore, hj, rfl⟩
      · exact .inl (List.forall_mem_cons.mpr ⟨hencodable, hall⟩)
      · exact .inr ⟨_, e, i :: before, j, after, rfl,
          List.forall_mem_cons.mpr ⟨hencodable, hbefore⟩, hj, rfl⟩

theorem wellFormed_or_faulty (is : List Instr) : WellFormed is ∨ ∃ err, Faulty is err := by
  rcases allFit_or_firstMisuse is with hfit | ⟨n, m, hfirst⟩
  · by_cases hclosed : openBlocks is = []
    · rcases allEncodable_or_first is with hall | ⟨n, e, hfirst⟩
      · exact .inl ⟨hfit, hclosed, hall⟩
      · exact .inr ⟨_, .encoding hfit hclosed hfirst⟩
    · exact .inr ⟨_, .openBlocks hfit hclosed⟩
  · exact .inr ⟨_, .misuse hfirst⟩

end Instr

namespace Body

/-- The encodings of instructions that are numbered from `start` on. -/
theorem mapM_encode_of_encodable {is : List Instr} (h : ∀ i ∈ is, i.Encodable) (start : Nat) :
    ∃ parts, (is.zipIdx start).mapM
      (fun (i, n) => i.encode.mapError (BuildError.encoding n)) = .ok parts := by
  induction is generalizing start with
  | nil => exact ⟨[], rfl⟩
  | cons i is ih =>
    obtain ⟨⟨bytes, hi⟩, his⟩ := List.forall_mem_cons.mp h
    obtain ⟨parts, hparts⟩ := ih his (start + 1)
    refine ⟨bytes :: parts, ?_⟩
    simp only [List.zipIdx_cons, List.mapM_cons, hi, hparts]
    rfl

theorem mapM_encode_of_first {is : List Instr} {n : Nat} {e : EncodeError}
    (h : Instr.FirstUnencodable is n e) (start : Nat) :
    (is.zipIdx start).mapM (fun (i, n) => i.encode.mapError (BuildError.encoding n)) =
      .error (.encoding (start + n) e) := by
  obtain ⟨before, i, after, rfl, hbefore, hi, rfl⟩ := h
  obtain ⟨parts, hparts⟩ := mapM_encode_of_encodable hbefore start
  simp only [List.zipIdx_append, List.mapM_append, List.zipIdx_cons, List.mapM_cons, hparts, hi]
  rfl

theorem close_of_wellFormed {is : List Instr} (h : Instr.WellFormed is) :
    ∃ bytes, (empty.emitAll is).close = .ok bytes := by
  obtain ⟨parts, hparts⟩ := mapM_encode_of_encodable h.encodable 0
  have hdepth : ¬ (empty.emitAll is).depth ≠ 0 := by
    rw [emitAll_of_allFit h.fit]
    exact not_not.mpr (List.length_eq_zero_iff.mpr h.closed)
  refine ⟨parts.flatten, ?_⟩
  rw [close, misuse_eq_none_iff.mpr h.fit, if_neg hdepth, emitAll_of_allFit h.fit, encode, hparts]
  rfl

/-- A fault is reported as soon as the body is closed. -/
theorem close_of_faulty {is : List Instr} {err : BuildError} (h : Instr.Faulty is err) :
    (empty.emitAll is).close = .error err := by
  cases h with
  | misuse hfirst => rw [close, misuse_of_firstMisuse hfirst]
  | openBlocks hfit hopen =>
    have hdepth : (Instr.openBlocks is).length ≠ 0 := mt List.length_eq_zero_iff.mp hopen
    rw [emitAll_of_allFit hfit]
    exact if_pos hdepth
  | encoding hfit hclosed hfirst =>
    have hdepth : ¬ (Instr.openBlocks is).length ≠ 0 :=
      not_not.mpr (List.length_eq_zero_iff.mpr hclosed)
    have herror := mapM_encode_of_first hfirst 0
    rw [Nat.zero_add] at herror
    rw [emitAll_of_allFit hfit]
    refine (if_neg hdepth).trans ?_
    rw [encode, herror]
    rfl

end Body

namespace Builder

/-- The build of a fresh builder on which emitters were called. -/
def buildOf (calls : List Emitter) : Except BuildError Module :=
  ({ new with body := Body.empty.performAll calls } : Builder).build.2

theorem buildOf_eq (calls : List Emitter) :
    buildOf calls = (Body.empty.emitAll (calls.flatMap Emitter.instrs)).close.map fun bytes =>
      Module.ofLayout (Module.layoutOf bytes)
        (Body.empty.emitAll (calls.flatMap Emitter.instrs)).program.toList .standard := by
  rw [buildOf, Body.performAll_eq]
  rfl

theorem buildOf_of_faulty {calls : List Emitter} {err : BuildError}
    (h : Instr.Faulty (calls.flatMap Emitter.instrs) err) : buildOf calls = .error err := by
  rw [buildOf_eq, Body.close_of_faulty h]
  rfl

theorem buildOf_of_wellFormed {calls : List Emitter}
    (h : Instr.WellFormed (calls.flatMap Emitter.instrs)) :
    ∃ m, buildOf calls = .ok m ∧ m.program = calls.flatMap Emitter.instrs := by
  obtain ⟨bytes, hclose⟩ := Body.close_of_wellFormed h
  rw [buildOf_eq, hclose, Body.emitAll_of_allFit h.fit]
  exact ⟨_, rfl, rfl⟩

/-- A build reports a fault exactly if there is one. -/
theorem buildOf_eq_error_iff {calls : List Emitter} {err : BuildError} :
    buildOf calls = .error err ↔ Instr.Faulty (calls.flatMap Emitter.instrs) err := by
  refine ⟨fun h => ?_, buildOf_of_faulty⟩
  rcases Instr.wellFormed_or_faulty (calls.flatMap Emitter.instrs) with hwell | ⟨err', hfaulty⟩
  · obtain ⟨m, hm, _⟩ := buildOf_of_wellFormed hwell
    rw [hm] at h
    contradiction
  · rw [buildOf_of_faulty hfaulty] at h
    exact Except.error.inj h ▸ hfaulty

theorem wellFormed_of_buildOf {calls : List Emitter} {m : Module} (h : buildOf calls = .ok m) :
    Instr.WellFormed (calls.flatMap Emitter.instrs) ∧ m.program = calls.flatMap Emitter.instrs := by
  rcases Instr.wellFormed_or_faulty (calls.flatMap Emitter.instrs) with hwell | ⟨err, hfaulty⟩
  · obtain ⟨m', hm, hprogram⟩ := buildOf_of_wellFormed hwell
    rw [hm] at h
    exact ⟨hwell, Except.ok.inj h ▸ hprogram⟩
  · rw [buildOf_of_faulty hfaulty] at h
    contradiction

end Builder

/-- Well-formed instructions close as many blocks as they open, never more than were opened before,
and branch no further out than blocks are open. -/
theorem Instr.WellFormed.balanced {is : List Instr} (h : WellFormed is) :
    (∀ before, before <+: is → before.countP closes ≤ before.countP opens) ∧
    is.countP closes = is.countP opens ∧
    ∀ before i after, is = before ++ i :: after → i.branches = true →
      ∃ d, i.immediate = some (.uint32 d) ∧
        d.toNat ≤ before.countP opens - before.countP closes := by
  refine ⟨?_, ?_, ?_⟩
  · rintro before ⟨after, rfl⟩
    have hlength := h.fit.of_append.length_openBlocks
    omega
  · have hlength := h.fit.length_openBlocks
    rw [h.closed, List.length_nil] at hlength
    omega
  · rintro before i after rfl hbranch
    obtain ⟨d, hd⟩ := (h.encodable i (by simp)).branch hbranch
    have hlength := h.fit.of_append.length_openBlocks
    have hshallow : ¬ (openBlocks before).length < d.toNat :=
      fun hdeep => h.fit before i after rfl _ (.branchTooDeep hbranch hd hdeep)
    exact ⟨d, hd, by omega⟩

/-- What a build reports after any calls of emitters on a fresh builder. It succeeds exactly if every
instruction fits the blocks that are open before it, no block is left open and every instruction has an
encoding. Otherwise it reports the first misuse and how many instructions were emitted before it, or
else how many blocks are left open, or else the first instruction without an encoding: all instructions
are there as long as none is misused. In the program of a module that was built the blocks are
balanced, and each branch goes no further out than blocks are open. -/
theorem Builder.build_reports_first_fault (calls : List Emitter) :
    let is := calls.flatMap Emitter.instrs
    ((∃ m, buildOf calls = .ok m) ↔
      Instr.AllFit is ∧ Instr.openBlocks is = [] ∧ ∀ i ∈ is, ∃ bytes, i.encode = .ok bytes) ∧
    (∀ err, buildOf calls = .error err ↔
      (∃ n m, err = .misuse n m ∧ Instr.FirstMisuse is n m) ∨
      (err = .openBlocks (Instr.openBlocks is).length ∧ Instr.AllFit is ∧ Instr.openBlocks is ≠ []) ∨
      ∃ n e, err = .encoding n e ∧ Instr.AllFit is ∧ Instr.openBlocks is = [] ∧
        Instr.FirstUnencodable is n e) ∧
    (Instr.AllFit is → (Body.empty.performAll calls).program.toList = is) ∧
    ∀ m, buildOf calls = .ok m → m.program = is ∧
      (∀ before, before <+: m.program →
        before.countP Instr.closes ≤ before.countP Instr.opens) ∧
      m.program.countP Instr.closes = m.program.countP Instr.opens ∧
      ∀ before i after, m.program = before ++ i :: after → i.branches = true →
        ∃ d, i.immediate = some (.uint32 d) ∧
          d.toNat ≤ before.countP Instr.opens - before.countP Instr.closes := by
  intro is
  refine ⟨?_, ?_, ?_, ?_⟩
  · constructor
    · rintro ⟨m, hm⟩
      obtain ⟨hwell, _⟩ := wellFormed_of_buildOf hm
      exact ⟨hwell.fit, hwell.closed, hwell.encodable⟩
    · rintro ⟨hfit, hclosed, hencodable⟩
      obtain ⟨m, hm, _⟩ := buildOf_of_wellFormed ⟨hfit, hclosed, hencodable⟩
      exact ⟨m, hm⟩
  · intro err
    rw [buildOf_eq_error_iff]
    constructor
    · rintro (hfirst | ⟨hfit, hopen⟩ | ⟨hfit, hclosed, hfirst⟩)
      · exact .inl ⟨_, _, rfl, hfirst⟩
      · exact .inr (.inl ⟨rfl, hfit, hopen⟩)
      · exact .inr (.inr ⟨_, _, rfl, hfit, hclosed, hfirst⟩)
    · rintro (⟨n, m, rfl, hfirst⟩ | ⟨rfl, hfit, hopen⟩ | ⟨n, e, rfl, hfit, hclosed, hfirst⟩)
      · exact .misuse hfirst
      · exact .openBlocks hfit hopen
      · exact .encoding hfit hclosed hfirst
  · intro hfit
    rw [Body.performAll_eq, Body.emitAll_of_allFit hfit]
  · intro m hm
    obtain ⟨hwell, hprogram⟩ := wellFormed_of_buildOf hm
    rw [hprogram]
    exact ⟨rfl, hwell.balanced⟩

/-- The stray `end` is reported, and not the block that is left open. -/
example : Builder.buildOf [.i32Const 7, .instr (.op .end_), .instr (.opening .block 0x40)] =
    .error (.misuse 1 .strayEnd) := by rfl

end RuleScan
