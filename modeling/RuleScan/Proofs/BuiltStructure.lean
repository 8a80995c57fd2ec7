import RuleScan.Proofs.EncodingBuffers
import RuleScan.Proofs.EngineHistory
import RuleScan.Proofs.ModuleBinary
import RuleScan.Proofs.NestedStreams

/-!
# The structure of built bodies

The body of a built module is nested, but a conditional in it can have more than one alternative, and
then no engine compiles the module. A machine that reads the body can take a block type of several
bytes and miss the instruction after its opening; in a valid body this is a plain one, so the blocks
are not affected.
-/
namespace RuleScan

/-! ### Reading a body -/

namespace Leb128

variable {b : UInt8} {rest after : List UInt8} {n : Int}

theorem readInt_cases (h : readInt (b :: rest) = some (n, after)) :
    (after = rest ∧ b.toNat < 128 ∧ (n = b.toNat ∨ n = (b.toNat : Int) - 128)) ∨
    (128 ≤ b.toNat ∧ ∃ m, readInt rest = some (m, after) ∧ n = (b.toNat : Int) - 128 + 128 * m) := by
  rw [readInt] at h
  split at h
  · obtain ⟨rfl, rfl⟩ := Prod.mk.inj (Option.some.inj h)
    exact .inl ⟨rfl, by omega, .inl rfl⟩
  · split at h
    · obtain ⟨rfl, rfl⟩ := Prod.mk.inj (Option.some.inj h)
      exact .inl ⟨rfl, by omega, .inr rfl⟩
    · obtain ⟨⟨m, after'⟩, hm, hn⟩ := Option.bind_eq_some_iff.mp h
      obtain ⟨rfl, rfl⟩ := Prod.mk.inj (Option.some.inj hn)
      exact .inr ⟨by omega, m, hm, rfl⟩

/-- If a number from -64 to 63 takes several bytes, the second says nothing but its sign. -/
theorem readInt_small (h : readInt (b :: rest) = some (n, after)) (hlow : -64 ≤ n)
    (hhigh : n < 64) :
    after = rest ∨ ∃ c tail, rest = c :: tail ∧
      ((c = 0x00 ∨ c = 0x7f) ∧ after = tail ∨ c = 0x80 ∨ c = 0xff) := by
  have hb := b.toNat_lt
  rcases readInt_cases h with ⟨rfl, _⟩ | ⟨hmore, m, hm, hn⟩
  · exact .inl rfl
  · have hsign : m = 0 ∨ m = -1 := by omega
    cases rest with
    | nil => contradiction
    | cons c tail =>
      have hc := c.toNat_lt
      have hbyte (v : UInt8) (hv : c.toNat = v.toNat) : c = v := UInt8.toNat_inj.mp hv
      refine .inr ⟨c, tail, rfl, ?_⟩
      rcases readInt_cases hm with ⟨rfl, hlast, hvalue⟩ | ⟨hmore', k, _, hvalue⟩
      · have hc' : c.toNat = 0 ∨ c.toNat = 127 := by omega
        exact .inl ⟨hc'.imp (hbyte 0x00) (hbyte 0x7f), rfl⟩
      · have hc' : c.toNat = 128 ∨ c.toNat = 255 := by omega
        exact .inr (hc'.imp (hbyte 0x80) (hbyte 0xff))

end Leb128

/-- An instruction that has an encoding is that of a token which is read back, or opens a block of a
type that may not be one. -/
theorem Instr.Proper.token {i : Instr} (h : i.Proper) :
    (∃ t : Token, t.Fits ∧ t.instr = i) ∨
      ∃ o b, (o = .block ∨ o = .loop ∨ o = .if_) ∧ i = .opening o b := by
  obtain ⟨op, hop, htakes⟩ := h
  obtain ⟨byte, immediate⟩ := i
  obtain rfl : op.byte = byte := hop
  have hindexed (o : Opcode) (v : UInt32) :
      Instr.indexed o (UInt32.ofNat v.toNat) = ⟨o.byte, some (.uint32 v)⟩ := by
    rw [UInt32.ofNat_toNat, Instr.indexed]
  cases op with
  | block | loop | if_ =>
    cases htakes with
    | blockType b => exact .inr ⟨_, b, by simp, rfl⟩
  | br =>
    cases htakes with
    | index v => exact .inl ⟨.plain (.br v.toNat), v.toNat_lt, hindexed _ v⟩
  | brIf =>
    cases htakes with
    | index v => exact .inl ⟨.plain (.brIf v.toNat), v.toNat_lt, hindexed _ v⟩
  | call =>
    cases htakes with
    | index v => exact .inl ⟨.plain (.call v.toNat), v.toNat_lt, hindexed _ v⟩
  | localGet =>
    cases htakes with
    | index v => exact .inl ⟨.plain (.localGet v.toNat), v.toNat_lt, hindexed _ v⟩
  | localSet =>
    cases htakes with
    | index v => exact .inl ⟨.plain (.localSet v.toNat), v.toNat_lt, hindexed _ v⟩
  | localTee =>
    cases htakes with
    | index v => exact .inl ⟨.plain (.localTee v.toNat), v.toNat_lt, hindexed _ v⟩
  | i32Const =>
    cases htakes with
    | int32 v => exact .inl ⟨.plain (.i32Const v), trivial, rfl⟩
  | i64Const =>
    cases htakes with
    | int64 v => exact .inl ⟨.plain (.i64Const v), trivial, rfl⟩
  | unreachable => cases htakes; exact .inl ⟨.plain .unreachable, trivial, rfl⟩
  | nop => cases htakes; exact .inl ⟨.plain .nop, trivial, rfl⟩
  | else_ => cases htakes; exact .inl ⟨.else_, trivial, rfl⟩
  | end_ => cases htakes; exact .inl ⟨.end_, trivial, rfl⟩
  | return_ => cases htakes; exact .inl ⟨.plain .return_, trivial, rfl⟩
  | drop => cases htakes; exact .inl ⟨.plain .drop, trivial, rfl⟩
  | select => cases htakes; exact .inl ⟨.plain .select, trivial, rfl⟩
  | numeric n => cases htakes; exact .inl ⟨.plain (.numeric n), trivial, rfl⟩

namespace Token

variable {b : UInt8} {rest after : List UInt8}

theorem readBlockType_after {t : BlockType} (h : readBlockType (b :: rest) = some (t, after))
    (ht : t.HasByte) :
    after = rest ∨ ∃ c tail, rest = c :: tail ∧
      ((c = 0x00 ∨ c = 0x7f) ∧ after = tail ∨ c = 0x80 ∨ c = 0xff) := by
  simp only [readBlockType, readSigned, Option.bind_eq_bind, Option.bind_eq_some_iff] at h
  obtain ⟨⟨n, after'⟩, ⟨⟨m, after''⟩, hread, _, _, hsame⟩, t', ht', hresult⟩ := h
  obtain ⟨rfl, rfl⟩ := Prod.mk.inj (Option.some.inj hsame)
  obtain ⟨rfl, rfl⟩ := Prod.mk.inj (Option.some.inj hresult)
  unfold BlockType.ofInt? at ht'
  split at ht'
  · obtain rfl := Option.some.inj ht'
    have hsmall : m.toNat < 64 := ht
    exact Leb128.readInt_small hread (by omega) (by omega)
  · split at ht'
    · exact Leb128.readInt_small hread (by omega) (by omega)
    · split at ht'
      · exact Leb128.readInt_small hread (by omega) (by omega)
      · contradiction

theorem read_opening {o : Opcode} (ho : o = .block ∨ o = .loop ∨ o = .if_) {t : Token}
    (h : read (o.byte :: b :: rest) = some (t, after)) (ht : t.Fits) :
    t.instr.opens = true ∧ (after = rest ∨ ∃ c tail, rest = c :: tail ∧
      ((c = 0x00 ∨ c = 0x7f) ∧ after = tail ∨ c = 0x80 ∨ c = 0xff)) := by
  rw [read_byte] at h
  rcases ho with rfl | rfl | rfl <;>
  · simp only [readOperands, Option.bind_eq_bind, Option.bind_eq_some_iff] at h
    obtain ⟨⟨type, after'⟩, htype, hresult⟩ := h
    obtain ⟨rfl, rfl⟩ := Prod.mk.inj (Option.some.inj hresult)
    exact ⟨by simp [instr, Instr.opens, Instr.opener?, Instr.opening], readBlockType_after htype ht⟩

end Token

/-! ### Bodies with a second alternative -/

/-- The instructions that a block type of several bytes can hide are plain, and one byte each. -/
theorem Instr.Proper.hidden {i : Instr} (h : i.Proper) (hi : i.opcode = 0x00 ∨ i.opcode = 0x7f) :
    i.bytes = [i.opcode] ∧ i.isPlain = true := by
  have hunreachable : Opcode.ofByte? 0x00 = some .unreachable := by decide
  have hdiv : Opcode.ofByte? 0x7f = some (.numeric (.arith64 .div)) := by decide
  obtain ⟨op, hop, htakes⟩ := h
  obtain ⟨byte, immediate⟩ := i
  have hop := Opcode.ofByte?_eq_some_iff.mpr hop
  rcases hi with rfl | rfl
  · obtain rfl := Option.some.inj (hunreachable.symm.trans hop)
    cases htakes
    exact ⟨rfl, rfl⟩
  · obtain rfl := Option.some.inj (hdiv.symm.trans hop)
    cases htakes
    exact ⟨rfl, rfl⟩

/-- What comes after the opening of a block with a type of several bytes: in a body that is read to
its end this is an instruction that the type can hide. -/
theorem Instr.hidden_of_second_byte {program : List Instr} (hproper : ∀ i ∈ program, i.Proper)
    {c : UInt8} {tail after : List UInt8}
    (hrest : program.flatMap Instr.bytes ++ [Opcode.end_.byte] = c :: tail)
    (hc : (c = 0x00 ∨ c = 0x7f) ∧ after = tail ∨ c = 0x80 ∨ c = 0xff) :
    ∃ i others, program = i :: others ∧ i.isPlain = true ∧
      after = others.flatMap Instr.bytes ++ [Opcode.end_.byte] := by
  cases program with
  | nil =>
    obtain ⟨rfl, _⟩ := List.cons.inj hrest
    rcases hc with ⟨hc | hc, _⟩ | hc | hc <;> exact absurd hc (by decide)
  | cons i others =>
    have hi := hproper i List.mem_cons_self
    obtain ⟨bytes, hbytes⟩ := proper_iff_encodable.mp hi
    obtain ⟨op, immediate, hop, _, rfl⟩ := encode_eq_ok.mp hbytes
    have hfirst : i.bytes = i.opcode :: immediate := by rw [Instr.bytes, hbytes]; rfl
    rw [List.flatMap_cons, hfirst, List.cons_append, List.cons_append] at hrest
    obtain ⟨rfl, htail⟩ := List.cons.inj hrest
    have hunknown : Opcode.ofByte? 0x80 = none ∧ Opcode.ofByte? 0xff = none := by decide
    rcases hc with ⟨hopcode, rfl⟩ | hbyte | hbyte
    · obtain ⟨hone, hplain⟩ := hi.hidden hopcode
      have himmediate : immediate = [] := List.tail_eq_of_cons_eq (hfirst.symm.trans hone)
      refine ⟨i, others, rfl, hplain, ?_⟩
      rw [← htail, himmediate, List.nil_append]
    · rw [hbyte, hunknown.1] at hop
      contradiction
    · rw [hbyte, hunknown.2] at hop
      contradiction

namespace Token

theorem readUpTo_eq_some {count : Nat} {bytes : List UInt8} {ts : List Token}
    (h : readUpTo count bytes = some ts) (hne : bytes ≠ []) :
    ∃ n t rest us, read bytes = some (t, rest) ∧ readUpTo n rest = some us ∧ ts = t :: us := by
  obtain ⟨b, bytes, rfl⟩ := List.exists_cons_of_ne_nil hne
  cases count with
  | zero => contradiction
  | succ n =>
    simp only [readUpTo, Option.bind_eq_bind, Option.bind_eq_some_iff] at h
    obtain ⟨⟨t, rest⟩, hread, us, hus, hts⟩ := h
    exact ⟨n, t, rest, us, hread, hus, (Option.some.inj hts).symm⟩

theorem bytes_instr (t : Token) : t.instr.bytes = t.bytes := by
  rw [Instr.bytes, t.encode_instr]
  rfl

/-- Reading a body as tokens keeps the alternatives that begin in it. -/
theorem beginsOnce_of_readUpTo {program : List Instr} (hproper : ∀ i ∈ program, i.Proper)
    {count : Nat} {ts : List Token}
    (hread : readUpTo count (program.flatMap Instr.bytes ++ [Opcode.end_.byte]) = some ts)
    (hfits : ∀ t ∈ ts, t.Fits) {counts : List Nat}
    (honce : Instr.BeginsOnce counts (ts.map Token.instr)) : Instr.BeginsOnce counts program := by
  -- an opening can take the instruction after it along, so the induction is on the length
  generalize hlength : program.length = length
  induction length using Nat.strongRecOn generalizing program count ts counts with
  | ind length ih =>
    cases program with
    | nil => trivial
    | cons i program =>
      obtain ⟨hi, hprogram⟩ := List.forall_mem_cons.mp hproper
      rw [List.length_cons] at hlength
      rw [List.flatMap_cons, List.append_assoc] at hread
      obtain ⟨n, t, rest, us, hfirst, hus, rfl⟩ := readUpTo_eq_some hread (by simp)
      obtain ⟨ht, husfits⟩ := List.forall_mem_cons.mp hfits
      obtain ⟨hzero, honce⟩ := honce
      rcases hi.token with ⟨t', ht', rfl⟩ | ⟨o, b, ho, rfl⟩
      · rw [bytes_instr, read_bytes ht'] at hfirst
        obtain ⟨rfl, rfl⟩ := Prod.mk.inj (Option.some.inj hfirst)
        exact ⟨hzero, ih program.length (by omega) hprogram hus husfits honce rfl⟩
      · have hbytes : (Instr.opening o b).bytes = [o.byte, b] := by
          rcases ho with rfl | rfl | rfl <;> rfl
        have hopens : (Instr.opening o b).opens = true := by
          rcases ho with rfl | rfl | rfl <;> rfl
        rw [hbytes] at hfirst
        obtain ⟨htopens, hafter⟩ := read_opening ho hfirst ht
        rw [Instr.tally_opens htopens] at honce
        rw [Instr.beginsOnce_cons (Instr.alternates_of_opens hopens), Instr.tally_opens hopens]
        rcases hafter with rfl | ⟨c, tail, hrest, hc⟩
        · exact ih program.length (by omega) hprogram hus husfits honce rfl
        · obtain ⟨j, others, rfl, hj, rfl⟩ := Instr.hidden_of_second_byte hprogram hrest hc
          obtain ⟨_, hothers⟩ := List.forall_mem_cons.mp hprogram
          rw [List.length_cons] at hlength
          rw [Instr.beginsOnce_cons (Instr.isPlain_iff.mp hj).2.1, Instr.tally_plain hj]
          exact ih others.length (by omega) hothers hus husfits honce rfl

theorem length_of_readUpTo {count : Nat} {bytes : List UInt8} {ts : List Token}
    (h : readUpTo count bytes = some ts) : ts.length ≤ count := by
  induction count generalizing bytes ts with
  | zero =>
    cases bytes with
    | nil => exact Nat.le_of_eq (congrArg List.length (Option.some.inj h)).symm
    | cons b bytes => contradiction
  | succ count ih =>
    cases bytes with
    | nil =>
      obtain rfl := Option.some.inj h
      exact Nat.zero_le _
    | cons b bytes =>
      simp only [readUpTo, Option.bind_eq_bind, Option.bind_eq_some_iff] at h
      obtain ⟨r, _, us, hus, hts⟩ := h
      obtain rfl := Option.some.inj hts
      exact Nat.succ_le_succ (ih hus)

end Token

/-- A body whose encoding is valid has no conditional with a second alternative. -/
theorem Executable.beginsOnce_of_ofBinary? {program : List Instr} (hproper : ∀ i ∈ program, i.Proper)
    {hash : String} {x : Executable}
    (h : ofBinary? hash (Module.layoutOf (program.flatMap Instr.bytes)).encode = some x) :
    Instr.BeginsOnce [] program := by
  obtain ⟨ts, code, hsize, hread, hnest, hvalid, _⟩ := ofBinary?_layoutOf.mp h
  obtain rfl := Code.eq_tokens_of_ofTokens? hnest
  obtain ⟨last, hcheck, _⟩ := Code.check_of_isValidBody hvalid
  have hcount := Token.length_of_readUpTo hread
  have hlabels : (mainScope.inside mainScope.results).labels.length = 1 := rfl
  rw [List.length_append, List.length_append, List.length_singleton, List.length_singleton] at hcount
  have hfits := Code.fits_of_check hcheck (mainScope_small.inside _) (by omega)
  refine Token.beginsOnce_of_readUpTo hproper hread ?_ ?_
  · exact List.forall_mem_append.mpr ⟨hfits, List.forall_mem_singleton.mpr trivial⟩
  · rw [List.map_append, Instr.beginsOnce_append]
    have hend := (Instr.of_closes Token.closes_end).2
    exact ⟨code.structured_instrs.beginsOnce [], (Instr.beginsOnce_cons hend).mpr trivial⟩

namespace Builder

variable {calls : List Emitter} {m : Module}

theorem nested_of_buildOf (h : buildOf calls = .ok m) : Instr.Nested 0 m.program := by
  obtain ⟨hwell, hprogram⟩ := wellFormed_of_buildOf h
  rw [hprogram]
  exact hwell.fit.nested hwell.closed

theorem proper_of_buildOf (h : buildOf calls = .ok m) : ∀ i ∈ m.program, i.Proper := by
  obtain ⟨hwell, hprogram⟩ := wellFormed_of_buildOf h
  rw [hprogram]
  exact fun i hi => Instr.proper_iff_encodable.mpr (hwell.encodable i hi)

/-- The binary of a built module with a second alternative is not valid. -/
theorem ofBinary?_of_repeatsElse (h : buildOf calls = .ok m)
    (hrepeats : Instr.RepeatsElse m.program) : Executable.ofBinary? m.hash m.binary = none := by
  obtain ⟨parts, hparts, hbinary⟩ := Module.binary_of_build h
  obtain ⟨_, rfl⟩ := Instr.mapM_encode_ok hparts
  rw [← List.flatMap_def] at hbinary
  cases hx : Executable.ofBinary? m.hash m.binary with
  | none => rfl
  | some x =>
    rw [hbinary] at hx
    have honce := Executable.beginsOnce_of_ofBinary? (proper_of_buildOf h) hx
    exact absurd honce (hrepeats.not_beginsOnce [])

end Builder

/-- No engine compiles a module whose binary is not valid. -/
theorem Engine.Reached.compile_of_invalid {history : List Module} {e : Engine} {m : Module}
    (h : Reached history e) (hdistinct : ∀ m' ∈ history, m'.hash = m.hash → m'.binary = m.binary)
    (hinvalid : Executable.ofBinary? m.hash m.binary = none) :
    (e.compile (some m)).2 = .error .refused := by
  rw [h.compile_eq_compileFresh hdistinct, compileFresh, hinvalid]
  exact ite_self _

/-- Every instruction that has an encoding is that of a token. -/
theorem Instr.exists_tokens {program : List Instr} (h : ∀ i ∈ program, i.Proper) :
    ∃ ts : List Token, ts.map Token.instr = program := by
  induction program with
  | nil => exact ⟨[], rfl⟩
  | cons i program ih =>
    obtain ⟨hi, hprogram⟩ := List.forall_mem_cons.mp h
    obtain ⟨ts, rfl⟩ := ih hprogram
    rcases hi.token with ⟨t, _, rfl⟩ | ⟨o, b, ho, rfl⟩
    · exact ⟨t :: ts, rfl⟩
    · have hbyte : (BlockType.index b.toNat).byte = b := UInt8.ofNat_toNat
      rcases ho with rfl | rfl | rfl
      · exact ⟨.block (.index b.toNat) :: ts, by simp [Token.instr, hbyte]⟩
      · exact ⟨.loop (.index b.toNat) :: ts, by simp [Token.instr, hbyte]⟩
      · exact ⟨.if_ (.index b.toNat) :: ts, by simp [Token.instr, hbyte]⟩

/-- The structure of the body of a built module, after any calls of emitters. Its blocks are nested
and only conditionals have alternatives, but a conditional can have more than one. The body is a
sentence of the grammar exactly if none has, and exactly then its tokens nest. If it is not a sentence,
the binary of the module is not valid and every engine refuses it, unless it compiled another module
of the same hash. -/
theorem Builder.built_body_structure {calls : List Emitter} {m : Module}
    (hbuild : buildOf calls = .ok m) :
    Instr.Nested 0 m.program ∧
    (Instr.Structured m.program ↔ ¬ Instr.RepeatsElse m.program) ∧
    (∃ ts : List Token, ts.map Token.instr = m.program) ∧
    (∀ ts : List Token, ts.map Token.instr = m.program →
      ((∃ code, Code.ofTokens? (ts ++ [.end_]) = some code) ↔ Instr.Structured m.program)) ∧
    (¬ Instr.Structured m.program → Executable.ofBinary? m.hash m.binary = none ∧
      ∀ history e, Engine.Reached history e →
        (∀ m' ∈ history, m'.hash = m.hash → m'.binary = m.binary) →
        (e.compile (some m)).2 = .error .refused) := by
  have hnested := nested_of_buildOf hbuild
  refine ⟨hnested, hnested.structured_iff, Instr.exists_tokens (proper_of_buildOf hbuild), ?_, ?_⟩
  · intro ts hts
    rw [← hts]
    exact Code.nests_iff
  · intro hnot
    have hrepeats : Instr.RepeatsElse m.program := not_not.mp (mt hnested.structured_iff.mpr hnot)
    have hinvalid := ofBinary?_of_repeatsElse hbuild hrepeats
    exact ⟨hinvalid, fun _ _ hreached hdistinct => hreached.compile_of_invalid hdistinct hinvalid⟩

/-- A conditional with an alternative, and a loop and a block in its arms. -/
def Builder.dividedOnce : List Emitter :=
  [.i32Const 1, .instr (.opening .if_ 0x40), .instr (.opening .loop 0x40), .instr (.op .end_),
    .instr (.op .else_), .instr (.opening .block 0x40), .instr (.op .end_), .instr (.op .end_)]

theorem Builder.structured_dividedOnce :
    ∃ m, buildOf dividedOnce = .ok m ∧ Instr.Structured m.program := by
  let code : Code := .plain (.i32Const 1)
    (.ifElse .void (.loop .void .done .done) (.block .void .done .done) .done)
  obtain ⟨m, hm⟩ : ∃ m, buildOf dividedOnce = .ok m := ⟨_, rfl⟩
  have hprogram : code.instrs = m.program := (wellFormed_of_buildOf hm).2.symm
  obtain ⟨_, _, _, hnests, _⟩ := built_body_structure hm
  exact ⟨m, hm, (hnests code.tokens hprogram).mp ⟨code, Code.ofTokens?_tokens code⟩⟩

/-- A conditional with two alternatives. -/
def Builder.dividedTwice : List Emitter :=
  [.i32Const 1, .instr (.opening .if_ 0x40), .instr (.op .else_), .instr (.op .else_),
    .instr (.op .end_)]

/-- A module with a second alternative is built, and a new engine refuses it. -/
theorem Builder.build_dividedTwice :
    ∃ m e, buildOf dividedTwice = .ok m ∧ ¬ Instr.Structured m.program ∧
      Engine.new [] = .ok e ∧ (e.compile (some m)).2 = .error .refused := by
  obtain ⟨m, hm⟩ : ∃ m, buildOf dividedTwice = .ok m := ⟨_, rfl⟩
  have hprogram := (wellFormed_of_buildOf hm).2
  have hrepeats : Instr.RepeatsElse m.program :=
    ⟨[.i32Const 1, .opening .if_ 0x40], .op .else_, [], .op .else_, [.op .end_], hprogram,
      rfl, .nil, rfl⟩
  have hnew : Engine.new [] = .ok (.fresh .default) := rfl
  refine ⟨m, _, hm, fun h => ?_, hnew, ?_⟩
  · exact (nested_of_buildOf hm).structured_iff.mp h hrepeats
  · exact (Engine.Reached.new hnew).compile_of_invalid (fun _ hmem => absurd hmem List.not_mem_nil)
      (ofBinary?_of_repeatsElse hm hrepeats)

end RuleScan
