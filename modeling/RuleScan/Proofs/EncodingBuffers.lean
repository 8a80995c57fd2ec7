import RuleScan.Proofs.BuildFaults

/-!
# Encodings in a buffer

An instruction has an encoding exactly if its byte is that of an operation and its immediate is of the
kind that the operation needs. The bytes that it appends do not depend on what the buffer holds, and
tell where they end: whatever is appended in turn is read back by the table of operations, so no two
programs have the same bytes.
-/
namespace RuleScan

/-- The immediates of a kind. -/
inductive ImmediateKind.Takes : ImmediateKind → Option Immediate → Prop where
  | nothing : Takes .nothing none
  | blockType (byte : UInt8) : Takes .blockType (some (.blockType byte))
  | index (i : UInt32) : Takes .index (some (.uint32 i))
  | int32 (v : Int32) : Takes .int32 (some (.int32 v))
  | int64 (v : Int64) : Takes .int64 (some (.int64 v))

theorem Opcode.ofByte?_eq_some_iff {b : UInt8} {op : Opcode} :
    Opcode.ofByte? b = some op ↔ op.byte = b := by
  constructor
  · intro h
    have hbyte : (op.byte == b) = true := List.find?_some (p := fun o : Opcode => o.byte == b) h
    exact eq_of_beq hbyte
  · rintro rfl
    exact Opcode.ofByte?_byte op

namespace Instr

/-- The byte is that of an operation, and the immediate is of the kind that it needs. -/
def Proper (i : Instr) : Prop :=
  ∃ op : Opcode, op.byte = i.opcode ∧ op.immediateKind.Takes i.immediate

theorem immediateBytes_ok_iff {op : Opcode} {given : Option Immediate} :
    (∃ bytes, immediateBytes op given = .ok bytes) ↔ op.immediateKind.Takes given := by
  constructor
  · rintro ⟨bytes, h⟩
    unfold immediateBytes at h
    split at h
    case h_1 hkind => exact hkind ▸ .nothing
    case h_2 => contradiction
    case h_3 b hkind => exact hkind ▸ .blockType b
    case h_4 v hkind => exact hkind ▸ .index v
    case h_5 v hkind => exact hkind ▸ .int32 v
    case h_6 v hkind => exact hkind ▸ .int64 v
    case h_7 => contradiction
  · generalize hkind : op.immediateKind = kind
    intro h
    cases h <;>
    · simp only [immediateBytes, hkind]
      exact ⟨_, rfl⟩

theorem proper_iff_encodable {i : Instr} : i.Proper ↔ i.Encodable := by
  constructor
  · rintro ⟨op, hop, htakes⟩
    obtain ⟨bytes, hbytes⟩ := immediateBytes_ok_iff.mpr htakes
    exact ⟨_, encode_eq_ok.mpr ⟨op, bytes, Opcode.ofByte?_eq_some_iff.mpr hop, hbytes, rfl⟩⟩
  · rintro ⟨bytes, hbytes⟩
    obtain ⟨op, immediate, hop, himmediate, _⟩ := encode_eq_ok.mp hbytes
    exact ⟨op, Opcode.ofByte?_eq_some_iff.mp hop, immediateBytes_ok_iff.mp ⟨_, himmediate⟩⟩

/-- What an instruction appends, whatever the buffer holds. -/
theorem appendTo_cases (i : Instr) :
    (i.Proper ∧ i.encode = .ok i.bytes ∧ ∀ buffer, appendTo buffer i = (buffer ++ i.bytes, none)) ∨
    (¬ i.Proper ∧ (∀ op : Opcode, op.byte ≠ i.opcode) ∧
      ∀ buffer, appendTo buffer i = (buffer, some (.unknownOpcode i.opcode))) ∨
    (¬ i.Proper ∧ (∃ op : Opcode, op.byte = i.opcode) ∧
      ∃ err, ∀ buffer, appendTo buffer i = (buffer ++ [i.opcode], some err)) := by
  have hproper := proper_iff_encodable (i := i)
  cases hop : Opcode.ofByte? i.opcode with
  | none =>
    have hunknown : ∀ op : Opcode, op.byte ≠ i.opcode := by
      intro op hbyte
      rw [Opcode.ofByte?_eq_some_iff.mpr hbyte] at hop
      contradiction
    have hnot : ¬ i.Proper := fun ⟨op, hbyte, _⟩ => hunknown op hbyte
    exact .inr (.inl ⟨hnot, hunknown, fun buffer => by simp only [appendTo, hop]⟩)
  | some op =>
    cases himmediate : immediateBytes op i.immediate with
    | ok immediate =>
      have hencode := encode_eq_ok.mpr ⟨op, immediate, hop, himmediate, rfl⟩
      have hbytes : i.bytes = i.opcode :: immediate := by rw [bytes, hencode]; rfl
      refine .inl ⟨hproper.mpr ⟨_, hencode⟩, hbytes ▸ hencode, fun buffer => ?_⟩
      simp only [appendTo, hop, himmediate, hbytes]
    | error err =>
      have hnot : ¬ i.Proper := by
        rw [hproper]
        rintro ⟨bytes, hbytes⟩
        obtain ⟨op', immediate, hop', hok, _⟩ := encode_eq_ok.mp hbytes
        rw [hop, Option.some.injEq] at hop'
        rw [← hop', himmediate] at hok
        contradiction
      refine .inr (.inr ⟨hnot, ⟨op, Opcode.ofByte?_eq_some_iff.mp hop⟩, err, fun buffer => ?_⟩)
      simp only [appendTo, hop, himmediate]

/-! ### Programs -/

/-- Appends the encodings of instructions in turn, up to the first that has none. -/
def appendAll (buffer : List UInt8) : List Instr → List UInt8 × Option EncodeError
  | [] => (buffer, none)
  | i :: program =>
    match appendTo buffer i with
    | (next, none) => appendAll next program
    | (next, some err) => (next, some err)

theorem appendAll_of_proper {program : List Instr} (h : ∀ i ∈ program, i.Proper)
    (buffer : List UInt8) :
    appendAll buffer program = (buffer ++ program.flatMap bytes, none) := by
  induction program generalizing buffer with
  | nil => simp [appendAll]
  | cons i program ih =>
    obtain ⟨hi, hprogram⟩ := List.forall_mem_cons.mp h
    rcases appendTo_cases i with ⟨_, _, happend⟩ | ⟨hnot, _⟩ | ⟨hnot, _⟩
    · rw [appendAll, happend]
      simp only [ih hprogram, List.flatMap_cons, List.append_assoc]
    · contradiction
    · contradiction

/-- Appending comes to an end without an error only if every instruction has an encoding. -/
theorem proper_of_appendAll {program : List Instr} {buffer : List UInt8}
    (h : (appendAll buffer program).2 = none) : ∀ i ∈ program, i.Proper := by
  induction program generalizing buffer with
  | nil => simp
  | cons i program ih =>
    rw [appendAll] at h
    rcases appendTo_cases i with ⟨hi, _, happend⟩ | ⟨_, _, happend⟩ | ⟨_, _, err, happend⟩
    · rw [happend] at h
      exact List.forall_mem_cons.mpr ⟨hi, ih h⟩
    · rw [happend] at h
      contradiction
    · rw [happend] at h
      contradiction

theorem mapM_encode_of_proper {program : List Instr} (h : ∀ i ∈ program, i.Proper) :
    program.mapM encode = .ok (program.map bytes) := by
  induction program with
  | nil => rfl
  | cons i program ih =>
    obtain ⟨hi, hprogram⟩ := List.forall_mem_cons.mp h
    rcases appendTo_cases i with ⟨_, hencode, _⟩ | ⟨hnot, _⟩ | ⟨hnot, _⟩
    · rw [List.mapM_cons, hencode, ih hprogram]
      rfl
    · contradiction
    · contradiction

/-- Instructions are read back from what they append. -/
theorem readAll_bytes {program : List Instr} (h : ∀ i ∈ program, i.Proper) :
    Layout.readAll read (program.flatMap bytes) = some program := by
  rw [List.flatMap_def]
  exact readAll_encode (mapM_encode_of_proper h)

end Instr

/-- The encoding of a body is what its instructions append to an empty buffer. -/
theorem Body.encode_eq_ok_iff {b : Body} {encoded : List UInt8} :
    b.encode = .ok encoded ↔ Instr.appendAll [] b.program.toList = (encoded, none) := by
  constructor
  · intro h
    simp only [encode, bind, Except.bind] at h
    split at h
    · contradiction
    · rename_i parts hmap
      obtain ⟨hall, rfl⟩ := Instr.mapM_encode_ok (mapM_encode_zipIdx hmap)
      obtain rfl := Except.ok.inj h
      have hproper : ∀ i ∈ b.program.toList, i.Proper :=
        fun i hi => Instr.proper_iff_encodable.mpr ⟨_, hall i hi⟩
      rw [Instr.appendAll_of_proper hproper, List.nil_append, List.flatMap_def]
  · intro h
    have hproper := Instr.proper_of_appendAll (congrArg Prod.snd h)
    obtain ⟨parts, hmap⟩ := mapM_encode_of_encodable
      (fun i hi => Instr.proper_iff_encodable.mp (hproper i hi)) 0
    obtain ⟨_, rfl⟩ := Instr.mapM_encode_ok (mapM_encode_zipIdx hmap)
    rw [Instr.appendAll_of_proper hproper, List.nil_append, List.flatMap_def, Prod.mk.injEq] at h
    rw [encode, hmap, ← h.1]
    rfl

/-- Instructions are uniquely decodable, and encoding only appends. An instruction has an encoding
exactly if its byte is in the table of operations and its immediate is of the kind that the table asks
for. It then appends bytes that do not depend on the buffer; an unknown operation appends nothing, and
one with another immediate its byte alone. Instructions that have an encoding are read back from what
they append in turn, so different programs leave different bytes. The body of a module is encoded in
this way. -/
theorem Instr.encoding_uniquely_decodable :
    (∀ i buffer, (appendTo buffer i).2 = none ↔
      ∃ op : Opcode, op.byte = i.opcode ∧ op.immediateKind.Takes i.immediate) ∧
    (∀ i : Instr,
      (∃ appended, ∀ buffer, appendTo buffer i = (buffer ++ appended, none)) ∨
      ((∀ op : Opcode, op.byte ≠ i.opcode) ∧
        ∀ buffer, appendTo buffer i = (buffer, some (.unknownOpcode i.opcode))) ∨
      ((∃ op : Opcode, op.byte = i.opcode) ∧
        ∃ err, ∀ buffer, appendTo buffer i = (buffer ++ [i.opcode], some err))) ∧
    (∀ program : List Instr, (∀ i ∈ program, i.Proper) →
      ∃ appended, (∀ buffer, appendAll buffer program = (buffer ++ appended, none)) ∧
        Layout.readAll read appended = some program) ∧
    (∀ (program other : List Instr) (buffer : List UInt8), (∀ i ∈ program, i.Proper) →
      (∀ i ∈ other, i.Proper) → program ≠ other →
      (appendAll buffer program).1 ≠ (appendAll buffer other).1) ∧
    ∀ (b : Body) (encoded : List UInt8),
      b.encode = .ok encoded ↔ appendAll [] b.program.toList = (encoded, none) := by
  refine ⟨?_, ?_, ?_, ?_, fun b encoded => Body.encode_eq_ok_iff⟩
  · intro i buffer
    show (appendTo buffer i).2 = none ↔ i.Proper
    rcases appendTo_cases i with ⟨hi, _, happend⟩ | ⟨hnot, _, happend⟩ | ⟨hnot, _, err, happend⟩
    · simp [happend, hi]
    · simp [happend, hnot]
    · simp [happend, hnot]
  · intro i
    rcases appendTo_cases i with ⟨_, _, happend⟩ | ⟨_, hunknown⟩ | ⟨_, hother⟩
    · exact .inl ⟨_, happend⟩
    · exact .inr (.inl hunknown)
    · exact .inr (.inr hother)
  · intro program hproper
    exact ⟨program.flatMap bytes, appendAll_of_proper hproper, readAll_bytes hproper⟩
  · intro program other buffer hproper hother hne hsame
    rw [appendAll_of_proper hproper, appendAll_of_proper hother] at hsame
    have hread := readAll_bytes hproper
    rw [List.append_cancel_left hsame, readAll_bytes hother] at hread
    exact hne (Option.some.inj hread).symm

/-- A number of an operation that takes none stops the row after the byte of the operation. -/
example : Instr.appendAll [0xaa] [.i32Const (-65), ⟨0x1a, some (.int32 1)⟩, .op .nop] =
    ([0xaa, 0x41, 0xbf, 0x7f, 0x1a], some (.superfluous .drop (.int32 1))) := by
  decide +kernel

end RuleScan
