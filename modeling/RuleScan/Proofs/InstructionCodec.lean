import RuleScan.Bytecode.Code
import RuleScan.Module.Builder
import RuleScan.Proofs.InstructionStream
import RuleScan.Proofs.ModuleLayout

/-!
# Instructions have one reading

An instruction that has an encoding is read back from it by the table of operations: the byte of the
operation says what kind of immediate follows. So a program is read back from the encodings of its
instructions in a row, whatever its length, and two programs with the same bytes are the same. Unlike
a token, an instruction keeps the byte of a block type as it is, also one that stands for no type.
-/
namespace RuleScan

namespace Instr

/-- An immediate of a kind, at the start of the bytes. -/
def readImmediate (kind : ImmediateKind) (bytes : List UInt8) :
    Option (Option Immediate × List UInt8) :=
  match kind with
  | .nothing => some (none, bytes)
  | .blockType => bytes.head?.map fun b => (some (.blockType b), bytes.tail)
  | .index => (Token.readIndex bytes).map fun r => (some (.uint32 (UInt32.ofNat r.1)), r.2)
  | .int32 =>
    (Token.readSigned 0x80000000 bytes).map fun r => (some (.int32 (Int32.ofInt r.1)), r.2)
  | .int64 =>
    (Token.readSigned 0x8000000000000000 bytes).map fun r => (some (.int64 (Int64.ofInt r.1)), r.2)

/-- The instruction at the start of the bytes, and the bytes after it. -/
def read : List UInt8 → Option (Instr × List UInt8)
  | [] => none
  | b :: rest => do
    let op ← Opcode.ofByte? b
    let (immediate, rest) ← readImmediate op.immediateKind rest
    return (⟨b, immediate⟩, rest)

/-- The bytes of an instruction; none if it has no encoding. -/
def bytes (i : Instr) : List UInt8 := i.encode.toOption.getD []

theorem encode_eq_ok {i : Instr} {encoded : List UInt8} :
    i.encode = .ok encoded ↔ ∃ op immediate, Opcode.ofByte? i.opcode = some op ∧
      immediateBytes op i.immediate = .ok immediate ∧ encoded = i.opcode :: immediate := by
  constructor
  · intro h
    unfold encode at h
    split at h
    · contradiction
    · rename_i op hop
      cases himmediate : immediateBytes op i.immediate with
      | error err =>
        rw [himmediate] at h
        contradiction
      | ok immediate =>
        rw [himmediate] at h
        exact ⟨op, immediate, hop, himmediate, (Except.ok.inj h).symm⟩
  · rintro ⟨op, immediate, hop, himmediate, rfl⟩
    simp only [encode, hop, himmediate]
    rfl

/-- An immediate of the kind that its operation needs is read back from in front of any bytes. -/
theorem readImmediate_bytes {op : Opcode} {given : Option Immediate} {encoded : List UInt8}
    (h : immediateBytes op given = .ok encoded) (rest : List UInt8) :
    readImmediate op.immediateKind (encoded ++ rest) = some (given, rest) := by
  unfold immediateBytes at h
  split at h
  · rename_i hkind
    rw [hkind, ← Except.ok.inj h]
    rfl
  · contradiction
  · rename_i b hkind
    rw [hkind, ← Except.ok.inj h]
    rfl
  · rename_i v hkind
    have hread := Token.readIndex_ofNat v.toNat_lt rest
    rw [UInt32.ofNat_toNat] at hread
    simp only [hkind, ← Except.ok.inj h, readImmediate, hread, Option.map_some, UInt32.ofNat_toNat]
  · rename_i v hkind
    have hv : -((0x80000000 : Nat) : Int) ≤ v.toInt ∧ v.toInt < (0x80000000 : Nat) :=
      ⟨v.le_toInt, v.toInt_lt⟩
    simp only [hkind, ← Except.ok.inj h, readImmediate, Token.readSigned_ofInt hv, Option.map_some,
      Int32.ofInt_toInt]
  · rename_i v hkind
    have hv : -((0x8000000000000000 : Nat) : Int) ≤ v.toInt ∧
        v.toInt < (0x8000000000000000 : Nat) := ⟨v.le_toInt, v.toInt_lt⟩
    simp only [hkind, ← Except.ok.inj h, readImmediate, Token.readSigned_ofInt hv, Option.map_some,
      Int64.ofInt_toInt]
  · contradiction

/-- An instruction is read back from in front of any bytes. -/
theorem read_encode {i : Instr} {encoded : List UInt8} (h : i.encode = .ok encoded)
    (rest : List UInt8) : read (encoded ++ rest) = some (i, rest) := by
  obtain ⟨op, immediate, hop, hbytes, rfl⟩ := encode_eq_ok.mp h
  simp only [List.cons_append, read, hop, readImmediate_bytes hbytes, Option.bind_eq_bind,
    Option.bind_some]
  rfl

/-! ### Programs -/

/-- What encoding a program gives: every instruction has an encoding. -/
theorem mapM_encode_ok {program : List Instr} {parts : List (List UInt8)}
    (h : program.mapM encode = .ok parts) :
    (∀ i ∈ program, i.encode = .ok i.bytes) ∧ parts = program.map bytes := by
  induction program generalizing parts with
  | nil => exact ⟨by simp, (Except.ok.inj h).symm⟩
  | cons i program ih =>
    rw [List.mapM_cons] at h
    cases hi : i.encode with
    | error err =>
      rw [hi] at h
      contradiction
    | ok encoded =>
      cases hrest : program.mapM encode with
      | error err =>
        rw [hi, hrest] at h
        contradiction
      | ok others =>
        rw [hi, hrest] at h
        obtain ⟨hall, rfl⟩ := ih hrest
        have hbytes : i.bytes = encoded := by rw [bytes, hi]; rfl
        refine ⟨List.forall_mem_cons.mpr ⟨by rw [hi, hbytes], hall⟩, ?_⟩
        rw [List.map_cons, hbytes]
        exact (Except.ok.inj h).symm

/-- A program is read back from the encodings of its instructions in a row. -/
theorem readAll_encode {program : List Instr} {parts : List (List UInt8)}
    (h : program.mapM encode = .ok parts) : Layout.readAll read parts.flatten = some program := by
  obtain ⟨hall, rfl⟩ := mapM_encode_ok h
  rw [← List.flatMap_def]
  refine Layout.readAll_flatMap ?_
  intro i hi
  obtain ⟨op, immediate, _, _, hbytes⟩ := encode_eq_ok.mp (hall i hi)
  refine ⟨?_, fun rest => read_encode (hall i hi) rest⟩
  rw [hbytes]
  exact List.cons_ne_nil _ _

/-- Programs with the same bytes are the same. -/
theorem eq_of_flatten_eq {program other : List Instr} {parts otherParts : List (List UInt8)}
    (h : program.mapM encode = .ok parts) (hother : other.mapM encode = .ok otherParts)
    (hsame : parts.flatten = otherParts.flatten) : program = other := by
  have hread := readAll_encode h
  rw [hsame, readAll_encode hother] at hread
  exact (Option.some.inj hread).symm

end Instr

theorem Body.mapM_encode_zipIdx {program : List Instr} {n : Nat} {parts : List (List UInt8)}
    (h : (program.zipIdx n).mapM (fun (i, n) => i.encode.mapError (BuildError.encoding n)) =
      .ok parts) : program.mapM Instr.encode = .ok parts := by
  induction program generalizing n parts with
  | nil => exact congrArg Except.ok (Except.ok.inj h)
  | cons i program ih =>
    rw [List.zipIdx_cons, List.mapM_cons] at h
    rw [List.mapM_cons]
    cases hi : i.encode with
    | error err =>
      simp only [hi] at h
      contradiction
    | ok encoded =>
      simp only [hi] at h
      cases hrest : (program.zipIdx (n + 1)).mapM
          (fun (i, n) => i.encode.mapError (BuildError.encoding n)) with
      | error err =>
        rw [hrest] at h
        contradiction
      | ok others =>
        rw [hrest] at h
        rw [ih hrest]
        exact congrArg Except.ok (Except.ok.inj h)

/-- A body that can be closed is encoded instruction by instruction. -/
theorem Body.close_ok {b : Body} {encoded : List UInt8} (h : b.close = .ok encoded) :
    b.misuse = none ∧ b.depth = 0 ∧
      ∃ parts, b.program.toList.mapM Instr.encode = .ok parts ∧ encoded = parts.flatten := by
  unfold close at h
  split at h
  · contradiction
  · rename_i hmisuse
    split at h
    · contradiction
    · rename_i hdepth
      unfold encode at h
      cases hparts : b.program.toList.zipIdx.mapM
          (fun (i, n) => i.encode.mapError (BuildError.encoding n)) with
      | error err =>
        rw [hparts] at h
        contradiction
      | ok parts =>
        rw [hparts] at h
        exact ⟨hmisuse, Decidable.not_not.mp hdepth, parts, mapM_encode_zipIdx hparts,
          (Except.ok.inj h).symm⟩

end RuleScan
