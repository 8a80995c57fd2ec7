import Mathlib.Data.Option.Basic
import RuleScan.Bytecode.Code
import RuleScan.Proofs.Leb128

/-!
# Reading instructions back

A token is emitted as an instruction, encoded to bytes, and read back as the same token, provided
its indexes are 32-bit numbers and its block type has a byte of its own. A stream of such tokens is
read back as a whole. Nesting the stream of structured code gives the code back, in front of
whatever follows it in the same block.
-/
namespace RuleScan

/-! ### Operations -/

theorem Numeric.mem_all (n : Numeric) : n ∈ Numeric.all := by
  cases n with
  | relation32 r => cases r <;> decide
  | relation64 r => cases r <;> decide
  | arith32 o => cases o <;> decide
  | arith64 o => cases o <;> decide
  | _ => decide

theorem Opcode.mem_all (o : Opcode) : o ∈ Opcode.all := by
  cases o with
  | numeric n => exact List.mem_append_right _ (List.mem_map_of_mem n.mem_all)
  | _ => decide

/-- No two operations share a byte. -/
@[simp] theorem Opcode.ofByte?_byte (o : Opcode) : Opcode.ofByte? o.byte = some o :=
  (by decide : ∀ o ∈ Opcode.all, Opcode.ofByte? o.byte = some o) o o.mem_all

theorem Instr.encode_byte {o : Opcode} {given : Option Immediate} {bytes : List UInt8}
    (h : Instr.immediateBytes o given = .ok bytes) :
    Instr.encode ⟨o.byte, given⟩ = .ok (o.byte :: bytes) := by
  simp only [Instr.encode, Opcode.ofByte?_byte, h]
  rfl

theorem Token.read_byte (o : Opcode) (bytes : List UInt8) :
    Token.read (o.byte :: bytes) = Token.readOperands o bytes := by
  simp only [Token.read, Opcode.ofByte?_byte, Option.bind_eq_bind, Option.bind_some]

/-! ### Tokens -/

/-- The bytes of a token: its operation and its immediate. -/
def Token.bytes (t : Token) : List UInt8 :=
  match t.instr.encode with
  | .ok bytes => bytes
  | .error _ => []

/-- Every token has an encoding. -/
theorem Token.encode_instr (t : Token) : t.instr.encode = .ok t.bytes := by
  have h : ∃ bytes, t.instr.encode = .ok bytes := by
    cases t with
    | plain p => cases p <;> exact ⟨_, Instr.encode_byte rfl⟩
    | _ => exact ⟨_, Instr.encode_byte rfl⟩
  obtain ⟨bytes, hb⟩ := h
  rw [Token.bytes, hb]

theorem Token.bytes_eq {t : Token} {o : Opcode} {given : Option Immediate} {bytes : List UInt8}
    (hi : t.instr = ⟨o.byte, given⟩) (h : Instr.immediateBytes o given = .ok bytes) :
    t.bytes = o.byte :: bytes := by
  have ht := t.encode_instr
  rw [hi, Instr.encode_byte h] at ht
  exact (Except.ok.inj ht).symm

/-- Whether the byte of a block type stands for that block type only. -/
def BlockType.HasByte : BlockType → Prop
  | .index i => i < 64
  | _ => True

/-- Whether the index in an instruction is a 32-bit number. -/
def Plain.Fits : Plain → Prop
  | .br i | .brIf i | .call i | .localGet i | .localSet i | .localTee i => i < UInt32.size
  | _ => True

/-- Whether a token can be read back from its bytes. -/
def Token.Fits : Token → Prop
  | .plain p => p.Fits
  | .block t | .loop t | .if_ t => t.HasByte
  | _ => True

theorem Token.readIndex_ofNat {i : Nat} (h : i < UInt32.size) (rest : List UInt8) :
    Token.readIndex (Leb128.ofNat (UInt32.ofNat i).toNat ++ rest) = some (i, rest) := by
  rw [UInt32.toNat_ofNat_of_lt' h]
  simp only [Token.readIndex, Leb128.readNat_ofNat, (Option.guard_eq_some' ()).mpr h,
    Option.bind_eq_bind, Option.bind_some]
  rfl

theorem Token.readSigned_ofInt {half : Nat} {n : Int} (h : -(half : Int) ≤ n ∧ n < half)
    (rest : List UInt8) : Token.readSigned half (Leb128.ofInt n ++ rest) = some (n, rest) := by
  simp only [Token.readSigned, Leb128.readInt_ofInt, (Option.guard_eq_some' ()).mpr h,
    Option.bind_eq_bind, Option.bind_some]
  rfl

/-- A single byte as a signed number of 33 bits. -/
theorem Token.readSigned_byte {b : UInt8} {n : Int} (rest : List UInt8)
    (h : b.toNat < 64 ∧ n = b.toNat ∨ 64 ≤ b.toNat ∧ b.toNat < 128 ∧ n = b.toNat - 128) :
    Token.readSigned 0x100000000 (b :: rest) = some (n, rest) := by
  have hr : Leb128.readInt (b :: rest) = some (n, rest) := by
    rw [Leb128.readInt]
    rcases h with ⟨hlow, rfl⟩ | ⟨hge, hlow, rfl⟩
    · rw [if_pos hlow]
    · rw [if_neg (by omega), if_pos hlow]
  have hn : -((0x100000000 : Nat) : Int) ≤ n ∧ n < (0x100000000 : Nat) := by omega
  simp only [Token.readSigned, hr, (Option.guard_eq_some' ()).mpr hn, Option.bind_eq_bind,
    Option.bind_some]
  rfl

theorem Token.readBlockType_byte {t : BlockType} (h : t.HasByte) (rest : List UInt8) :
    Token.readBlockType (t.byte :: rest) = some (t, rest) := by
  cases t with
  | void =>
    rw [Token.readBlockType, Token.readSigned_byte (n := -64) rest (by decide)]
    rfl
  | value v =>
    have hv : 64 ≤ v.byte.toNat ∧ v.byte.toNat < 128 ∧
        BlockType.ofInt? ((v.byte.toNat : Int) - 128) = some (.value v) := by
      cases v <;> decide
    rw [Token.readBlockType, BlockType.byte,
      Token.readSigned_byte rest (.inr ⟨hv.1, hv.2.1, rfl⟩)]
    simp only [Option.bind_eq_bind, Option.bind_some, hv.2.2]
    rfl
  | index i =>
    have hi : i < 64 := h
    have hb : (UInt8.ofNat i).toNat = i :=
      UInt8.toNat_ofNat_of_lt' (by simp only [UInt8.size]; omega)
    rw [Token.readBlockType, BlockType.byte,
      Token.readSigned_byte rest (.inl ⟨hb.symm ▸ hi, rfl⟩)]
    simp [BlockType.ofInt?, hb]

/-- A token is read back from in front of any bytes. -/
theorem Token.read_bytes {t : Token} (h : t.Fits) (rest : List UInt8) :
    Token.read (t.bytes ++ rest) = some (t, rest) := by
  cases t with
  | plain p =>
    cases p with
    | br i | brIf i | call i | localGet i | localSet i | localTee i =>
      rw [Token.bytes_eq rfl rfl, List.cons_append, Token.read_byte]
      simp only [Token.readOperands, Token.readIndex_ofNat h, Option.bind_eq_bind,
        Option.bind_some]
      rfl
    | i32Const v =>
      have hv : -((0x80000000 : Nat) : Int) ≤ v.toInt ∧ v.toInt < (0x80000000 : Nat) :=
        ⟨v.le_toInt, v.toInt_lt⟩
      rw [Token.bytes_eq rfl rfl, List.cons_append, Token.read_byte]
      simp [Token.readOperands, Token.readSigned_ofInt hv]
    | i64Const v =>
      have hv : -((0x8000000000000000 : Nat) : Int) ≤ v.toInt ∧
          v.toInt < (0x8000000000000000 : Nat) := ⟨v.le_toInt, v.toInt_lt⟩
      rw [Token.bytes_eq rfl rfl, List.cons_append, Token.read_byte]
      simp [Token.readOperands, Token.readSigned_ofInt hv]
    | _ =>
      rw [Token.bytes_eq rfl rfl, List.cons_append, Token.read_byte]
      rfl
  | block t | loop t | if_ t =>
    rw [Token.bytes_eq rfl rfl, List.cons_append, Token.read_byte, List.cons_append,
      List.nil_append]
    simp [Token.readOperands, Token.readBlockType_byte (t := t) h]
  | else_ | end_ =>
    rw [Token.bytes_eq rfl rfl, List.cons_append, Token.read_byte]
    rfl

theorem Token.bytes_ne_nil (t : Token) : t.bytes ≠ [] := by
  have h : ∃ (o : Opcode) (bytes : List UInt8), t.bytes = o.byte :: bytes := by
    cases t with
    | plain p => cases p <;> exact ⟨_, _, Token.bytes_eq rfl rfl⟩
    | _ => exact ⟨_, _, Token.bytes_eq rfl rfl⟩
  obtain ⟨o, bytes, hb⟩ := h
  rw [hb]
  exact List.cons_ne_nil _ _

/-! ### Streams -/

theorem Token.length_le_bytes (ts : List Token) : ts.length ≤ (ts.flatMap Token.bytes).length := by
  induction ts with
  | nil => exact Nat.le_refl 0
  | cons t ts ih =>
    have ht := List.length_pos_iff.mpr t.bytes_ne_nil
    rw [List.length_cons, List.flatMap_cons, List.length_append]
    omega

theorem Token.readUpTo_of_le {n m : Nat} {bytes : List UInt8} {ts : List Token}
    (h : Token.readUpTo n bytes = some ts) (hle : n ≤ m) : Token.readUpTo m bytes = some ts := by
  induction n generalizing m bytes ts with
  | zero =>
    cases bytes with
    | nil => cases m <;> exact h
    | cons b rest => contradiction
  | succ n ih =>
    cases bytes with
    | nil => cases m <;> exact h
    | cons b rest =>
      obtain ⟨m, rfl⟩ : ∃ m', m = m' + 1 := ⟨m - 1, by omega⟩
      simp only [Token.readUpTo, Option.bind_eq_bind, Option.bind_eq_some_iff] at h ⊢
      obtain ⟨r, hr, us, hus, hts⟩ := h
      exact ⟨r, hr, us, ih hus (by omega), hts⟩

theorem Token.readUpTo_flatMap {ts us : List Token} {n : Nat} {rest : List UInt8}
    (hfits : ∀ t ∈ ts, t.Fits) (h : Token.readUpTo n rest = some us) :
    Token.readUpTo (ts.length + n) (ts.flatMap Token.bytes ++ rest) = some (ts ++ us) := by
  induction ts with
  | nil => simpa using h
  | cons t ts ih =>
    have hread := Token.read_bytes (hfits t (List.mem_cons_self ..))
      (ts.flatMap Token.bytes ++ rest)
    have hrest := ih fun u hu => hfits u (List.mem_cons_of_mem _ hu)
    have hcount : (t :: ts).length + n = ts.length + n + 1 := by rw [List.length_cons]; omega
    rw [hcount, List.flatMap_cons, List.append_assoc]
    obtain ⟨b, bytes, hb⟩ := List.exists_cons_of_ne_nil t.bytes_ne_nil
    rw [hb, List.cons_append] at hread ⊢
    simp only [Token.readUpTo, hread, hrest, Option.bind_eq_bind, Option.bind_some]
    rfl

/-- A stream is read back in front of a stream that can be read. -/
theorem Token.readAll_append {ts us : List Token} {rest : List UInt8}
    (hfits : ∀ t ∈ ts, t.Fits) (h : Token.readAll rest = some us) :
    Token.readAll (ts.flatMap Token.bytes ++ rest) = some (ts ++ us) := by
  apply Token.readUpTo_of_le (Token.readUpTo_flatMap hfits h)
  have hlen := Token.length_le_bytes ts
  rw [List.length_append]
  omega

/-! ### Nesting -/

namespace Code

/-- One sequence after another. -/
def append : Code → Code → Code
  | done, k => k
  | plain p c, k => plain p (c.append k)
  | block t b c, k => block t b (c.append k)
  | loop t b c, k => loop t b (c.append k)
  | ifThen t b c, k => ifThen t b (c.append k)
  | ifElse t b e c, k => ifElse t b e (c.append k)

@[simp] theorem append_done (c : Code) : c.append done = c := by
  induction c <;> simp_all [append]

theorem tokens_append (c k : Code) : (c.append k).tokens = c.tokens ++ k.tokens := by
  induction c <;> simp_all [append, tokens]

/-- The stream of a sequence nests as that sequence, in front of what follows it in its block. -/
theorem prepend_tokens (c k : Code) (alternative : Option Code) (outer : List Pending) :
    c.tokens.foldrM prepend (⟨k, alternative⟩ :: outer) =
      some (⟨c.append k, alternative⟩ :: outer) := by
  induction c generalizing k alternative outer with
  | done => rfl
  | plain p c ih => simp [tokens, append, ih, prepend]
  | block t b c ihb ihc => simp [tokens, append, ihb, ihc, prepend]
  | loop t b c ihb ihc => simp [tokens, append, ihb, ihc, prepend]
  | ifThen t b c ihb ihc => simp [tokens, append, ihb, ihc, prepend]
  | ifElse t b e c ihb ihe ihc => simp [tokens, append, ihb, ihe, ihc, prepend]

/-- Structured code is recovered from its stream. -/
theorem ofTokens?_tokens (c : Code) : ofTokens? (c.tokens ++ [.end_]) = some c := by
  have h : (c.tokens ++ [Token.end_]).foldrM prepend [] = some [⟨c, none⟩] := by
    rw [List.foldrM_append]
    simpa [prepend] using prepend_tokens c done none []
  rw [ofTokens?, h]

end Code

end RuleScan
