import RuleScan.Bytecode.Leb128

/-!
# Reading LEB128 numbers back

A number that was written is read back from in front of any other bytes, which are left untouched.
This holds for naturals and for integers of any size; the width of a field is checked by whoever
reads it.
-/
namespace RuleScan.Leb128

/-- A small natural number is one byte. -/
theorem ofNat_of_lt {n : Nat} (h : n < 128) : ofNat n = [UInt8.ofNat n] := by
  rw [ofNat, if_pos h]

/-- A natural number is read back, and the bytes after it are left. -/
theorem readNat_ofNat (n : Nat) (rest : List UInt8) :
    readNat (ofNat n ++ rest) = some (n, rest) := by
  induction n using Nat.strongRecOn with
  | ind n ih =>
    rw [ofNat]
    by_cases hn : n < 128
    · have hb : (UInt8.ofNat n).toNat = n :=
        UInt8.toNat_ofNat_of_lt' (by simp only [UInt8.size]; omega)
      simp only [if_pos hn, List.cons_append, List.nil_append, readNat, hb]
    · have hb : (UInt8.ofNat (n % 128 + 128)).toNat = n % 128 + 128 :=
        UInt8.toNat_ofNat_of_lt' (by simp only [UInt8.size]; omega)
      have hbig : ¬ n % 128 + 128 < 128 := by omega
      have hsum : n % 128 + 128 - 128 + 128 * (n / 128) = n := by omega
      simp only [if_neg hn, List.cons_append, readNat, hb, if_neg hbig, ih (n / 128) (by omega),
        Option.bind_eq_bind, Option.bind_some, hsum]
      rfl

/-- An integer is read back, and the bytes after it are left. The sign is the bit of value 64 of
the last byte, which the shortest form keeps free. -/
theorem readInt_ofInt (n : Int) (rest : List UInt8) :
    readInt (ofInt n ++ rest) = some (n, rest) := by
  generalize hm : n.natAbs = m
  induction m using Nat.strongRecOn generalizing n with
  | ind m ih =>
    rw [ofInt]
    by_cases hn : -64 ≤ n ∧ n < 64
    · have hb : (UInt8.ofNat (n % 128).toNat).toNat = (n % 128).toNat :=
        UInt8.toNat_ofNat_of_lt' (by simp only [UInt8.size]; omega)
      simp only [if_pos hn, List.cons_append, List.nil_append, readInt, hb]
      by_cases hneg : n < 0
      · have hhigh : ¬ (n % 128).toNat < 64 := by omega
        have hlow : (n % 128).toNat < 128 := by omega
        have hval : ((n % 128).toNat : Int) - 128 = n := by omega
        rw [if_neg hhigh, if_pos hlow, hval]
      · have hlow : (n % 128).toNat < 64 := by omega
        have hval : ((n % 128).toNat : Int) = n := by omega
        rw [if_pos hlow, hval]
    · have hb : (UInt8.ofNat ((n % 128).toNat + 128)).toNat = (n % 128).toNat + 128 :=
        UInt8.toNat_ofNat_of_lt' (by simp only [UInt8.size]; omega)
      have hhigh : ¬ (n % 128).toNat + 128 < 64 := by omega
      have hbig : ¬ (n % 128).toNat + 128 < 128 := by omega
      have hsum : (((n % 128).toNat + 128 : Nat) : Int) - 128 + 128 * (n / 128) = n := by omega
      simp only [if_neg hn, List.cons_append, readInt, hb, if_neg hhigh, if_neg hbig,
        ih (n / 128).natAbs (by omega) (n / 128) rfl, Option.bind_eq_bind, Option.bind_some, hsum]
      rfl

end RuleScan.Leb128
