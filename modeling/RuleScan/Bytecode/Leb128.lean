/-!
LEB128 numbers: seven bits a byte, lowest first, with the high bit set on every byte but the last.
Numbers are written in their shortest form; a reader gives the number and the bytes after it.
-/
namespace RuleScan.Leb128

/-- The shortest form of a natural number. -/
def ofNat (n : Nat) : List UInt8 :=
  if n < 128 then [UInt8.ofNat n]
  else UInt8.ofNat (n % 128 + 128) :: ofNat (n / 128)
termination_by n
decreasing_by omega

/-- The shortest form of an integer. The last byte carries the sign in its bit of value 64. -/
def ofInt (n : Int) : List UInt8 :=
  if -64 ≤ n ∧ n < 64 then [UInt8.ofNat (n % 128).toNat]
  else UInt8.ofNat ((n % 128).toNat + 128) :: ofInt (n / 128)
termination_by n.natAbs
decreasing_by omega

/-- The natural number at the start of the bytes; `none` when they end inside it. -/
def readNat : List UInt8 → Option (Nat × List UInt8)
  | [] => none
  | b :: rest =>
    if b.toNat < 128 then some (b.toNat, rest)
    else do
      let (n, rest) ← readNat rest
      return (b.toNat - 128 + 128 * n, rest)

/-- The integer at the start of the bytes; `none` when they end inside it. -/
def readInt : List UInt8 → Option (Int × List UInt8)
  | [] => none
  | b :: rest =>
    if b.toNat < 64 then some (b.toNat, rest)
    else if b.toNat < 128 then some ((b.toNat : Int) - 128, rest)
    else do
      let (n, rest) ← readInt rest
      return ((b.toNat : Int) - 128 + 128 * n, rest)

end RuleScan.Leb128
