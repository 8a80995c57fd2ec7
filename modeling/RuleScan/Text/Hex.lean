/-!
Hexadecimal text: digits, fixed-width numbers and byte strings, all in lower case.
-/
namespace RuleScan.Text

def hexDigit (n : Nat) : Char :=
  if n < 10 then Char.ofNat (n + 48) else Char.ofNat (n + 87)

/-- The lowest `width` hexadecimal digits of `n`, most significant first. -/
def hexFixed : Nat → Nat → List Char
  | 0, _ => []
  | width + 1, n => hexDigit (n / 16 ^ width % 16) :: hexFixed width n

def hexBytes (bytes : List UInt8) : String :=
  String.ofList (bytes.flatMap fun b => hexFixed 2 b.toNat)

end RuleScan.Text
