import RuleScan.Text.Hex
import RuleScan.Text.Printable

/-!
Quoted text: a string between double quotes, in which the quote, the backslash and every character
that is not printable are escaped.
-/
namespace RuleScan.Text

/-- How a character is written between quotes. Control characters with a letter of their own take
it, other ASCII characters two digits, and the rest four digits or eight. -/
def escaped (c : Char) : List Char :=
  if c = '"' ∨ c = '\\' then ['\\', c]
  else if isPrintable c then [c]
  else match c.toNat with
    | 0x07 => ['\\', 'a']
    | 0x08 => ['\\', 'b']
    | 0x0c => ['\\', 'f']
    | 0x0a => ['\\', 'n']
    | 0x0d => ['\\', 'r']
    | 0x09 => ['\\', 't']
    | 0x0b => ['\\', 'v']
    | n =>
      if n < 0x80 then '\\' :: 'x' :: hexFixed 2 n
      else if n < 0x10000 then '\\' :: 'u' :: hexFixed 4 n
      else '\\' :: 'U' :: hexFixed 8 n

/-- The string between double quotes, escaped. -/
def quoted (s : String) : String :=
  String.ofList ('"' :: s.toList.flatMap escaped ++ ['"'])

end RuleScan.Text
