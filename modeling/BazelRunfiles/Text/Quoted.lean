import BazelRunfiles.Text
import BazelRunfiles.Text.Printing

/-!
Quoted texts. A text stands between single quotes, or between double quotes if it holds a single one
and no double one. The quote in use and the backslash get a backslash; what does not print is
written by name or by its code in two, four or eight hexadecimal digits.
-/

namespace BazelRunfiles

namespace Quoted

/-- The last `width` hexadecimal digits of a number. -/
def hex : (width : Nat) → Nat → Text
  | 0, _ => []
  | width + 1, n => hex width (n / 16) ++ [Nat.digitChar (n % 16)]

/-- The quote around a text. -/
def quoteFor (t : Text) : Char := if '\'' ∈ t ∧ '"' ∉ t then '"' else '\''

/-- A character between `quote`s. -/
def encodeChar (quote c : Char) : Text :=
  if c = quote ∨ c = '\\' then ['\\', c]
  else if c = '\n' then ['\\', 'n']
  else if c = '\r' then ['\\', 'r']
  else if c = '\t' then ['\\', 't']
  else if prints c then [c]
  else if c.toNat ≤ 0xFF then '\\' :: 'x' :: hex 2 c.toNat
  else if c.toNat ≤ 0xFFFF then '\\' :: 'u' :: hex 4 c.toNat
  else '\\' :: 'U' :: hex 8 c.toNat

/-- A text between quotes. -/
def encode (t : Text) : Text :=
  quoteFor t :: t.flatMap (encodeChar (quoteFor t)) ++ [quoteFor t]

end Quoted

end BazelRunfiles
