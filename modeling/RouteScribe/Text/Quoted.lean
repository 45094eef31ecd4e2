import RouteScribe.Text.Printable

/-!
# Text in quotes

The form in which a file name stands in an error message: between single quotes, or between double
quotes when it holds a single quote and no double one, with escapes for the backslash, the quote and
everything that cannot be printed.
-/

namespace RouteScribe

namespace Quoted

/-- Hexadecimal digits, filled up to a width. -/
def hexDigits (width n : Nat) : List Char :=
  let ds := Nat.toDigits 16 n
  List.replicate (width - ds.length) '0' ++ ds

/-- The quote that a text is written between. -/
def mark (s : List Char) : Char := if s.contains '\'' && !s.contains '"' then '"' else '\''

/-- One character between quotes. -/
def escaped (quote c : Char) : List Char :=
  if c = quote || c = '\\' then ['\\', c]
  else if c = '\n' then ['\\', 'n']
  else if c = '\r' then ['\\', 'r']
  else if c = '\t' then ['\\', 't']
  else if isPrintable c then [c]
  else
    let n := c.toNat
    if n ≤ 0xFF then '\\' :: 'x' :: hexDigits 2 n
    else if n ≤ 0xFFFF then '\\' :: 'u' :: hexDigits 4 n
    else '\\' :: 'U' :: hexDigits 8 n

end Quoted

/-- A text in quotes. -/
def quoted (s : List Char) : List Char :=
  let q := Quoted.mark s
  q :: (s.flatMap (Quoted.escaped q) ++ [q])

end RouteScribe
