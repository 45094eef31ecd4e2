import RouteScribe.Number.Shortest

/-!
# Numbers

A number of the data is a whole number of any size or a double precision number.  Two whole numbers
have a whole difference.  `fixed2` writes a number with two places: the exact binary value is
rounded, a tie going to the even last digit.
-/

namespace RouteScribe

/-- A whole number or a double precision number. -/
inductive Number where
  | integer (n : Int)
  | real (x : Binary64)
deriving DecidableEq, Repr

namespace Number

instance : Inhabited Number := ⟨integer 0⟩

/-- The number in double precision. -/
def toBinary64 : Number → Binary64
  | integer n => .ofInt n
  | real x => x

/-- The difference of two numbers. -/
def sub : Number → Number → Number
  | integer m, integer n => integer (m - n)
  | x, y => real (x.toBinary64.sub y.toBinary64)

/-- A zero of either kind. -/
def isZero : Number → Bool
  | integer n => n == 0
  | real x => x.isZero

/-- A number in messages. -/
def plain : Number → List Char
  | integer n => (toString n).toList
  | real x => Binary64.Layout.plain.write x

/-- A double precision number with two decimal places. -/
def fixed2Real (x : Binary64) : List Char :=
  if !x.isFinite then Binary64.Layout.plain.write x
  else
    let hundredths := if x.exponent < 0 then
        Binary64.roundDiv (x.mantissa * 100) (Nat.pow 2 (-x.exponent).toNat)
      else x.mantissa * 100 * Nat.pow 2 x.exponent.toNat
    let cents := Nat.toDigits 10 (hundredths % 100)
    let body := Nat.toDigits 10 (hundredths / 100) ++ ['.'] ++
      List.replicate (2 - cents.length) '0' ++ cents
    if x.negative then '-' :: body else body

/-- A number with two decimal places. -/
def fixed2 (n : Number) : List Char := fixed2Real n.toBinary64

end Number

end RouteScribe
