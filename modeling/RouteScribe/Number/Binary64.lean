/-!
# Double precision numbers

The 64-bit binary interchange format as its three fields.  A finite value is `mantissa * 2 ^
exponent` with its sign; `ofRatio` rounds a quotient of natural numbers to the nearest value, a
tie to the even mantissa, and `ofDecimal` reads a decimal numeral.  All arithmetic is on natural
numbers.
-/

namespace RouteScribe

/-- The sign, the biased exponent and the fraction of 52 bits of a double precision number. -/
structure Binary64 where
  negative : Bool
  biased : Fin 2048
  fraction : Fin 4503599627370496
deriving DecidableEq, Repr

namespace Binary64

/-- The weight of the bit before the fraction: the 52nd power of two. -/
def leadingBit : Nat := 4503599627370496

/-- The zero of a sign. -/
def zero (negative : Bool) : Binary64 := ⟨negative, 0, 0⟩

/-- The infinity of a sign. -/
def infinity (negative : Bool) : Binary64 := ⟨negative, 2047, 0⟩

/-- The quiet value that is not a number. -/
def nan : Binary64 := ⟨false, 2047, Fin.ofNat _ (leadingBit / 2)⟩

instance : Inhabited Binary64 := ⟨zero false⟩

/-- Neither an infinity nor a value that is not a number. -/
def isFinite (x : Binary64) : Bool := x.biased != 2047

/-- Not a number. -/
def isNaN (x : Binary64) : Bool := x.biased == 2047 && x.fraction != 0

/-- An infinity. -/
def isInfinite (x : Binary64) : Bool := x.biased == 2047 && x.fraction == 0

/-- Either zero. -/
def isZero (x : Binary64) : Bool := x.biased == 0 && x.fraction == 0

/-- The whole number that the exponent scales. -/
def mantissa (x : Binary64) : Nat :=
  if x.biased = 0 then x.fraction else leadingBit + x.fraction

/-- The power of two that scales the mantissa. -/
def exponent (x : Binary64) : Int :=
  (if x.biased = 0 then 1 else (x.biased : Nat) : Int) - 1075

/-- The value `mantissa * 2 ^ exponent` for a mantissa of at most 53 bits that has 53 bits unless
the exponent is the least one, -1074; infinity where the exponent is too large. -/
def assemble (negative : Bool) (mantissa : Nat) (exponent : Int) : Binary64 :=
  if exponent > 971 then infinity negative
  else if mantissa < leadingBit then ⟨negative, 0, Fin.ofNat _ mantissa⟩
  else ⟨negative, Fin.ofNat _ (exponent + 1075).toNat, Fin.ofNat _ (mantissa - leadingBit)⟩

/-- `num / den` rounded to a whole number, a tie going to the even one. -/
def roundDiv (num den : Nat) : Nat :=
  let q := num / den
  let r := num % den
  if 2 * r > den || (2 * r == den && q % 2 == 1) then q + 1 else q

/-- The two sides of the quotient `num / (den * 2 ^ e)`. -/
def scaled (num den : Nat) (e : Int) : Nat × Nat :=
  if e < 0 then (num * Nat.pow 2 (-e).toNat, den) else (num, den * Nat.pow 2 e.toNat)

/-- The double precision number nearest to `num / den`, a tie going to the even mantissa. -/
def ofRatio (negative : Bool) (num den : Nat) : Binary64 :=
  if num = 0 then zero negative
  else
    let e₀ : Int := (num.log2 : Int) - den.log2 - 53
    let s₀ := scaled num den e₀
    let e₁ : Int := if s₀.1 / s₀.2 < 2 * leadingBit then e₀ else e₀ + 1
    let e : Int := max e₁ (-1074)
    let s := scaled num den e
    let m := roundDiv s.1 s.2
    if m = 2 * leadingBit then assemble negative leadingBit (e + 1) else assemble negative m e

/-- The double precision number nearest to an integer. -/
def ofInt (n : Int) : Binary64 := ofRatio (n < 0) n.natAbs 1

/-- The number of decimal digits of a natural number; zero has one. -/
def digitCount (n : Nat) : Nat := (Nat.toDigits 10 n).length

/-- The double precision number nearest to `digits * 10 ^ exponent`.  Exponents far outside the
range are decided without computing the power. -/
def ofDecimal (negative : Bool) (digits : Nat) (exponent : Int) : Binary64 :=
  if digits = 0 then zero negative
  else
    let top : Int := digitCount digits + exponent
    if top > 400 then infinity negative
    else if top < -400 then zero negative
    else if exponent < 0 then ofRatio negative digits (Nat.pow 10 (-exponent).toNat)
    else ofRatio negative (digits * Nat.pow 10 exponent.toNat) 1

/-- The signed mantissa. -/
def signed (x : Binary64) : Int := if x.negative then -(x.mantissa : Int) else x.mantissa

/-- The whole number that a finite value is equal to, if it is whole. -/
def toInt? (x : Binary64) : Option Int :=
  if !x.isFinite then none
  else if x.exponent ≥ 0 then some (x.signed * Nat.pow 2 x.exponent.toNat)
  else
    let unit := Nat.pow 2 (-x.exponent).toNat
    if x.mantissa % unit = 0 then some (x.signed / unit) else none

/-- The difference of two numbers, rounded to nearest. -/
def sub (x y : Binary64) : Binary64 :=
  if x.isNaN || y.isNaN then nan
  else if x.isInfinite then
    if y.isInfinite && x.negative == y.negative then nan else x
  else if y.isInfinite then infinity (!y.negative)
  else
    let e := min x.exponent y.exponent
    let units (z : Binary64) : Int := z.signed * Nat.pow 2 (z.exponent - e).toNat
    let d := units x - units y
    if d = 0 then zero (x.isZero && y.isZero && x.negative && !y.negative)
    else if e < 0 then ofRatio (d < 0) d.natAbs (Nat.pow 2 (-e).toNat)
    else ofRatio (d < 0) (d.natAbs * Nat.pow 2 e.toNat) 1

end Binary64

end RouteScribe
