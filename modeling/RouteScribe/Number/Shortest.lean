import RouteScribe.Number.Binary64

/-!
# The shortest decimal form of a number

Among the decimal numerals that read back as a given finite value, the shortest has the fewest
digits and, of those, lies nearest to the value; of two at one distance the even one is taken.  A
numeral of `n` digits in the interval of rounding exists exactly when one of the two neighbours of
the value on the grid of `n` digits lies in it, so only these are tried.

How digits and exponent are written down is a separate matter: a `Layout` says it.
-/

namespace RouteScribe

/-- The numeral `digits * 10 ^ exponent`. -/
structure Decimal where
  digits : Nat
  exponent : Int
deriving DecidableEq, Repr

namespace Binary64

/-- The interval of the reals that round to a positive finite number, in units of one common size:
the least, the value itself, the greatest, the unit `num / den`, and whether the ends belong to
it. -/
structure Neighbourhood where
  low : Nat
  mid : Nat
  high : Nat
  num : Nat
  den : Nat
  closed : Bool

/-- The interval of rounding around a positive finite number. -/
def neighbourhood (x : Binary64) : Neighbourhood :=
  let m := x.mantissa
  let e := x.exponent - 2
  let below := if m = leadingBit && x.biased.val > 1 then 1 else 2
  { low := 4 * m - below
    mid := 4 * m
    high := 4 * m + 2
    num := if e < 0 then 1 else Nat.pow 2 e.toNat
    den := if e < 0 then Nat.pow 2 (-e).toNat else 1
    closed := m % 2 == 0 }

/-- The exponent `k` with `10 ^ k ≤ num / den < 10 ^ (k + 1)`, for positive numbers. -/
def decimalOrder (num den : Nat) : Int :=
  if num ≥ den then (digitCount (num / den) : Int) - 1
  else
    let k := digitCount (den / num) - 1
    if num * Nat.pow 10 k ≥ den then -(k : Int) else -(k + 1 : Int)

/-- The numeral of `n` digits next to the value that lies in its interval, if there is one. -/
def onGrid? (b : Neighbourhood) (order : Int) (n : Nat) : Option Decimal :=
  let e := order - (n - 1 : Int)
  -- one unit of the grid is `gn / gd` units of the neighbourhood
  let gn := (if e < 0 then 1 else Nat.pow 10 e.toNat) * b.den
  let gd := (if e < 0 then Nat.pow 10 (-e).toNat else 1) * b.num
  let d := b.mid * gd / gn
  let inside (k : Nat) : Bool :=
    let v := k * gn
    if b.closed then b.low * gd ≤ v && v ≤ b.high * gd else b.low * gd < v && v < b.high * gd
  let fromBelow := b.mid * gd - d * gn
  let fromAbove := (d + 1) * gn - b.mid * gd
  match inside d, inside (d + 1) with
  | true, true =>
    if fromBelow < fromAbove || (fromBelow == fromAbove && d % 2 == 0) then some ⟨d, e⟩
    else some ⟨d + 1, e⟩
  | true, false => some ⟨d, e⟩
  | false, true => some ⟨d + 1, e⟩
  | false, false => none

/-- The shortest numeral that reads back as the absolute value of a finite number. -/
def shortest (x : Binary64) : Decimal :=
  if x.isZero then ⟨0, 0⟩
  else
    let b := x.neighbourhood
    let order := decimalOrder (b.mid * b.num) b.den
    ((List.range' 1 17).findSome? (onGrid? b order)).getD ⟨0, 0⟩

/-- How a number is written: the exponent form starts below `10 ^ -4` and at `10 ^ 16`, has a sign
and at least two digits; the rest differs between the formats. -/
structure Layout where
  /-- A single digit before the exponent is followed by a point and a zero. -/
  pointBeforeExponent : Bool
  nan : String
  infinity : String
  negativeInfinity : String

/-- The digits of a numeral without trailing zeros, and the exponent of its first digit. -/
def Layout.normal (d : Decimal) : List Char × Int :=
  let ds := Nat.toDigits 10 d.digits
  let order := d.exponent + (ds.length - 1 : Int)
  let kept := (ds.reverse.dropWhile (· == '0')).reverse
  (if kept.isEmpty then ['0'] else kept, if d.digits = 0 then 0 else order)

/-- A finite number in a layout. -/
def Layout.finite (l : Layout) (x : Binary64) : List Char :=
  let (ds, order) := Layout.normal x.shortest
  let zeros (n : Nat) : List Char := List.replicate n '0'
  let body : List Char :=
    if order < -4 || order ≥ 16 then
      let head := ds.take 1
      let tail := ds.drop 1
      let point : List Char :=
        if tail.isEmpty then (if l.pointBeforeExponent then ['.', '0'] else []) else '.' :: tail
      let power := Nat.toDigits 10 order.natAbs
      head ++ point ++ ['e', if order < 0 then '-' else '+'] ++ zeros (2 - power.length) ++ power
    else if order < 0 then ['0', '.'] ++ zeros (order.natAbs - 1) ++ ds
    else
      let whole := order.toNat + 1
      let front := ds.take whole
      let back := ds.drop whole
      front ++ zeros (whole - front.length) ++ ['.'] ++ (if back.isEmpty then ['0'] else back)
  if x.negative then '-' :: body else body

/-- A number in a layout. -/
def Layout.write (l : Layout) (x : Binary64) : List Char :=
  if x.isNaN then l.nan.toList
  else if x.isInfinite then (if x.negative then l.negativeInfinity else l.infinity).toList
  else l.finite x

/-- Numbers in messages: `1.5`, `1e+16`, `nan`, `-inf`. -/
def Layout.plain : Layout := ⟨false, "nan", "inf", "-inf"⟩

end Binary64

end RouteScribe
