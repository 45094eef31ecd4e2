import RouteScribe.Text.Digit
import RouteScribe.Text.Split

/-!
# Words that stand for more than themselves

A YAML reader takes an unquoted scalar for a number, a truth value, a date and so on when it is
written like one.  `Yaml.implied` recognises these scalars; a string that reads like this has to be
quoted.
-/

namespace RouteScribe

namespace Yaml

/-- The text behind one character of a class. -/
def eat? (p : Char → Bool) : List Char → Option (List Char)
  | [] => none
  | c :: rest => if p c then some rest else none

/-- The text behind a character of a class, or the text itself where there is none. -/
def eatIf (p : Char → Bool) (s : List Char) : List Char := (eat? p s).getD s

/-- The text behind one or more characters of a class. -/
def eatRun? (p : Char → Bool) (s : List Char) : Option (List Char) :=
  (eat? p s).map fun rest => rest.dropWhile p

/-- The text behind one digit or two. -/
def eatShort? (s : List Char) : Option (List Char) := (eat? isAsciiDigit s).map (eatIf isAsciiDigit)

/-- The text behind two digits. -/
def eatTwo? (s : List Char) : Option (List Char) := (eat? isAsciiDigit s).bind (eat? isAsciiDigit)

/-- A sign. -/
def isSign (c : Char) : Bool := c == '+' || c == '-'

/-- A digit or a low line. -/
def isLooseDigit (c : Char) : Bool := isAsciiDigit c || c == '_'

/-- A digit other than zero and loose digits behind it. -/
def isLeadNumber : List Char → Bool
  | [] => false
  | c :: rest => '1' ≤ c && c ≤ '9' && rest.all isLooseDigit

/-- A digit and loose digits behind it. -/
def isLooseNumber : List Char → Bool
  | [] => false
  | c :: rest => isAsciiDigit c && rest.all isLooseDigit

/-- A count of sixtieths: one digit, or two of which the first is below six. -/
def isSixtieth : List Char → Bool
  | [c] => isAsciiDigit c
  | [c, d] => '0' ≤ c && c ≤ '5' && isAsciiDigit d
  | _ => false

/-- A number in base sixty whose first place is of the given form. -/
def isBaseSixty (first : List Char → Bool) (s : List Char) : Bool :=
  match pieces ':' s with
  | p :: q :: qs => first p && (q :: qs).all isSixtieth
  | _ => false

/-- Digits of one of the other bases behind their mark. -/
def isOfClass (p : Char → Bool) (s : List Char) : Bool := !s.isEmpty && s.all p

/-- A digit of base sixteen or a low line. -/
def isLooseHexDigit (c : Char) : Bool :=
  isLooseDigit c || ('a' ≤ c && c ≤ 'f') || ('A' ≤ c && c ≤ 'F')

/-- A whole number without its sign. -/
def isWholeNumber : List Char → Bool
  | ['0'] => true
  | '0' :: 'b' :: ds => isOfClass (fun c => c == '0' || c == '1' || c == '_') ds
  | '0' :: 'x' :: ds => isOfClass isLooseHexDigit ds
  | '0' :: ds => isOfClass (fun c => ('0' ≤ c && c ≤ '7') || c == '_') ds
  | ds => isLeadNumber ds || isBaseSixty isLeadNumber ds

/-- A power of ten, or nothing. -/
def isScale : List Char → Bool
  | [] => true
  | e :: sign :: ds => (e == 'e' || e == 'E') && isSign sign && isOfClass isAsciiDigit ds
  | _ => false

/-- A number with a point, without its sign. -/
def isPointNumber (s : List Char) : Bool :=
  match cutAt '.' s with
  | (_, none) => false
  | (whole, some rest) =>
    (isLooseNumber whole && isScale (rest.dropWhile isLooseDigit)) ||
      (isBaseSixty isLooseNumber whole && rest.all isLooseDigit)

/-- A number without a digit before its point. -/
def isPointFirst : List Char → Bool
  | '.' :: d :: rest => isAsciiDigit d && isScale (rest.dropWhile isLooseDigit)
  | _ => false

/-- The words for infinity, without a sign. -/
def infinityWords : List String := [".inf", ".Inf", ".INF"]

/-- A number that is not whole. -/
def isRealNumber (s : List Char) : Bool :=
  let unsigned := eatIf isSign s
  isPointNumber unsigned || isPointFirst s || infinityWords.any (fun w => w.toList == unsigned) ||
    [".nan", ".NaN", ".NAN"].any (fun w => w.toList == s)

/-- A blank inside a date. -/
def isDateBlank (c : Char) : Bool := c == ' ' || c == '\t'

/-- The end of a time of day: nothing, or blanks and a time zone. -/
def isZone (s : List Char) : Bool :=
  s.isEmpty ||
    match s.dropWhile isDateBlank with
    | ['Z'] => true
    | sign :: rest =>
      isSign sign &&
        match eatShort? rest with
        | some [] => true
        | some (':' :: rest) => eatTwo? rest == some []
        | _ => false
    | [] => false

/-- A time of day with its time zone. -/
def isTime (s : List Char) : Bool :=
  (do
    let s ← eatShort? s
    let s ← eat? (· == ':') s
    let s ← eatTwo? s
    let s ← eat? (· == ':') s
    let s ← eatTwo? s
    let s := match s with
      | '.' :: rest => rest.dropWhile isAsciiDigit
      | rest => rest
    some (isZone s)) == some true

/-- The text behind a year and its dash. -/
def eatYear? (s : List Char) : Option (List Char) := do
  let s ← eatTwo? s
  let s ← eatTwo? s
  eat? (· == '-') s

/-- A date of fixed width. -/
def isDate (s : List Char) : Bool :=
  (do
    let s ← eatYear? s
    let s ← eatTwo? s
    let s ← eat? (· == '-') s
    eatTwo? s) == some []

/-- A date and a time of day. -/
def isMoment (s : List Char) : Bool :=
  (do
    let s ← eatYear? s
    let s ← eatShort? s
    let s ← eat? (· == '-') s
    let s ← eatShort? s
    let s ← match eat? (fun c => c == 'T' || c == 't') s with
      | some rest => some rest
      | none => eatRun? isDateBlank s
    some (isTime s)) == some true

/-- The words for truth values, for nothing and for merging, and the lone marks. -/
def reservedWords : List String :=
  ["yes", "Yes", "YES", "no", "No", "NO", "true", "True", "TRUE", "false", "False", "FALSE",
    "on", "On", "ON", "off", "Off", "OFF", "null", "Null", "NULL", "~", "", "<<", "=", "!", "&",
    "*"]

/-- A scalar that a reader does not take for a string. -/
def implied (s : List Char) : Bool :=
  reservedWords.any (fun w => w.toList == s) || isWholeNumber (eatIf isSign s) || isRealNumber s ||
    isDate s || isMoment s

end Yaml

end RouteScribe
