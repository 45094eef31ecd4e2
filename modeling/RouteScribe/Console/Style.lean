/-!
# Styled text

A style is put around a text by control sequences: a number for each property before it, and a reset
behind it.  `plain` removes control sequences again, also those that a text has brought itself.
-/

namespace RouteScribe

namespace Style

/-- A colour of text. -/
inductive Color where
  | red
  | green
  | yellow
  | magenta
  | cyan
  | gray
deriving DecidableEq, Repr

/-- The number of a colour. -/
def Color.code : Color → List Char
  | red => ['3', '1']
  | green => ['3', '2']
  | yellow => ['3', '3']
  | magenta => ['3', '5']
  | cyan => ['3', '6']
  | gray => ['9', '0']

/-- The start of a control sequence. -/
def introducer : List Char := ['\x1b', '[']

/-- The control sequence of a number. -/
def sequence (code : List Char) : List Char := introducer ++ code ++ ['m']

/-- The properties of a text. -/
structure Properties where
  color : Option Color := none
  bold : Bool := false
  dim : Bool := false
  underline : Bool := false

/-- The control sequences of properties. -/
def Properties.sequences (p : Properties) : List Char :=
  (p.color.elim [] fun c => sequence c.code) ++ (if p.bold then sequence ['1'] else []) ++
    (if p.dim then sequence ['2'] else []) ++ (if p.underline then sequence ['4'] else [])

/-- A text with properties. -/
def styled (p : Properties) (s : List Char) : List Char := p.sequences ++ s ++ sequence ['0']

/-- A character between the start and the end of a control sequence. -/
def isParameter (c : Char) : Bool := c == ';' || c == '?' || ('0' ≤ c && c ≤ '9')

/-- The number of characters of the control sequence at the start of a text. -/
def sequenceLength? : List Char → Option Nat
  | '\x1b' :: '[' :: rest =>
    match rest.dropWhile isParameter with
    | c :: _ => if c.isAlpha then some ((rest.takeWhile isParameter).length + 3) else none
    | [] => none
  | _ => none

/-- The text without control sequences; the next `skip` characters belong to one. -/
def plainFrom : Nat → List Char → List Char
  | _, [] => []
  | skip + 1, _ :: rest => plainFrom skip rest
  | 0, c :: rest =>
    match sequenceLength? (c :: rest) with
    | some n => plainFrom (n - 1) rest
    | none => c :: plainFrom 0 rest

/-- The text without control sequences. -/
def plain (s : List Char) : List Char := plainFrom 0 s

end Style

end RouteScribe
