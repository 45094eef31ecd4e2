import RouteScribe.Text.Case.Table

/-!
# Upper and lower case

`upper` and `lower` map whole texts: a character may become several, and a sigma takes its final
form at the end of a word.  `sameLetter` is the comparison that ignores case: both characters have
one lower case form, or lower case forms that are matched together (the long and the round s, the
dotted and the dotless i, …).
-/

namespace RouteScribe

/-- The lower case form of one character, seen on its own. -/
def lowerChar (c : Char) : Char := Char.ofNat (shiftBy lowerShifts c.toNat)

/-- The upper case form of one character. -/
def upperChar (c : Char) : List Char :=
  match longUpper.lookup c.toNat with
  | some ns => ns.map Char.ofNat
  | none => [Char.ofNat (shiftBy upperShifts c.toNat)]

/-- The text in upper case. -/
def upper (s : List Char) : List Char := s.flatMap upperChar

/-- Going away from a sigma, the first character that is not passed over is cased. -/
def meetsCased (s : List Char) : Bool :=
  match s.dropWhile fun c => inSpans caseIgnorableSpans c.toNat with
  | c :: _ => inSpans casedSpans c.toNat
  | [] => false

/-- Lower case of a text whose part `before` (nearest character first) has been passed already. -/
def lowerAfter (before : List Char) : List Char → List Char
  | [] => []
  | c :: rest =>
    let image : List Char :=
      if c = 'Σ' then
        if meetsCased before && !meetsCased rest then ['ς'] else ['σ']
      else if c = 'İ' then ['i', '\u0307']
      else [lowerChar c]
    image ++ lowerAfter (c :: before) rest

/-- The text in lower case. -/
def lower (s : List Char) : List Char := lowerAfter [] s

/-- The character has another form in the other case. -/
def isCased (c : Char) : Bool := lowerChar c != c || upperChar c != [c]

/-- `c` stands for the letter `p` when case is ignored; a `p` without case stands for itself only.
-/
def sameLetter (p c : Char) : Bool :=
  if isCased p then
    let l := lowerChar p
    let k := lowerChar c
    k == l || ((caseMates.lookup l.toNat).getD []).contains k.toNat
  else c == p

/-- The text is the word in some case. -/
def sameWord : List Char → List Char → Bool
  | [], [] => true
  | p :: ps, c :: cs => sameLetter p c && sameWord ps cs
  | _, _ => false

end RouteScribe
