import RouteScribe.Text.CodePoint
import RouteScribe.Yaml.Implied
import RouteScribe.Yaml.Pen

/-!
# Strings as YAML scalars

A string is written without quotes where a reader gives it back unchanged, in single quotes where
doubling the quotes is all the escaping that it needs, and else in double quotes.  Long scalars are
folded at single blanks behind column 80, but keys are not.
-/

namespace RouteScribe

namespace Yaml

/-! ### Classes of code points -/

/-- A line break. -/
def isBreak (c : CodePoint) : Bool := c == '\n' || c == '\x85' || c == '\u2028' || c == '\u2029'

/-- A blank. -/
def isSpace (c : CodePoint) : Bool := c == ' '

/-- Something that parts tokens. -/
def isGap (c : CodePoint) : Bool :=
  isBreak c || isSpace c || c == '\x00' || c == '\t' || c == '\r'

/-- A code point that only double quotes can hold. -/
def isSpecial (c : CodePoint) : Bool :=
  let n := c.code
  !(n == 0xA || (0x20 ≤ n && n ≤ 0x7E) || n == 0x85 || (0xA0 ≤ n && n ≤ 0xD7FF) ||
      (0xE000 ≤ n && n ≤ 0xFFFD) || (0x10000 ≤ n && n < 0x10FFFF)) || n == 0xFEFF

/-- A code point that stands for itself between double quotes. -/
def isDirect (c : CodePoint) : Bool :=
  let n := c.code
  ((0x20 ≤ n && n ≤ 0x7E) || (0xA0 ≤ n && n ≤ 0xD7FF) || (0xE000 ≤ n && n ≤ 0xFFFD)) &&
    c != '"' && c != '\\' && !isBreak c && n != 0xFEFF

/-- The marks that begin something else than an unquoted scalar. -/
def leadingMarks : Text := ",[]\x7b\x7d#&*!|>'\"%@`"

/-! ### The choice of a style -/

/-- Two neighbours belong to the two classes. -/
def adjacent (p q : CodePoint → Bool) (s : Text) : Bool :=
  (s.zip s.tail).any fun (a, b) => p a && q b

/-- A code point of the first class begins the string and a gap or the end follows it. -/
def leadsAlone (p : CodePoint → Bool) : Text → Bool
  | [] => false
  | [c] => p c
  | c :: d :: _ => p c && isGap d

/-- The first or the last code point is of the class. -/
def edged (p : CodePoint → Bool) (s : Text) : Bool := s.head?.any p || s.getLast?.any p

/-- The string holds marks that would be read as layout. -/
def hasMarks (s : Text) : Bool :=
  Text.isPrefixOf "---" s || Text.isPrefixOf "..." s ||
    s.head?.any (leadingMarks.contains ·) ||
    leadsAlone (fun c => c == '-' || c == '?') s ||
    adjacent (· == CodePoint.scalar ':') isGap s || s.getLast? == some (.scalar ':') ||
    adjacent isGap (· == CodePoint.scalar '#') s
where
  Text.isPrefixOf (w : String) (s : Text) : Bool := (Text.ofString w).isPrefixOf s

/-- The string has more than one line. -/
def isMultiline (s : Text) : Bool := s.any isBreak

/-- Single quotes give the string back. -/
def fitsSingle (s : Text) : Bool :=
  !adjacent isBreak isSpace s && !adjacent isSpace isBreak s && !s.any isSpecial

/-- The string can stand without quotes, whatever it may be taken for. -/
def fitsPlain (s : Text) : Bool :=
  fitsSingle s && !isMultiline s && !edged isSpace s && !hasMarks s

/-- How a string is written. -/
inductive Style where
  | plain
  | single
  | double
deriving DecidableEq, Repr

/-- The string would be taken for something else. -/
def isImplied (s : Text) : Bool := s.chars?.any implied

/-- A key stands on one line with its value when it is short and has a line of its own. -/
def isSimpleKey (s : Text) : Bool := !s.isEmpty && !isMultiline s && s.length + 5 < 128

/-- The style of a string. -/
def styleOf (s : Text) : Style :=
  if !isImplied s && fitsPlain s then .plain
  else if fitsSingle s then .single
  else .double

/-! ### Writing -/

/-- The column behind which scalars are folded. -/
def width : Nat := 80

/-- Blanks, line breaks, and everything else. -/
def classOf (c : CodePoint) : Nat := if isSpace c then 0 else if isBreak c then 1 else 2

/-- The longest stretches of one class. -/
def stretches (s : Text) : List Text := s.splitBy fun a b => classOf a == classOf b

/-- Where and whether a scalar may be folded. -/
structure Folding where
  /-- The column of the lines that follow. -/
  indent : Nat
  allowed : Bool

/-- A stretch is a lone blank at which the line is folded. -/
def Folding.at (f : Folding) (p : Pen) (s : Text) : Bool :=
  f.allowed && s == [.scalar ' '] && p.column > width

/-- Writes a scalar without quotes. -/
def writePlain (f : Folding) (s : Text) (p : Pen) : Pen :=
  let p := if p.afterBlank then p else p.put [.scalar ' ']
  (stretches s).foldl
    (fun p r => if f.at p r then (p.indent f.indent).inText else p.put r) p.inText

/-- A code point between single quotes. -/
def singleQuoted (c : CodePoint) : Text := if c = '\'' then [c, c] else [c]

/-- Writes line breaks between single quotes: one more than the string has when it begins with a
line feed, since the reader folds the first one. -/
def writeBreaks (f : Folding) (s : Text) (p : Pen) : Pen :=
  let p := if s.head? == some (.scalar '\n') then p.newline else p
  (s.foldl Pen.breakWith p).indent f.indent

/-- Writes the stretches between single quotes. -/
def writeStretches (f : Folding) (first : Bool) : List Text → Pen → Pen
  | [], p => p
  | r :: rest, p =>
    writeStretches f false rest <|
      if r.any isBreak then writeBreaks f r p
      else if !first && !rest.isEmpty && f.at p r then p.indent f.indent
      else p.put (r.flatMap singleQuoted)

/-- Writes a scalar between single quotes. -/
def writeSingle (f : Folding) (s : Text) (p : Pen) : Pen :=
  (writeStretches f true (stretches s) (p.markApart '\'')).mark '\''

/-- Hexadecimal digits in upper case, filled up to a width. -/
def hexDigits (width n : Nat) : List Char :=
  let ds := (Nat.toDigits 16 n).map Char.toUpper
  List.replicate (width - ds.length) '0' ++ ds

/-- The letters for code points with a short escape. -/
def shortEscapes : List (Char × Char) :=
  [('\x00', '0'), ('\x07', 'a'), ('\x08', 'b'), ('\t', 't'), ('\n', 'n'), ('\x0b', 'v'),
    ('\x0c', 'f'), ('\r', 'r'), ('\x1b', 'e'), ('"', '"'), ('\\', '\\'), ('\x85', 'N'),
    ('\u2028', 'L'), ('\u2029', 'P')]

/-- The escape of a code point. -/
def escapeOf (c : CodePoint) : Text :=
  let n := c.code
  let body :=
    match c.char?.bind fun c => shortEscapes.lookup c with
    | some l => [l]
    | none =>
      if n ≤ 0xFF then 'x' :: hexDigits 2 n
      else if n ≤ 0xFFFF then 'u' :: hexDigits 4 n
      else 'U' :: hexDigits 8 n
  .scalar '\\' :: Text.ofChars body

/-- Ends a line between double quotes.  A blank that begins the next line is escaped. -/
def foldDouble (f : Folding) (next : Option CodePoint) (p : Pen) : Pen :=
  let p := ((p.put [.scalar '\\']).indent f.indent).inText
  if next == some (.scalar ' ') then p.put [.scalar '\\'] else p

/-- Writes what stands between double quotes.  Lines are folded before a blank, behind an escape,
and before what follows an escape, but neither at the first nor at the last code point. -/
def writeEscaped (f : Folding) (first afterEscape : Bool) : Text → Pen → Pen
  | [], p => p
  | c :: rest, p =>
    let inside := f.allowed && !first && !rest.isEmpty
    if isDirect c then
      let p := if inside && (isSpace c || afterEscape) && p.column > width then
          foldDouble f (some c) p
        else p
      writeEscaped f false false rest (p.put [c])
    else
      let p := p.put (escapeOf c)
      let p := if inside && p.column > width + 1 then foldDouble f rest.head? p else p
      writeEscaped f false true rest p

/-- Writes a scalar between double quotes. -/
def writeDouble (f : Folding) (s : Text) (p : Pen) : Pen :=
  (writeEscaped f true false s (p.markApart '"')).mark '"'

/-- Writes a string. -/
def writeString (f : Folding) (s : Text) (p : Pen) : Pen :=
  match styleOf s with
  | .plain => writePlain f s p
  | .single => writeSingle f s p
  | .double => writeDouble f s p

end Yaml

end RouteScribe
