import RouteScribe.Text.CodePoint

/-!
# A pen that keeps its place on the line

YAML's layout depends on where the last mark stands: `Pen` holds the text so far together with the
column and with two facts about the line, whether a blank stands before the next mark and whether
the line has held nothing but layout so far.
-/

namespace RouteScribe

namespace Yaml

/-- Text in the making; `written` holds it backwards. -/
structure Pen where
  written : Text := []
  column : Nat := 0
  /-- What stands before the next mark is a blank or the start of a line. -/
  afterBlank : Bool := true
  /-- Nothing but blanks and layout marks stands on the line. -/
  inMargin : Bool := true

namespace Pen

/-- The text that has been written. -/
def text (p : Pen) : Text := p.written.reverse

/-- Writes code points on the current line. -/
def put (p : Pen) (s : Text) : Pen :=
  { p with written := s.reverse ++ p.written, column := p.column + s.length }

/-- Ends the line with a line break of the text's own. -/
def breakWith (p : Pen) (c : CodePoint) : Pen :=
  { written := c :: p.written, column := 0, afterBlank := true, inMargin := true }

/-- Ends the line. -/
def newline (p : Pen) : Pen := p.breakWith '\n'

/-- Goes to a column, on a new line unless the current one still has room in its margin. -/
def indent (p : Pen) (column : Nat) : Pen :=
  let p :=
    if !p.inMargin || p.column > column || (p.column == column && !p.afterBlank) then p.newline
    else p
  if p.column < column then
    { p with
      written := List.replicate (column - p.column) (.scalar ' ') ++ p.written
      column := column
      afterBlank := true }
  else p

/-- Writes a mark behind a blank. -/
def markApart (p : Pen) (c : Char) : Pen :=
  { p.put (if p.afterBlank then [.scalar c] else [.scalar ' ', .scalar c]) with
    afterBlank := false, inMargin := false }

/-- Writes a mark right behind what stands there. -/
def mark (p : Pen) (c : Char) : Pen :=
  { p.put [.scalar c] with afterBlank := false, inMargin := false }

/-- Writes a layout mark behind a blank, which leaves a margin a margin. -/
def layoutMark (p : Pen) (c : Char) : Pen :=
  { p.markApart c with inMargin := p.inMargin }

/-- The pen inside a scalar, whose blanks are text and no layout. -/
def inText (p : Pen) : Pen := { p with afterBlank := false, inMargin := false }

end Pen

end Yaml

end RouteScribe
