import RouteScribe.Assoc
import RouteScribe.Console.Style
import RouteScribe.Json.Printer
import RouteScribe.Text.Case
import RouteScribe.Text.Split

/-!
# Messages to the user

An `Entry` is one message of a run; a `Console` decides by its level whether an entry is shown, and
`Console.print` gives the lines.  Warnings and errors go to the error stream, all else to standard
output.  `tableLines` sets rows in columns: a heading, a rule, and the numbered rows.
-/

namespace RouteScribe

namespace Log

/-- How much is shown: entries of the console's level and of the levels behind it. -/
inductive Level where
  | debug
  | info
  | warn
  | error
deriving DecidableEq, Repr

namespace Level

/-- All levels in their order. -/
def all : List Level := [debug, info, warn, error]

/-- The name of a level. -/
def name : Level → String
  | debug => "debug"
  | info => "info"
  | warn => "warn"
  | error => "error"

/-- The place of a level in the order. -/
def rank : Level → Nat
  | debug => 0
  | info => 1
  | warn => 2
  | error => 3

/-- The level of a name. -/
def ofName? (name : List Char) : Option Level := all.find? fun l => l.name.toList = name

end Level

/-- The kind of a line. -/
inductive Kind where
  | log
  | info
  | success
  | warn
  | error
  | debug
deriving DecidableEq, Repr

namespace Kind

/-- The mark before a line. -/
def mark : Kind → Char
  | log => '•'
  | info => 'ℹ'
  | success => '✓'
  | warn => '⚠'
  | error => '✗'
  | debug => '◦'

/-- The colour of the mark. -/
def color : Kind → Style.Color
  | log => .gray
  | info => .cyan
  | success => .green
  | warn => .yellow
  | error => .red
  | debug => .magenta

/-- The level at which lines of the kind are shown. -/
def level : Kind → Level
  | debug => .debug
  | warn => .warn
  | error => .error
  | _ => .info

/-- Lines of the kind go to the error stream. -/
def isError : Kind → Bool
  | warn => true
  | error => true
  | _ => false

/-- The properties of the words behind the mark. -/
def words : Kind → Option Style.Properties
  | log => some { dim := true }
  | success => some { color := some .green }
  | _ => none

end Kind

/-- A row of a table: texts by column. -/
abbrev Row := List (List Char × List Char)

/-- One message. -/
inductive Entry where
  /-- A line, perhaps with a value. -/
  | line (kind : Kind) (message : List Char) (data : Option Json := none)
  | header (message : List Char)
  | separator
  | highlight (message : List Char)
  | table (columns : List (List Char)) (rows : List Row)

/-- Text for the two streams. -/
structure Output where
  out : List Char := []
  err : List Char := []
deriving DecidableEq, Repr

/-- One output behind another. -/
def Output.append (a b : Output) : Output := ⟨a.out ++ b.out, a.err ++ b.err⟩

/-! ### Values behind a message -/

/-- The text with two blanks behind each line feed. -/
def shifted (s : List Char) : List Char :=
  s.flatMap fun c => if c = '\n' then ['\n', ' ', ' '] else [c]

/-- A value behind a message: containers on lines of their own, all else behind a blank. -/
def dataText : Json → List Char
  | .null => []
  | .bool b => ' ' :: (if b then "True" else "False").toList
  | .num n => ' ' :: n.plain
  | .str s => ' ' :: (Text.shown s).toList
  | v => '\n' :: ' ' :: ' ' :: shifted (Text.shown (Json.indented .ascii v)).toList

/-! ### Tables -/

/-- The text filled with blanks on its right. -/
def padRight (width : Nat) (s : List Char) : List Char :=
  s ++ List.replicate (width - s.length) ' '

/-- The text filled with blanks on its left. -/
def padLeft (width : Nat) (s : List Char) : List Char :=
  List.replicate (width - s.length) ' ' ++ s

/-- The text of a row in a column. -/
def cell (row : Row) (column : List Char) : List Char := (Assoc.get? row column).getD []

/-- The width of a column: its longest text and two blanks. -/
def columnWidth (rows : List Row) (column : List Char) : Nat :=
  (rows.map fun row => (cell row column).length).foldl max column.length + 2

/-- The width of the row numbers. -/
def numberWidth (rows : List Row) : Nat := (Nat.toDigits 10 rows.length).length

/-- Texts in a row with a blank between neighbours. -/
def spaced (ss : List (List Char)) : List Char := joined [' '] ss

/-- The lines of a table: the heading, the rule, and the numbered rows. -/
def tableLines (columns : List (List Char)) (rows : List Row) : List (List Char) :=
  let width := columnWidth rows
  let numbers := numberWidth rows
  let indent := List.replicate (numbers + 2) ' '
  let heading := indent ++ spaced (columns.map fun c =>
    Style.styled { bold := true } (padRight (width c) (upper c)))
  let rule := indent ++ spaced (columns.map fun c =>
    Style.styled { dim := true } (List.replicate (width c) '─'))
  let line (row : Row) (i : Nat) : List Char :=
    Style.styled { dim := true } (padLeft numbers (Nat.toDigits 10 (i + 1)) ++ ['.']) ++
      ' ' :: spaced (columns.map fun c => padRight (width c) (cell row c))
  heading :: rule :: rows.zipIdx.map fun (row, i) => line row i

/-! ### Printing -/

/-- What a console shows. -/
structure Console where
  level : Level := .info
  silent : Bool := false
  color : Bool := false

namespace Console

/-- Entries of the level are shown. -/
def shows (c : Console) (l : Level) : Bool := !c.silent && c.level.rank ≤ l.rank

/-- Lines for one of the streams, without control sequences unless the console has colours. -/
def written (c : Console) (toErr : Bool) (lines : List (List Char)) : Output :=
  let text := lines.flatMap fun l => (if c.color then l else Style.plain l) ++ ['\n']
  if toErr then ⟨[], text⟩ else ⟨text, []⟩

/-- The output of an entry. -/
def print (c : Console) : Entry → Output
  | .line kind message data =>
    if c.shows kind.level then
      let words := kind.words.elim message fun p => Style.styled p message
      c.written kind.isError
        [Style.styled { color := some kind.color } [kind.mark] ++ ' ' :: words ++
          data.elim [] dataText]
    else {}
  | .header message =>
    if c.shows .info then
      c.written false [[], Style.styled { color := some .cyan, bold := true } message, []]
    else {}
  | .separator => if c.shows .info then c.written false [[]] else {}
  | .highlight message =>
    if c.shows .info then
      c.written false [Style.styled { color := some .cyan, underline := true } message]
    else {}
  | .table columns rows =>
    if c.shows .info && !rows.isEmpty then c.written false (tableLines columns rows) else {}

/-- The output of entries in a row. -/
def printAll (c : Console) (es : List Entry) : Output :=
  es.foldl (fun o e => o.append (c.print e)) {}

theorem printAll_of_silent {c : Console} (h : c.silent = true) (es : List Entry) :
    c.printAll es = {} := by
  have hprint : ∀ e, c.print e = {} := by
    intro e
    cases e <;> simp [print, shows, h]
  unfold printAll
  induction es with
  | nil => rfl
  | cons e es ih =>
      rw [List.foldl_cons, hprint e]
      exact ih

theorem out_printAll (c : Console) (es : List Entry) :
    (c.printAll es).out = es.flatMap fun e => (c.print e).out := by
  have h : ∀ o : Output, (es.foldl (fun o e => o.append (c.print e)) o).out =
      o.out ++ es.flatMap fun e => (c.print e).out := by
    induction es with
    | nil => simp
    | cons e es ih =>
        intro o
        rw [List.foldl_cons, ih, List.flatMap_cons, ← List.append_assoc]
        rfl
  exact h {}

end Console

/-! ### Time -/

/-- The line about the time that something took. -/
def elapsedLine (message : List Char) (elapsed : Number) : Entry :=
  .line .log (message ++ ' ' :: '(' :: elapsed.fixed2 ++ ['s', ')'])

end Log

end RouteScribe
