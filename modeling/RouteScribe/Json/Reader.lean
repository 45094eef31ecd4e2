import RouteScribe.Json.Basic

/-!
# Reading JSON

`Json.read` reads a whole text as one value.  Beyond the standard it accepts the three names `NaN`,
`Infinity` and `-Infinity`, unpaired surrogate escapes, and members whose name is repeated.  A text
that is refused yields the first fault met from the left.

The reader calls itself for every container, so it only has room for as many open ones as the stack
still has levels.  An opening bracket beyond them is refused where it stands, whatever follows it.
-/

namespace RouteScribe

/-- The two kinds of containers. -/
inductive Container where
  | array
  | object
deriving DecidableEq, Repr

/-- The word for a container. -/
def Container.word : Container → String
  | array => "array"
  | object => "object"

/-- Why a text is not read as JSON. -/
inductive JsonFault where
  | byteOrderMark
  | value
  | memberName
  | colon
  | comma
  | extra
  | unterminated
  | control
  | escape
  | unicodeEscape
  /-- A whole number with more digits than can be read. -/
  | longInteger (digits : Nat)
  /-- A container inside more open ones than there is room for. -/
  | tooDeep (opened : Container)
deriving DecidableEq, Repr

namespace JsonFault

/-- The words for a fault. -/
def message : JsonFault → String
  | byteOrderMark => "Unexpected UTF-8 BOM (decode using utf-8-sig)"
  | value => "Expecting value"
  | memberName => "Expecting property name enclosed in double quotes"
  | colon => "Expecting ':' delimiter"
  | comma => "Expecting ',' delimiter"
  | extra => "Extra data"
  | unterminated => "Unterminated string starting at"
  | control => "Invalid control character at"
  | escape => "Invalid \\escape"
  | unicodeEscape => "Invalid \\uXXXX escape"
  | longInteger digits =>
    "Exceeds the limit (4300 digits) for integer string conversion: value has " ++
      toString digits ++ " digits; use sys.set_int_max_str_digits() to increase the limit"
  | tooDeep opened =>
    "maximum recursion depth exceeded while decoding a JSON " ++ opened.word ++
      " from a unicode string"

/-- The text breaks the grammar. -/
def isSyntax : JsonFault → Bool
  | longInteger _ | tooDeep _ => false
  | _ => true

end JsonFault

namespace Json

/-- A blank between tokens. -/
def isSpace (c : CodePoint) : Bool := c == ' ' || c == '\t' || c == '\n' || c == '\r'

/-- The text from its first token on. -/
def skipSpace (s : Text) : Text := s.dropWhile isSpace

/-- The text behind a word that it starts with. -/
def after? : List Char → Text → Option Text
  | [], s => some s
  | _ :: _, [] => none
  | w :: ws, c :: s => if c = .scalar w then after? ws s else none

/-- There is a text behind the word exactly if the text is put together from the two. -/
theorem after?_eq_some_iff {w : List Char} {s r : Text} :
    after? w s = some r ↔ s = Text.ofChars w ++ r := by
  induction w generalizing s with
  | nil => simp [after?, Text.ofChars]
  | cons x w ih =>
      cases s with
      | nil => simp [after?, Text.ofChars]
      | cons c s =>
          simp only [after?, Option.ite_none_right_eq_some, ih]
          simp [Text.ofChars]

/-- The value of an ASCII digit. -/
def digit? : CodePoint → Option Nat
  | .scalar c => if '0' ≤ c && c ≤ '9' then some (c.toNat - '0'.toNat) else none
  | .surrogate _ => none

/-- The value of a hexadecimal digit. -/
def hexDigit? : CodePoint → Option Nat
  | .scalar c =>
    if '0' ≤ c && c ≤ '9' then some (c.toNat - '0'.toNat)
    else if 'a' ≤ c && c ≤ 'f' then some (c.toNat - 'a'.toNat + 10)
    else if 'A' ≤ c && c ≤ 'F' then some (c.toNat - 'A'.toNat + 10)
    else none
  | .surrogate _ => none

/-- The number of four hexadecimal digits. -/
def hex4? (a b c d : CodePoint) : Option Nat := do
  let a ← hexDigit? a
  let b ← hexDigit? b
  let c ← hexDigit? c
  let d ← hexDigit? d
  some (((a * 16 + b) * 16 + c) * 16 + d)

/-- The first half of a surrogate pair. -/
def isHigh (n : Nat) : Bool := 0xD800 ≤ n && n < 0xDC00

/-- The second half of a surrogate pair. -/
def isLow (n : Nat) : Bool := 0xDC00 ≤ n && n < 0xE000

/-- The code point that a surrogate pair stands for. -/
def joinPair (high low : Nat) : CodePoint :=
  .scalar (Char.ofNat (0x10000 + (high - 0xD800) * 0x400 + (low - 0xDC00)))

/-- The character of a one-letter escape. -/
def shortEscape? (c : CodePoint) : Option Char :=
  if c = '"' then some '"'
  else if c = '\\' then some '\\'
  else if c = '/' then some '/'
  else if c = 'b' then some '\x08'
  else if c = 'f' then some '\x0c'
  else if c = 'n' then some '\n'
  else if c = 'r' then some '\r'
  else if c = 't' then some '\t'
  else none

/-- A part of a string: a code point as it stands, or a 16-bit unit given by its number. -/
inductive Piece where
  | plain (c : CodePoint)
  | unit (n : Nat)

/-- Puts a part before what the rest of a string reads as. -/
def prepend (p : Piece) :
    Except JsonFault (List Piece × Text) → Except JsonFault (List Piece × Text)
  | .ok (ps, rest) => .ok (p :: ps, rest)
  | .error e => .error e

/-- Reads the parts of a string behind its opening quote, up to and with the closing one.  The four
digits of an escape must be followed by another character. -/
def readPieces : Text → Except JsonFault (List Piece × Text)
  | [] => .error .unterminated
  | c :: rest =>
    if c = '"' then .ok ([], rest)
    else if c.code < 0x20 then .error .control
    else if c ≠ '\\' then prepend (.plain c) (readPieces rest)
    else
      match rest with
      | [] => .error .unterminated
      | e :: rest =>
        if e ≠ 'u' then
          match shortEscape? e with
          | some x => prepend (.plain x) (readPieces rest)
          | none => .error .escape
        else
          match rest with
          | h₁ :: h₂ :: h₃ :: h₄ :: rest =>
            if rest.isEmpty then .error .unicodeEscape
            else
              match hex4? h₁ h₂ h₃ h₄ with
              | none => .error .unicodeEscape
              | some n => prepend (.unit n) (readPieces rest)
          | _ => .error .unicodeEscape

/-- The text of the parts of a string: two units that follow each other and form a surrogate pair
become one code point.  The first argument is a first half that waits for its second one. -/
def joinPieces : Option Nat → List Piece → Text
  | none, [] => []
  | some h, [] => [.ofCode h]
  | none, .plain c :: ps => c :: joinPieces none ps
  | some h, .plain c :: ps => .ofCode h :: c :: joinPieces none ps
  | none, .unit n :: ps =>
    if isHigh n then joinPieces (some n) ps else .ofCode n :: joinPieces none ps
  | some h, .unit n :: ps =>
    if isLow n then joinPair h n :: joinPieces none ps
    else if isHigh n then .ofCode h :: joinPieces (some n) ps
    else .ofCode h :: .ofCode n :: joinPieces none ps

/-- Reads a string behind its opening quote. -/
def readString (s : Text) : Except JsonFault (Text × Text) :=
  (readPieces s).map fun (ps, rest) => (joinPieces none ps, rest)

/-- The digits that a text starts with, and the text behind them. -/
def takeDigits : Text → List Nat × Text
  | [] => ([], [])
  | c :: rest =>
    match digit? c with
    | some d => let (ds, r) := takeDigits rest; (d :: ds, r)
    | none => ([], c :: rest)

/-- The number that digits denote. -/
def digitsValue (ds : List Nat) : Nat := ds.foldl (fun n d => 10 * n + d) 0

/-- The fraction digits, if a point and a digit follow. -/
def takeFraction (s : Text) : Option (List Nat × Text) :=
  match s with
  | c :: rest =>
    if c = '.' then
      match takeDigits rest with
      | ([], _) => none
      | (ds, r) => some (ds, r)
    else none
  | [] => none

/-- The exponent, if its mark, an optional sign and a digit follow. -/
def takeExponent (s : Text) : Option (Int × Text) :=
  match s with
  | c :: rest =>
    if c = 'e' ∨ c = 'E' then
      let signed : Bool × Text :=
        match rest with
        | x :: r => if x = '-' then (true, r) else if x = '+' then (false, r) else (false, rest)
        | [] => (false, rest)
      match takeDigits signed.2 with
      | ([], _) => none
      | (ds, r) => some (if signed.1 then -(digitsValue ds : Int) else digitsValue ds, r)
    else none
  | [] => none

/-- A minus sign that the text may start with, and the text behind it. -/
def takeSign (s : Text) : Bool × Text :=
  match s with
  | c :: rest => if c = '-' then (true, rest) else (false, s)
  | [] => (false, s)

/-- The digits of a whole number, if the text starts with one: nothing follows a leading zero. -/
def takeWhole (s : Text) : Option (List Nat × Text) :=
  match takeDigits s with
  | ([], _) => none
  | (0 :: _, _) => some ([0], s.drop 1)
  | (ds, r) => some (ds, r)

/-- Reads the number whose sign and whole digits are known from what stands behind these.  It is a
whole number unless it has a fraction or an exponent. -/
def finishNumber (negative : Bool) (ds : List Nat) (r : Text) : Except JsonFault (Number × Text) :=
  match takeFraction r, takeExponent r with
  | none, none =>
    if ds.length > maxIntegerDigits then .error (.longInteger ds.length)
    else .ok (.integer (if negative then -(digitsValue ds : Int) else digitsValue ds), r)
  | some (fs, r), _ =>
    let (e, r) := (takeExponent r).getD (0, r)
    .ok (.real (.ofDecimal negative (digitsValue (ds ++ fs)) (e - fs.length)), r)
  | none, some (e, r) => .ok (.real (.ofDecimal negative (digitsValue ds) e), r)

/-- Reads a number. -/
def readNumber (s : Text) : Except JsonFault (Number × Text) :=
  match takeWhole (takeSign s).2 with
  | none => .error .value
  | some (ds, r) => finishNumber (takeSign s).1 ds r

/-- The names of values and what they stand for. -/
def names : List (List Char × Json) :=
  [("null".toList, .null), ("true".toList, .bool true), ("false".toList, .bool false),
    ("NaN".toList, .num (.real .nan)), ("Infinity".toList, .num (.real (.infinity false))),
    ("-Infinity".toList, .num (.real (.infinity true)))]

/-- Reads a named value. -/
def readName? (s : Text) : Option (Json × Text) :=
  names.findSome? fun n => (after? n.1 s).map fun rest => (n.2, rest)

mutual

/-- Reads one value at the start of a text.  The first argument is the room for open containers, the
second one bounds the depth of the recursion. -/
def readValue : Nat → Nat → Text → Except JsonFault (Json × Text)
  | _, 0, _ => .error .value
  | _, _ + 1, [] => .error .value
  | room, n + 1, c :: rest =>
    if c = '"' then (readString rest).map fun (s, r) => (.str s, r)
    else if c = '[' then
      match room with
      | 0 => .error (.tooDeep .array)
      | room + 1 =>
        match skipSpace rest with
        | d :: r => if d = ']' then .ok (.arr [], r) else
            (readItems room n (d :: r)).map fun (vs, r) => (.arr vs, r)
        | [] => .error .value
    else if c = '\x7b' then
      match room with
      | 0 => .error (.tooDeep .object)
      | room + 1 =>
        match skipSpace rest with
        | d :: r => if d = '\x7d' then .ok (.obj [], r) else
            (readMembers room n (d :: r)).map fun (ps, r) => (.obj (Fields.ofPairs ps), r)
        | [] => .error .memberName
    else
      match readName? (c :: rest) with
      | some v => .ok v
      | none => (readNumber (c :: rest)).map fun (x, r) => (.num x, r)

/-- Reads the items of an array up to and with its closing bracket. -/
def readItems : Nat → Nat → Text → Except JsonFault (List Json × Text)
  | _, 0, _ => .error .value
  | room, n + 1, s => do
    let (v, r) ← readValue room n s
    match skipSpace r with
    | c :: r =>
      if c = ']' then .ok ([v], r)
      else if c = ',' then do
        let (vs, r) ← readItems room n (skipSpace r)
        .ok (v :: vs, r)
      else .error .comma
    | [] => .error .comma

/-- Reads the members of an object up to and with its closing brace. -/
def readMembers : Nat → Nat → Text → Except JsonFault (List (Text × Json) × Text)
  | _, 0, _ => .error .memberName
  | _, _ + 1, [] => .error .memberName
  | room, n + 1, q :: s =>
    if q ≠ '"' then .error .memberName
    else do
      let (k, r) ← readString s
      match skipSpace r with
      | c :: r =>
        if c ≠ ':' then .error .colon
        else do
          let (v, r) ← readValue room n (skipSpace r)
          match skipSpace r with
          | d :: r =>
            if d = '\x7d' then .ok ([(k, v)], r)
            else if d = ',' then do
              let (ps, r) ← readMembers room n (skipSpace r)
              .ok ((k, v) :: ps, r)
            else .error .comma
          | [] => .error .comma
      | [] => .error .colon

end

/-- Reads a text as one JSON value, with room for so many open containers. -/
def read (room : Nat) (s : Text) : Except JsonFault Json :=
  match s with
  | .scalar '\uFEFF' :: _ => .error .byteOrderMark
  | _ => do
    let (v, r) ← readValue room (2 * s.length + 2) (skipSpace s)
    match skipSpace r with
    | [] => .ok v
    | _ :: _ => .error .extra

end Json

end RouteScribe
