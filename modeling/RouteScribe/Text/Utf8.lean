/-!
# UTF-8

`Utf8.decode` reads bytes strictly: overlong forms, surrogates and numbers above U+10FFFF are
refused.  A fault names the bytes of the sequence that could not be completed.  `Utf8.encode` is the
way back.
-/

namespace RouteScribe

namespace Utf8

/-- What breaks off a sequence of bytes. -/
inductive Break where
  | startByte
  | continuation
  | endOfData
deriving DecidableEq, Repr

/-- The words for the end of a sequence. -/
def Break.message : Break → String
  | startByte => "invalid start byte"
  | continuation => "invalid continuation byte"
  | endOfData => "unexpected end of data"

/-- A broken sequence: its first byte, where it starts, and how many of its bytes were good. -/
structure Fault where
  kind : Break
  first : UInt8
  start : Nat
  count : Nat
deriving DecidableEq, Repr

/-- A byte in words. -/
def byteText (b : UInt8) : String :=
  let ds := Nat.toDigits 16 b.toNat
  "0x" ++ String.ofList (List.replicate (2 - ds.length) '0' ++ ds)

/-- The words for a broken sequence. -/
def Fault.message (f : Fault) : String :=
  let bytes :=
    if f.count = 1 then "byte " ++ byteText f.first ++ " in position " ++ toString f.start
    else "bytes in position " ++ toString f.start ++ "-" ++ toString (f.start + f.count - 1)
  "'utf-8' codec can't decode " ++ bytes ++ ": " ++ f.kind.message

/-- A sequence that waits for `need` more bytes, the next one between `low` and `high`. -/
structure Pending where
  need : Nat
  low : UInt8
  high : UInt8
  value : Nat
  first : UInt8
  start : Nat
  count : Nat
deriving DecidableEq, Repr

/-- What the first byte of a sequence of several bytes promises: how many follow, the bounds of the
next one, and the bits of its own. -/
def lead? (b : UInt8) : Option (Nat × UInt8 × UInt8 × Nat) :=
  let n := b.toNat
  if n < 0xC2 then none
  else if n < 0xE0 then some (1, 0x80, 0xBF, n - 0xC0)
  else if n = 0xE0 then some (2, 0xA0, 0xBF, 0)
  else if n = 0xED then some (2, 0x80, 0x9F, 0xD)
  else if n < 0xF0 then some (2, 0x80, 0xBF, n - 0xE0)
  else if n = 0xF0 then some (3, 0x90, 0xBF, 0)
  else if n < 0xF4 then some (3, 0x80, 0xBF, n - 0xF0)
  else if n = 0xF4 then some (3, 0x80, 0x8F, 4)
  else none

/-- The characters of the bytes from a position on, inside a sequence or between two. -/
def decodeFrom (position : Nat) : Option Pending → List UInt8 → Except Fault (List Char)
  | none, [] => .ok []
  | some p, [] => .error ⟨.endOfData, p.first, p.start, p.count⟩
  | none, b :: rest =>
    if b < 0x80 then (decodeFrom (position + 1) none rest).map (Char.ofNat b.toNat :: ·)
    else
      match lead? b with
      | none => .error ⟨.startByte, b, position, 1⟩
      | some (need, low, high, value) =>
        decodeFrom (position + 1) (some ⟨need, low, high, value, b, position, 1⟩) rest
  | some p, b :: rest =>
    if p.low ≤ b && b ≤ p.high then
      let value := p.value * 64 + b.toNat % 64
      if p.need ≤ 1 then (decodeFrom (position + 1) none rest).map (Char.ofNat value :: ·)
      else
        decodeFrom (position + 1)
          (some ⟨p.need - 1, 0x80, 0xBF, value, p.first, p.start, p.count + 1⟩) rest
    else .error ⟨.continuation, p.first, p.start, p.count⟩

/-- The characters of a list of bytes. -/
def decode (bs : List UInt8) : Except Fault (List Char) := decodeFrom 0 none bs

/-- The bytes of a list of characters. -/
def encode (s : List Char) : List UInt8 := s.flatMap String.utf8EncodeChar

end Utf8

/-- The text with a line feed for each line end of another kind. -/
def plainLines : List Char → List Char
  | '\r' :: '\n' :: rest => '\n' :: plainLines rest
  | '\r' :: rest => '\n' :: plainLines rest
  | c :: rest => c :: plainLines rest
  | [] => []

end RouteScribe
