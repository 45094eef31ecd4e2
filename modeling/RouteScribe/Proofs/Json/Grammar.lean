import Mathlib.Data.List.Forall2
import RouteScribe.Json.Reader

/-! # The grammar of JSON

`Json.Denotes t v` says that the text `t` is strict JSON and stands for the value `v`.  It is the
grammar of the standard with a value for each of its rules, and says nothing about how a text is
read: there is no rule for `NaN` or an infinity, a whole part has no leading zero, and the names of
an object differ.  A number without a fraction and an exponent stands for an integer, every other
one for the double precision number next to it.  Digits and escapes have their values from the
tables of the reader. -/

namespace RouteScribe
namespace Json

/-! ### Numbers -/

/-- Decimal digits and their values. -/
abbrev Digits : Text → List Nat → Prop := List.Forall₂ fun c d => digit? c = some d

/-- A sign before a number, and whether it makes the number negative. -/
inductive Sign : Text → Bool → Prop where
  | none : Sign [] false
  | minus : Sign [.scalar '-'] true

/-- The digits before the point: a zero alone, or digits that do not begin with a zero. -/
inductive Whole : Text → List Nat → Prop where
  | zero : Whole [.scalar '0'] [0]
  | digits {c : CodePoint} {t : Text} {d : Nat} {ds : List Nat} (h : Digits (c :: t) (d :: ds))
      (hd : d ≠ 0) : Whole (c :: t) (d :: ds)

/-- The digits behind the point, if there is one. -/
inductive Fraction : Text → List Nat → Prop where
  | none : Fraction [] []
  | digits {t : Text} {d : Nat} {ds : List Nat} (h : Digits t (d :: ds)) :
      Fraction (.scalar '.' :: t) (d :: ds)

/-- A sign before an exponent. -/
inductive ExponentSign : Text → Bool → Prop where
  | none : ExponentSign [] false
  | plus : ExponentSign [.scalar '+'] false
  | minus : ExponentSign [.scalar '-'] true

/-- The integer of a sign and an absolute value. -/
def signed (negative : Bool) (n : Nat) : Int := if negative then -(n : Int) else n

/-- The exponent, if there is one. -/
inductive Exponent : Text → Option Int → Prop where
  | none : Exponent [] none
  | digits {e : CodePoint} {s t : Text} {negative : Bool} {d : Nat} {ds : List Nat}
      (he : e = 'e' ∨ e = 'E') (hs : ExponentSign s negative) (h : Digits t (d :: ds)) :
      Exponent (e :: (s ++ t)) (some (signed negative (digitsValue (d :: ds))))

/-- The number that its parts make up. -/
def numberOf (negative : Bool) (whole fraction : List Nat) : Option Int → Number
  | none =>
    if fraction.isEmpty then .integer (signed negative (digitsValue whole))
    else .real (.ofDecimal negative (digitsValue (whole ++ fraction)) (-fraction.length))
  | some e => .real (.ofDecimal negative (digitsValue (whole ++ fraction)) (e - fraction.length))

/-- A number. -/
inductive NumberText : Text → Number → Prop where
  | mk {s w f x : Text} {negative : Bool} {ds fs : List Nat} {e : Option Int}
      (hs : Sign s negative) (hw : Whole w ds) (hf : Fraction f fs) (hx : Exponent x e) :
      NumberText (s ++ (w ++ (f ++ x))) (numberOf negative ds fs e)

/-! ### Strings -/

/-- The inside of a string and its parts: code points as they stand, escapes of one letter, and
escapes by four hexadecimal digits. -/
inductive StringBody : Text → List Piece → Prop where
  | nil : StringBody [] []
  | plain {c : CodePoint} {t : Text} {ps : List Piece} (hq : c ≠ '"') (hb : c ≠ '\\')
      (hc : 0x20 ≤ c.code) (h : StringBody t ps) : StringBody (c :: t) (.plain c :: ps)
  | short {e : CodePoint} {x : Char} {t : Text} {ps : List Piece} (he : shortEscape? e = some x)
      (h : StringBody t ps) : StringBody (.scalar '\\' :: e :: t) (.plain x :: ps)
  | unit {a b c d : CodePoint} {n : Nat} {t : Text} {ps : List Piece} (hn : hex4? a b c d = some n)
      (h : StringBody t ps) :
      StringBody (.scalar '\\' :: .scalar 'u' :: a :: b :: c :: d :: t) (.unit n :: ps)

/-- A string with its quotes. -/
inductive StringText : Text → Text → Prop where
  | mk {t : Text} {ps : List Piece} (h : StringBody t ps) :
      StringText (.scalar '"' :: (t ++ [.scalar '"'])) (joinPieces none ps)

/-! ### Values -/

/-- Blanks between tokens. -/
def Blank (t : Text) : Prop := ∀ c ∈ t, isSpace c = true

mutual

/-- The text is strict JSON and stands for the value. -/
inductive Denotes : Text → Json → Prop where
  | null : Denotes "null" .null
  | isTrue : Denotes "true" (.bool true)
  | isFalse : Denotes "false" (.bool false)
  | num {t : Text} {n : Number} (h : NumberText t n) : Denotes t (.num n)
  | str {t s : Text} (h : StringText t s) : Denotes t (.str s)
  | emptyArr {b : Text} (hb : Blank b) : Denotes (.scalar '[' :: (b ++ [.scalar ']'])) (.arr [])
  | arr {t : Text} {vs : List Json} (h : Items t vs) :
      Denotes (.scalar '[' :: (t ++ [.scalar ']'])) (.arr vs)
  | emptyObj {b : Text} (hb : Blank b) :
      Denotes (.scalar '\x7b' :: (b ++ [.scalar '\x7d'])) (.obj [])
  | obj {t : Text} {ms : List (Text × Json)} (h : Members t ms) (hn : (ms.map Prod.fst).Nodup) :
      Denotes (.scalar '\x7b' :: (t ++ [.scalar '\x7d'])) (.obj ms)

/-- A value between blanks. -/
inductive Item : Text → Json → Prop where
  | mk {a t b : Text} {v : Json} (ha : Blank a) (h : Denotes t v) (hb : Blank b) :
      Item (a ++ (t ++ b)) v

/-- The items of an array. -/
inductive Items : Text → List Json → Prop where
  | one {t : Text} {v : Json} (h : Item t v) : Items t [v]
  | cons {t r : Text} {v : Json} {vs : List Json} (h : Item t v) (hr : Items r vs) :
      Items (t ++ .scalar ',' :: r) (v :: vs)

/-- A name and a value with a colon between them. -/
inductive Member : Text → Text × Json → Prop where
  | mk {a q b t k : Text} {v : Json} (ha : Blank a) (hk : StringText q k) (hb : Blank b)
      (h : Item t v) : Member (a ++ (q ++ (b ++ .scalar ':' :: t))) (k, v)

/-- The members of an object. -/
inductive Members : Text → List (Text × Json) → Prop where
  | one {t : Text} {m : Text × Json} (h : Member t m) : Members t [m]
  | cons {t r : Text} {m : Text × Json} {ms : List (Text × Json)} (h : Member t m)
      (hr : Members r ms) : Members (t ++ .scalar ',' :: r) (m :: ms)

end

end Json
end RouteScribe
