import RouteScribe.Text.Order

/-!
# Similar words

The similarity of two words is the share of their characters that match when the longest common
stretch is found first and then, on either side of it, the longest common stretches again.
`similarTo` lists the words of a list that are similar enough to a given one, at most three.
-/

namespace RouteScribe

namespace Similar

/-- The number of characters that two texts share at their starts. -/
def commonStart : List Char → List Char → Nat
  | a :: as, b :: bs => if a = b then commonStart as bs + 1 else 0
  | _, _ => 0

/-- A common stretch: where it starts in either text, and its length. -/
structure Stretch where
  first : Nat
  second : Nat
  length : Nat
deriving DecidableEq, Repr

/-- The longest common stretch, and of those the leftmost in the first text and then in the
second. -/
def longest (a b : List Char) : Stretch :=
  (List.range a.length).foldl (fun best i =>
    (List.range b.length).foldl (fun best j =>
      let n := commonStart (a.drop i) (b.drop j)
      if n > best.length then ⟨i, j, n⟩ else best) best) ⟨0, 0, 0⟩

/-- The number of characters that match; `room` bounds the number of stretches. -/
def matchedWithin : Nat → List Char → List Char → Nat
  | 0, _, _ => 0
  | room + 1, a, b =>
    let s := longest a b
    if s.length = 0 then 0
    else
      s.length + matchedWithin room (a.take s.first) (b.take s.second) +
        matchedWithin room (a.drop (s.first + s.length)) (b.drop (s.second + s.length))

/-- The number of characters that match. -/
def matched (a b : List Char) : Nat := matchedWithin (a.length + 1) a b

/-- The matching characters are three fifths of all. -/
def isSimilar (a b : List Char) : Bool := 10 * matched a b ≥ 3 * (a.length + b.length)

end Similar

/-- Of two words the first is at least as similar to a third; of equally similar ones it is the
later in the order of texts. -/
def Similar.ahead (word a b : List Char) : Bool :=
  let share := Similar.matched a word * (b.length + word.length)
  let other := Similar.matched b word * (a.length + word.length)
  if share = other then textLe b a else share > other

/-- The words that are most similar to the given one, at most three, in order. -/
def similarTo (word : List Char) (words : List (List Char)) : List (List Char) :=
  let found := (words.filter fun w => Similar.isSimilar w word).mergeSort fun a b =>
    Similar.ahead word a b
  (found.take 3).mergeSort fun a b => textLe a b

end RouteScribe
