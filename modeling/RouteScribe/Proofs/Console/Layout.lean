import Mathlib.Algebra.Ring.Nat
import RouteScribe.Console.Log
import RouteScribe.Proofs.Text.Split

/-! # Where the columns of a table stand

A `Layout` is a gutter and the widths of the columns behind it, with a blank between neighbours.  A
line of fields with these widths has each field at the start of its column (`take_drop_start`) and
is as long as the layout says (`length_spaced`).  A rule shows the layout, since its dashes are no
blanks (`layout_of_rule`). -/

namespace RouteScribe
namespace Log

/-- The gutter before a table, and the widths of its columns. -/
structure Layout where
  gutter : Nat
  widths : List Nat

namespace Layout

/-- Where a column starts: behind the gutter and the columns before it, each with a blank. -/
def start (l : Layout) (j : Nat) : Nat := l.gutter + ((l.widths.take j).map (· + 1)).sum

/-- The length of a line: no blank stands behind the last column. -/
def total (l : Layout) : Nat := l.start l.widths.length - 1

/-- The line has a text at the start of a column, and blanks up to its end, at least so many. -/
def Shows (l : Layout) (line : List Char) (j : Nat) (text : List Char) (blanks : Nat) : Prop :=
  ∃ w, l.widths[j]? = some w ∧ text.length + blanks ≤ w ∧
    (line.drop (l.start j)).take w = padRight w text

theorem start_zero (l : Layout) : l.start 0 = l.gutter := rfl

/-- The columns behind the first one stand as in a table with a wider gutter. -/
theorem start_succ (gutter w : Nat) (ws : List Nat) (j : Nat) :
    start ⟨gutter, w :: ws⟩ (j + 1) = start ⟨gutter + (w + 1), ws⟩ j := by
  simp [start, Nat.add_assoc]

/-- The rule under the heading of a table. -/
def rule (l : Layout) : List Char :=
  List.replicate l.gutter ' ' ++ spaced (l.widths.map fun w => List.replicate w '─')

end Layout

/-! ### Fields in a row -/

theorem spaced_cons_cons (f g : List Char) (fs : List (List Char)) :
    spaced (f :: g :: fs) = f ++ ' ' :: spaced (g :: fs) := by
  rw [spaced, spaced, joined_cons_cons, List.singleton_append]

theorem spaced_singleton (f : List Char) : spaced [f] = f := by
  simp [spaced, joined, List.intercalate]

/-- The first field, with the blank behind it, widens the gutter of the others. -/
theorem append_spaced_cons (front f g : List Char) (fs : List (List Char)) :
    front ++ spaced (f :: g :: fs) = (front ++ (f ++ [' '])) ++ spaced (g :: fs) := by
  rw [spaced_cons_cons]
  simp

theorem length_append_spaced {fs : List (List Char)} (h : fs ≠ []) (front : List Char) :
    (front ++ spaced fs).length + 1 =
      Layout.start ⟨front.length, fs.map List.length⟩ fs.length := by
  induction fs generalizing front with
  | nil => exact absurd rfl h
  | cons f fs ih =>
      rw [List.map_cons, List.length_cons, Layout.start_succ]
      cases fs with
      | nil => simp [spaced_singleton, Layout.start, Nat.add_assoc]
      | cons g fs =>
          rw [append_spaced_cons, ih (List.cons_ne_nil g fs)]
          simp

/-- A line of fields is as long as their layout. -/
theorem length_spaced {fs : List (List Char)} (h : fs ≠ []) (front : List Char) :
    (front ++ spaced fs).length = Layout.total ⟨front.length, fs.map List.length⟩ := by
  have hlength := length_append_spaced h front
  rw [Layout.total, List.length_map, ← hlength, Nat.add_sub_cancel]

/-- A field stands at the start of its column. -/
theorem take_drop_start (front : List Char) {fs : List (List Char)} {j : Nat} {f : List Char}
    (h : fs[j]? = some f) :
    ((front ++ spaced fs).drop (Layout.start ⟨front.length, fs.map List.length⟩ j)).take f.length =
      f := by
  induction fs generalizing front j with
  | nil => simp at h
  | cons g fs ih =>
      cases j with
      | zero =>
          obtain rfl : g = f := by simpa using h
          rw [Layout.start_zero, List.drop_left]
          cases fs with
          | nil => simp [spaced_singleton]
          | cons g' fs => simp [spaced_cons_cons]
      | succ j =>
          rw [List.map_cons, Layout.start_succ]
          cases fs with
          | nil => simp at h
          | cons g' fs =>
              rw [append_spaced_cons]
              have hlength : front.length + (g.length + 1) = (front ++ (g ++ [' '])).length := by
                simp
              rw [hlength]
              exact ih _ h

theorem length_padRight {w : Nat} {s : List Char} (h : s.length ≤ w) :
    (padRight w s).length = w := by
  simp only [padRight, List.length_append, List.length_replicate]
  omega

/-- A text that is filled up to a width stands in its column. -/
theorem shows_of_padRight {l : Layout} (front : List Char) {fs : List (List Char)}
    (hl : l = ⟨front.length, fs.map List.length⟩) {j : Nat} {w : Nat} {text : List Char}
    {blanks : Nat} (h : fs[j]? = some (padRight w text)) (hw : text.length + blanks ≤ w) :
    l.Shows (front ++ spaced fs) j text blanks := by
  have hlength := length_padRight (Nat.le_of_add_right_le hw)
  have htake := take_drop_start front h
  rw [hlength] at htake
  exact ⟨w, by simp [hl, h, hlength], hw, hl ▸ htake⟩

/-! ### The rule -/

theorem pieces_blanks (n : Nat) (s : List Char) :
    pieces ' ' (List.replicate n ' ' ++ s) = List.replicate n [] ++ pieces ' ' s := by
  induction n with
  | zero => rfl
  | succ n ih =>
      rw [List.replicate_succ, List.replicate_succ, List.cons_append, List.cons_append, ← ih]
      exact pieces_append_cons ' ' [] _

theorem length_rule {l : Layout} (h : l.widths ≠ []) : l.rule.length = l.total := by
  rw [Layout.rule, length_spaced (by simpa using h)]
  simp [Function.comp_def]

theorem pieces_rule {l : Layout} (h : l.widths ≠ []) :
    pieces ' ' l.rule =
      List.replicate l.gutter [] ++ l.widths.map fun w => List.replicate w '─' := by
  rw [Layout.rule, pieces_blanks, spaced, pieces_joined (by simpa using h)]
  rw [List.forall_mem_map]
  intro w _ hm
  exact absurd (List.eq_of_mem_replicate hm) (by decide)

/-- The rule of a table with so many columns shows where they stand. -/
theorem layout_of_rule {l l' : Layout} (hne : l.widths ≠ [])
    (hlength : l'.widths.length = l.widths.length) (h : l'.rule = l.rule) : l' = l := by
  have hne' : l'.widths ≠ [] := by
    rw [← List.length_pos_iff] at hne ⊢
    omega
  have hpieces := congrArg (pieces ' ') h
  rw [pieces_rule hne, pieces_rule hne'] at hpieces
  have hparts := List.append_inj' hpieces (by simp [hlength])
  obtain ⟨gutter, widths⟩ := l
  obtain ⟨gutter', widths'⟩ := l'
  have hgutter : gutter' = gutter := by simpa using congrArg List.length hparts.1
  have hwidths : widths' = widths := by
    have hmap := congrArg (List.map List.length) hparts.2
    simpa [Function.comp_def] using hmap
  rw [hgutter, hwidths]

end Log
end RouteScribe
