import RouteScribe.Proofs.Console.Layout
import RouteScribe.Proofs.Console.Plain
import RouteScribe.Proofs.Lists
import RouteScribe.Proofs.Text.Case

/-! # Tables are aligned

A table is printed as a heading, a rule and a line for each row.  Without styles the rows are always
aligned under the rule; the heading is aligned with them exactly if the upper case form of every
column name fits into its column and holds no control sequence (`Console.printsAligned_iff`).  The
width of a column is taken from the name as it was given, and some letters have longer upper case
forms. -/

namespace RouteScribe
namespace Log

open Style (plain Clean)

variable {columns : List (List Char)} {rows : List Row}

/-! ### What is promised -/

/-- The lines of a table stand under each other: all have one length, each name and each cell is
shown at the start of its column, a cell with two blanks behind it, and each row begins with its
number. -/
structure Layout.Aligns (l : Layout) (columns : List (List Char)) (rows : List Row)
    (heading rule : List Char) (body : List (List Char)) : Prop where
  width : l.widths.length = columns.length
  count : body.length = rows.length
  length : ∀ line ∈ heading :: rule :: body, line.length = l.total
  names : ∀ (j : Nat) name, columns[j]? = some name → l.Shows heading j (upper name) 0
  rule : rule = l.rule
  numbers : ∀ (i : Nat) line, body[i]? = some line →
    padLeft (numberWidth rows) (Nat.toDigits 10 (i + 1)) ++ ['.'] <+: line
  cells : ∀ (i : Nat) row line, rows[i]? = some row → body[i]? = some line →
    ∀ (j : Nat) name, columns[j]? = some name → l.Shows line j (cell row name) 2

/-- What is printed for a table is a heading, a rule and a body, and these are aligned when control
sequences are removed. -/
def Console.PrintsAligned (c : Console) (columns : List (List Char)) (rows : List Row) : Prop :=
  ∃ heading rule body, c.print (.table columns rows) =
      ⟨(heading :: rule :: body).flatMap (· ++ ['\n']), []⟩ ∧
    (∀ line ∈ heading :: rule :: body, '\n' ∉ line) ∧
    ∃ l : Layout, l.Aligns columns rows (plain heading) (plain rule) (body.map plain)

/-! ### Texts without styles -/

theorem plain_blank_cons (t : List Char) : plain (' ' :: t) = ' ' :: plain t :=
  Style.plain_cons (by decide) t

theorem plain_append_blank (s t : List Char) :
    plain (s ++ ' ' :: t) = plain s ++ ' ' :: plain t := by
  rw [Style.plain_append Style.stops_blank, plain_blank_cons]

theorem plain_blanks_append (n : Nat) (t : List Char) :
    plain (List.replicate n ' ' ++ t) = List.replicate n ' ' ++ plain t := by
  induction n with
  | zero => rfl
  | succ n ih => rw [List.replicate_succ, List.cons_append, plain_blank_cons, ih, List.cons_append]

theorem plain_spaced (fs : List (List Char)) : plain (spaced fs) = spaced (fs.map plain) := by
  induction fs with
  | nil => rfl
  | cons f fs ih =>
      cases fs with
      | nil => simp [spaced_singleton]
      | cons g fs =>
          rw [spaced_cons_cons, plain_append_blank, ih]
          exact (spaced_cons_cons (plain f) (plain g) (fs.map plain)).symm

theorem plain_padRight (w : Nat) (s : List Char) :
    plain (padRight w s) = plain s ++ List.replicate (w - s.length) ' ' := by
  rw [padRight]
  cases w - s.length with
  | zero => simp
  | succ n =>
      have hblanks := plain_blanks_append n []
      rw [List.append_nil] at hblanks
      rw [List.replicate_succ, plain_append_blank, hblanks]
      simp [plain, Style.plainFrom]

/-- A filled text is clean exactly if the text is. -/
theorem clean_padRight_iff (w : Nat) (s : List Char) : Clean (padRight w s) ↔ Clean s := by
  rw [← Style.length_plain_eq_iff, ← Style.length_plain_eq_iff, plain_padRight, padRight,
    List.length_append, List.length_append, Nat.add_right_cancel_iff]

namespace Console

variable (c : Console)

/-- A line as it is printed. -/
def shown (s : List Char) : List Char := if c.color then s else plain s

theorem plain_shown_of_clean {s : List Char} (h : Clean s) : plain (c.shown s) = s := by
  rw [shown]
  split
  · exact h.plain_eq
  · rw [h.plain_eq, h.plain_eq]

theorem length_plain_shown_le (s : List Char) : (plain (c.shown s)).length ≤ (plain s).length := by
  rw [shown]
  split
  · exact le_rfl
  · exact (Style.plain_sublist _).length_le

theorem mem_of_mem_shown {s : List Char} {x : Char} (h : x ∈ c.shown s) : x ∈ s := by
  rw [shown] at h
  split at h
  · exact h
  · exact (Style.plain_sublist s).subset h

/-- Styled fields behind blanks, when control sequences are removed. -/
theorem plain_shown_spaced (n : Nat) (p : Style.Properties) (fs : List (List Char)) :
    plain (c.shown (List.replicate n ' ' ++ spaced (fs.map (Style.styled p)))) =
      List.replicate n ' ' ++ spaced (fs.map fun f => plain (c.shown f)) := by
  have hone : plain (List.replicate n ' ' ++ spaced (fs.map (Style.styled p))) =
      List.replicate n ' ' ++ spaced (fs.map plain) := by
    rw [plain_blanks_append, plain_spaced, List.map_map]
    congr 2
    exact List.map_congr_left fun f _ => Style.plain_styled p f
  unfold shown
  split
  · exact hone
  · rw [hone, plain_blanks_append, plain_spaced, List.map_map]
    rfl

end Console

/-! ### The lines of a table -/

/-- Where the columns of a table stand. -/
def tableLayout (columns : List (List Char)) (rows : List Row) : Layout :=
  ⟨numberWidth rows + 2, columns.map (columnWidth rows)⟩

/-- The heading, before it is printed. -/
def tableHeading (columns : List (List Char)) (rows : List Row) : List Char :=
  List.replicate (numberWidth rows + 2) ' ' ++ spaced (columns.map fun name =>
    Style.styled { bold := true } (padRight (columnWidth rows name) (upper name)))

/-- The rule under the heading. -/
def tableRule (columns : List (List Char)) (rows : List Row) : List Char :=
  List.replicate (numberWidth rows + 2) ' ' ++ spaced (columns.map fun name =>
    Style.styled { dim := true } (List.replicate (columnWidth rows name) '─'))

/-- The line of a row. -/
def tableLine (columns : List (List Char)) (rows : List Row) (row : Row) (i : Nat) : List Char :=
  Style.styled { dim := true }
      (padLeft (numberWidth rows) (Nat.toDigits 10 (i + 1)) ++ ['.']) ++
    ' ' :: spaced (columns.map fun name => padRight (columnWidth rows name) (cell row name))

/-- The numbered rows. -/
def tableBody (columns : List (List Char)) (rows : List Row) : List (List Char) :=
  rows.zipIdx.map fun r => tableLine columns rows r.1 r.2

theorem tableLines_eq (columns : List (List Char)) (rows : List Row) :
    tableLines columns rows =
      tableHeading columns rows :: tableRule columns rows :: tableBody columns rows := rfl

/-- A text for each column, filled up to the width of the column. -/
def filled (columns : List (List Char)) (rows : List Row) (text : List Char → List Char) :
    List (List Char) := columns.map fun name => padRight (columnWidth rows name) (text name)

section Filled

variable {front : List Char} {text : List Char → List Char}

theorem tableLayout_eq (hf : front.length = numberWidth rows + 2)
    (h : ∀ name ∈ columns, (text name).length ≤ columnWidth rows name) :
    tableLayout columns rows = ⟨front.length, (filled columns rows text).map List.length⟩ := by
  rw [tableLayout, hf, filled, List.map_map]
  congr 1
  exact List.map_congr_left fun name hname => (length_padRight (h name hname)).symm

theorem length_filled (hne : columns ≠ []) (hf : front.length = numberWidth rows + 2)
    (h : ∀ name ∈ columns, (text name).length ≤ columnWidth rows name) :
    (front ++ spaced (filled columns rows text)).length = (tableLayout columns rows).total := by
  rw [tableLayout_eq hf h, length_spaced (by simpa [filled] using hne)]

/-- Filled texts behind a front of this length stand in their columns. -/
theorem shows_filled (hf : front.length = numberWidth rows + 2) {blanks : Nat}
    (h : ∀ name ∈ columns, (text name).length + blanks ≤ columnWidth rows name) {j : Nat}
    {name : List Char} (hj : columns[j]? = some name) :
    (tableLayout columns rows).Shows (front ++ spaced (filled columns rows text)) j (text name)
      blanks := by
  have hname : name ∈ columns := List.mem_of_getElem? hj
  have hlayout := tableLayout_eq hf fun name hname => le_of_add_le_left (h name hname)
  exact shows_of_padRight front hlayout (by simp [filled, hj]) (h name hname)

end Filled

theorem plain_shown_heading (c : Console) (columns : List (List Char)) (rows : List Row) :
    plain (c.shown (tableHeading columns rows)) =
      List.replicate (numberWidth rows + 2) ' ' ++ spaced (columns.map fun name =>
        plain (c.shown (padRight (columnWidth rows name) (upper name)))) := by
  have h := c.plain_shown_spaced (numberWidth rows + 2) { bold := true }
    (columns.map fun name => padRight (columnWidth rows name) (upper name))
  rwa [List.map_map, List.map_map] at h

theorem clean_dashes (w : Nat) : Clean (List.replicate w '─') :=
  Style.clean_of_not_mem fun h => absurd (List.eq_of_mem_replicate h) (by decide)

theorem plain_shown_rule (c : Console) (columns : List (List Char)) (rows : List Row) :
    plain (c.shown (tableRule columns rows)) = (tableLayout columns rows).rule := by
  have h := c.plain_shown_spaced (numberWidth rows + 2) { dim := true }
    (columns.map fun name => List.replicate (columnWidth rows name) '─')
  rw [List.map_map, List.map_map] at h
  refine h.trans ?_
  rw [tableLayout, Layout.rule, List.map_map]
  congr 2
  exact List.map_congr_left fun name _ => c.plain_shown_of_clean (clean_dashes _)

/-- The number of a row, with a point behind it. -/
def rowNumber (rows : List Row) (i : Nat) : List Char :=
  padLeft (numberWidth rows) (Nat.toDigits 10 (i + 1)) ++ ['.']

theorem of_mem_rowNumber {i : Nat} {x : Char} (h : x ∈ rowNumber rows i) :
    x = ' ' ∨ x.isDigit = true ∨ x = '.' := by
  rcases List.mem_append.mp h with h | h
  · rcases List.mem_append.mp h with h | h
    · exact .inl (List.eq_of_mem_replicate h)
    · exact .inr (.inl (Nat.isDigit_of_mem_toDigits (by decide) (by decide) h))
  · exact .inr (.inr (List.mem_singleton.mp h))

theorem clean_rowNumber (rows : List Row) (i : Nat) : Clean (rowNumber rows i) :=
  Style.clean_of_not_mem fun h => absurd (of_mem_rowNumber h) (by decide)

theorem length_rowNumber {i : Nat} (h : i < rows.length) :
    (rowNumber rows i).length = numberWidth rows + 1 := by
  have hpos : 0 < numberWidth rows := Nat.length_toDigits_pos
  have hlast : rows.length < 10 ^ numberWidth rows :=
    (Nat.length_toDigits_le_iff (by decide) hpos).mp le_rfl
  have hdigits : (Nat.toDigits 10 (i + 1)).length ≤ numberWidth rows :=
    (Nat.length_toDigits_le_iff (by decide) hpos).mpr (by omega)
  simp only [rowNumber, padLeft, List.length_append, List.length_replicate, List.length_singleton]
  omega

theorem plain_shown_line (c : Console) {row : Row}
    (h : ∀ name ∈ columns, Clean (cell row name)) (i : Nat) :
    plain (c.shown (tableLine columns rows row i)) =
      (rowNumber rows i ++ [' ']) ++ spaced (filled columns rows (cell row)) := by
  let fs := filled columns rows (cell row)
  have hfs : fs.map plain = fs := by
    unfold fs filled
    rw [List.map_map]
    exact List.map_congr_left fun name hname =>
      ((clean_padRight_iff _ _).mpr (h name hname)).plain_eq
  have hsame : plain (rowNumber rows i ++ ' ' :: spaced fs) =
      rowNumber rows i ++ ' ' :: spaced fs := by
    rw [plain_append_blank, (clean_rowNumber rows i).plain_eq, plain_spaced, hfs]
  have hone : plain (tableLine columns rows row i) = rowNumber rows i ++ ' ' :: spaced fs := by
    rw [tableLine, plain_append_blank, Style.plain_styled, ← plain_append_blank]
    exact hsame
  rw [List.append_assoc, List.singleton_append]
  unfold Console.shown
  split
  · exact hone
  · rw [hone, hsame]

/-! ### Alignment -/

theorem length_cell_le {row : Row} (h : row ∈ rows) (name : List Char) :
    (cell row name).length + 2 ≤ columnWidth rows name := by
  have hmem : (cell row name).length ∈ rows.map fun row => (cell row name).length :=
    List.mem_map.mpr ⟨row, h, rfl⟩
  exact Nat.add_le_add_right (le_foldl_max hmem _) 2

theorem Layout.total_add_one {l : Layout} (h : l.widths ≠ []) :
    l.total + 1 = l.gutter + (l.widths.map (· + 1)).sum := by
  obtain ⟨gutter, widths⟩ := l
  obtain ⟨w, ws, rfl⟩ := List.exists_cons_of_ne_nil h
  simp only [Layout.total, Layout.start, List.take_length, List.map_cons, List.sum_cons]
  omega

theorem total_tableLayout (hne : columns ≠ []) : (tableLayout columns rows).total + 1 =
    numberWidth rows + 2 + (columns.map fun name => columnWidth rows name + 1).sum := by
  rw [Layout.total_add_one (by simpa [tableLayout] using hne), tableLayout, List.map_map]
  rfl

/-- A heading of the right length has no control sequences in it. -/
theorem clean_of_length (c : Console) (hne : columns ≠ [])
    (hfits : ∀ name ∈ columns, (upper name).length ≤ columnWidth rows name)
    (h : (plain (c.shown (tableHeading columns rows))).length = (tableLayout columns rows).total) :
    ∀ name ∈ columns, Clean (upper name) := by
  let pad name := padRight (columnWidth rows name) (upper name)
  have hshown : ∀ name, (plain (c.shown (pad name))).length ≤ (plain (pad name)).length :=
    fun name => c.length_plain_shown_le _
  have hplain : ∀ name ∈ columns, (plain (pad name)).length ≤ columnWidth rows name :=
    fun name hname =>
      (Style.plain_sublist _).length_le.trans_eq (length_padRight (hfits name hname))
  have hsum : (columns.map fun name => columnWidth rows name + 1).sum ≤
      (columns.map fun name => (plain (c.shown (pad name))).length + 1).sum := by
    have hright : (tableLayout columns rows).total + 1 = _ := total_tableLayout hne
    rw [← h, plain_shown_heading, length_spaced (by simpa using hne),
      Layout.total_add_one (by simpa using hne), List.length_replicate, List.map_map,
      List.map_map] at hright
    exact (Nat.add_left_cancel hright).ge
  -- The fields reach the sum of the widths, so none of them lost a character.
  have heq := eq_of_sum_map_le
    (fun name hname => Nat.add_le_add_right ((hshown name).trans (hplain name hname)) 1) hsum
  intro name hname
  have hwidth : (plain (c.shown (pad name))).length = columnWidth rows name :=
    Nat.add_right_cancel (heq name hname)
  rw [← clean_padRight_iff (columnWidth rows name), ← Style.length_plain_eq_iff,
    length_padRight (hfits name hname)]
  exact (hplain name hname).antisymm (hwidth ▸ hshown name)

theorem exists_of_getElem?_body (c : Console)
    (hcells : ∀ row ∈ rows, ∀ name ∈ columns, Clean (cell row name)) {i : Nat} {line : List Char}
    (h : ((tableBody columns rows).map fun line => plain (c.shown line))[i]? = some line) :
    ∃ row, rows[i]? = some row ∧
      line = (rowNumber rows i ++ [' ']) ++ spaced (filled columns rows (cell row)) := by
  rw [tableBody, List.getElem?_map, List.getElem?_map, List.getElem?_zipIdx] at h
  cases hrow : rows[i]? with
  | none => simp [hrow] at h
  | some row =>
      simp only [hrow, Option.map_some, Option.some.injEq, Nat.zero_add] at h
      refine ⟨row, rfl, h.symm.trans ?_⟩
      exact plain_shown_line c (hcells row (List.mem_of_getElem? hrow)) i

/-- Where the upper case forms fit and are clean, the lines of a table stand as its layout says. -/
theorem aligns_tableLayout (c : Console) (hne : columns ≠ [])
    (hcells : ∀ row ∈ rows, ∀ name ∈ columns, Clean (cell row name))
    (h : ∀ name ∈ columns, (upper name).length ≤ columnWidth rows name ∧ Clean (upper name)) :
    (tableLayout columns rows).Aligns columns rows (plain (c.shown (tableHeading columns rows)))
      (plain (c.shown (tableRule columns rows)))
      ((tableBody columns rows).map fun line => plain (c.shown line)) := by
  have hindent : (List.replicate (numberWidth rows + 2) ' ').length = numberWidth rows + 2 :=
    List.length_replicate
  have hheading : plain (c.shown (tableHeading columns rows)) =
      List.replicate (numberWidth rows + 2) ' ' ++ spaced (filled columns rows upper) := by
    rw [plain_shown_heading]
    congr 2
    exact List.map_congr_left fun name hname =>
      c.plain_shown_of_clean ((clean_padRight_iff _ _).mpr (h name hname).2)
  have hfront : ∀ {i : Nat} {row : Row}, rows[i]? = some row →
      (rowNumber rows i ++ [' ']).length = numberWidth rows + 2 := by
    intro i row hrow
    rw [List.length_append, length_rowNumber (List.getElem?_eq_some_iff.mp hrow).1]
    rfl
  have hcell : ∀ {i : Nat} {row : Row}, rows[i]? = some row →
      ∀ name ∈ columns, (cell row name).length + 2 ≤ columnWidth rows name :=
    fun hrow name _ => length_cell_le (List.mem_of_getElem? hrow) name
  rw [hheading, plain_shown_rule]
  refine ⟨by simp [tableLayout], by simp [tableBody], ?_, ?_, rfl, ?_, ?_⟩
  · rw [List.forall_mem_cons, List.forall_mem_cons]
    refine ⟨length_filled hne hindent fun name hname => (h name hname).1,
      length_rule (by simpa [tableLayout] using hne), fun line hline => ?_⟩
    obtain ⟨i, hi⟩ := List.mem_iff_getElem?.mp hline
    obtain ⟨row, hrow, rfl⟩ := exists_of_getElem?_body c hcells hi
    exact length_filled hne (hfront hrow)
      fun name hname => le_of_add_le_left (hcell hrow name hname)
  · intro j name hj
    exact shows_filled hindent (fun name hname => (h name hname).1) hj
  · intro i line hi
    obtain ⟨row, -, rfl⟩ := exists_of_getElem?_body c hcells hi
    rw [List.append_assoc]
    exact List.prefix_append _ _
  · intro i row line hrow hi j name hj
    obtain ⟨row', hrow', rfl⟩ := exists_of_getElem?_body c hcells hi
    cases hrow.symm.trans hrow'
    exact shows_filled (hfront hrow) (hcell hrow) hj

/-- The lines of a table are aligned exactly if the upper case form of each name fits into its
column and holds no control sequence. -/
theorem aligns_iff (c : Console) (hne : columns ≠ [])
    (hcells : ∀ row ∈ rows, ∀ name ∈ columns, Clean (cell row name)) :
    (∃ l : Layout, l.Aligns columns rows (plain (c.shown (tableHeading columns rows)))
        (plain (c.shown (tableRule columns rows)))
        ((tableBody columns rows).map fun line => plain (c.shown line))) ↔
      ∀ name ∈ columns, (upper name).length ≤ columnWidth rows name ∧ Clean (upper name) := by
  refine ⟨?_, fun h => ⟨_, aligns_tableLayout c hne hcells h⟩⟩
  rintro ⟨l, hl⟩
  have hwidths : (tableLayout columns rows).widths ≠ [] := by simpa [tableLayout] using hne
  have hrule := hl.rule
  rw [plain_shown_rule] at hrule
  obtain rfl : l = tableLayout columns rows :=
    layout_of_rule hwidths (by simpa [tableLayout] using hl.width) hrule.symm
  have hfits : ∀ name ∈ columns, (upper name).length ≤ columnWidth rows name := by
    intro name hname
    obtain ⟨j, hj⟩ := List.mem_iff_getElem?.mp hname
    obtain ⟨w, hw, hle, -⟩ := hl.names j name hj
    obtain rfl : columnWidth rows name = w := by simpa [tableLayout, hj] using hw
    exact hle
  have hclean := clean_of_length c hne hfits (hl.length _ List.mem_cons_self)
  exact fun name hname => ⟨hfits name hname, hclean name hname⟩

/-! ### Printed lines -/

theorem pieces_lines {ls : List (List Char)} (h : ∀ l ∈ ls, '\n' ∉ l) :
    pieces '\n' (ls.flatMap (· ++ ['\n'])) = ls ++ [[]] := by
  induction ls with
  | nil => rfl
  | cons l ls ih =>
      obtain ⟨hl, hls⟩ := List.forall_mem_cons.mp h
      rw [List.flatMap_cons, List.append_assoc, List.singleton_append, pieces_append hl, ih hls,
        List.cons_append]

/-- Lines are found again in what is printed. -/
theorem eq_of_lines {ls ms : List (List Char)} (hl : ∀ l ∈ ls, '\n' ∉ l) (hm : ∀ l ∈ ms, '\n' ∉ l)
    (h : ls.flatMap (· ++ ['\n']) = ms.flatMap (· ++ ['\n'])) : ls = ms := by
  have hpieces := congrArg (pieces '\n') h
  rw [pieces_lines hl, pieces_lines hm] at hpieces
  exact List.append_cancel_right hpieces

theorem not_mem_sequences (p : Style.Properties) : '\n' ∉ p.sequences := by
  have hone (b : Bool) {code : List Char} (h : '\n' ∉ Style.sequence code) :
      '\n' ∉ if b then Style.sequence code else [] := by
    cases b
    · exact List.not_mem_nil
    · exact h
  have hcolor (o : Option Style.Color) : '\n' ∉ o.elim [] fun c => Style.sequence c.code := by
    cases o with
    | none => exact List.not_mem_nil
    | some c => cases c <;> decide
  simp only [Style.Properties.sequences, List.mem_append, not_or]
  exact ⟨⟨⟨hcolor _, hone _ (by decide)⟩, hone _ (by decide)⟩, hone _ (by decide)⟩

theorem not_mem_styled {s : List Char} (h : '\n' ∉ s) (p : Style.Properties) :
    '\n' ∉ Style.styled p s := by
  have hreset : '\n' ∉ Style.sequence ['0'] := by decide
  simp [Style.styled, not_mem_sequences p, h, hreset]

theorem not_mem_padRight {s : List Char} (h : '\n' ∉ s) (w : Nat) : '\n' ∉ padRight w s := by
  simp [padRight, h]

theorem not_mem_spaced {fs : List (List Char)} (h : ∀ f ∈ fs, '\n' ∉ f) : '\n' ∉ spaced fs := by
  intro hm
  rcases mem_joined hm with hm | ⟨f, hf, hm⟩
  · exact absurd hm (by decide)
  · exact h f hf hm

theorem not_mem_indent (n : Nat) {s : List Char} (h : '\n' ∉ s) :
    '\n' ∉ List.replicate n ' ' ++ s := by
  simp [h]

theorem not_mem_tableLines (hnames : ∀ name ∈ columns, '\n' ∉ name)
    (hcells : ∀ row ∈ rows, ∀ name ∈ columns, '\n' ∉ cell row name) :
    ∀ line ∈ tableLines columns rows, '\n' ∉ line := by
  rw [tableLines_eq, List.forall_mem_cons, List.forall_mem_cons]
  refine ⟨not_mem_indent _ (not_mem_spaced ?_), not_mem_indent _ (not_mem_spaced ?_), ?_⟩
  · rw [List.forall_mem_map]
    exact fun name hname => not_mem_styled (not_mem_padRight
      (fun hm => hnames name hname (mem_of_mem_upper (by decide) hm)) _) _
  · rw [List.forall_mem_map]
    exact fun name _ =>
      not_mem_styled (fun hm => absurd (List.eq_of_mem_replicate hm) (by decide)) _
  · rw [tableBody, List.forall_mem_map]
    rintro ⟨row, i⟩ hrow hm
    have hmem : row ∈ rows := (List.mem_zipIdx' hrow).2 ▸ List.getElem_mem _
    have hnumber : '\n' ∉ rowNumber rows i := fun hm => absurd (of_mem_rowNumber hm) (by decide)
    have hspaced : '\n' ∉ spaced (filled columns rows (cell row)) := by
      refine not_mem_spaced ?_
      rw [filled, List.forall_mem_map]
      exact fun name hname => not_mem_padRight (hcells row hmem name hname) _
    rcases List.mem_append.mp hm with hm | hm
    · exact not_mem_styled hnumber _ hm
    · rcases List.mem_cons.mp hm with hm | hm
      · exact absurd hm (by decide)
      · exact hspaced hm

theorem print_table {c : Console} (hc : c.shows .info = true) (hrows : rows ≠ []) :
    c.print (.table columns rows) =
      ⟨((tableLines columns rows).map c.shown).flatMap (· ++ ['\n']), []⟩ := by
  have hshown : (c.shows .info && !rows.isEmpty) = true := by simp [hc, hrows]
  rw [Console.print, hshown, if_pos rfl, Console.written, List.flatMap_map]
  rfl

/-- A table is printed with all its lines under each other exactly if the upper case form of each
column name fits into its column and holds no control sequence. -/
theorem Console.printsAligned_iff {c : Console} (hc : c.shows .info = true) (hne : columns ≠ [])
    (hrows : rows ≠ []) (hnames : ∀ name ∈ columns, '\n' ∉ name)
    (hcells : ∀ row ∈ rows, ∀ name ∈ columns, '\n' ∉ cell row name ∧ Clean (cell row name)) :
    c.PrintsAligned columns rows ↔
      ∀ name ∈ columns, (upper name).length ≤ columnWidth rows name ∧ Clean (upper name) := by
  have hclean : ∀ row ∈ rows, ∀ name ∈ columns, Clean (cell row name) :=
    fun row hrow name hname => (hcells row hrow name hname).2
  have hlines : ∀ line ∈ (tableLines columns rows).map c.shown, '\n' ∉ line := by
    rw [List.forall_mem_map]
    exact fun line hline hm => not_mem_tableLines hnames
      (fun row hrow name hname => (hcells row hrow name hname).1) line hline (c.mem_of_mem_shown hm)
  rw [← aligns_iff c hne hclean]
  constructor
  · rintro ⟨heading, rule, body, hprint, hfree, l, hl⟩
    rw [print_table hc hrows] at hprint
    have heq := eq_of_lines hlines hfree (congrArg Output.out hprint)
    rw [tableLines_eq] at heq
    cases heq
    rw [List.map_map] at hl
    exact ⟨l, hl⟩
  · rintro ⟨l, hl⟩
    refine ⟨_, _, _, print_table hc hrows, hlines, l, ?_⟩
    rw [List.map_map]
    exact hl

/-- Columns of a table of routes. -/
def routeColumns : List (List Char) := ["path".toList, "methods".toList]

/-- Rows of this table; the second one has no methods. -/
def routeRows : List Row :=
  [[("path".toList, "/users".toList), ("methods".toList, "get, post".toList)],
    [("path".toList, "/health".toList)]]

theorem printsAligned_routes : Console.PrintsAligned { color := true } routeColumns routeRows := by
  have hcells : ∀ row ∈ routeRows, ∀ name ∈ routeColumns,
      '\n' ∉ cell row name ∧ Clean (cell row name) := by decide
  have hnames : ∀ name ∈ routeColumns,
      (upper name).length ≤ columnWidth routeRows name ∧ Clean (upper name) := by decide +kernel
  exact (Console.printsAligned_iff rfl (by decide) (by decide) (by decide) hcells).mpr hnames

/-- A column whose name is three letters longer in upper case. -/
def streetColumns : List (List Char) := ["ßßß".toList]

/-- A row with a short cell in this column. -/
def streetRows : List Row := [[("ßßß".toList, ['a'])]]

/-- The upper case form of the name does not fit into its column. -/
theorem not_printsAligned_street :
    (∀ name ∈ streetColumns, '\n' ∉ name ∧ Clean name) ∧
      (∀ row ∈ streetRows, ∀ name ∈ streetColumns, '\n' ∉ cell row name ∧ Clean (cell row name)) ∧
      Console.shows {} .info = true ∧ ¬ Console.PrintsAligned {} streetColumns streetRows := by
  have hcells : ∀ row ∈ streetRows, ∀ name ∈ streetColumns,
      '\n' ∉ cell row name ∧ Clean (cell row name) := by decide
  refine ⟨by decide, hcells, rfl, fun h => ?_⟩
  have hfits := (Console.printsAligned_iff rfl (by decide) (by decide) (by decide) hcells).mp h
  exact absurd hfits (by decide +kernel)

end Log
end RouteScribe
