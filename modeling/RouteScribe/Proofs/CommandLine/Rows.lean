import RouteScribe.CommandLine.Run
import RouteScribe.Proofs.Routes.Methods
import RouteScribe.Proofs.Survey.Claims
import RouteScribe.Proofs.Text.Split

/-! # What the table of routes tells

The rows that `list-routes` prints are read again: the cell of the methods gives back the methods
(`namesIn_methodsCell`), it says `(unreadable)` for the files that cannot be read and for no others
(`methodsCell_eq_unreadable_iff`), and the first rows of the paths are those of the owners
(`firstRows_map`). -/

namespace RouteScribe
namespace CommandLine

/-- The rows of the tables among some messages. -/
def tableRows (es : List Log.Entry) : List Log.Row :=
  es.flatMap fun
    | .table _ rows => rows
    | _ => []

/-- The rows that a call of `list-routes` prints, with room for so many levels of directories. -/
def ListCall.rows (c : ListCall) (room : Nat) (d : Disk) : List Log.Row :=
  match c.files room d with
  | .ok files => tableRows (routeEntries d c.dir files)
  | .error _ => []

/-- The text of a row in a column. -/
def cell (row : Log.Row) (column : String) : List Char := (Assoc.get? row column.toList).getD []

/-- What stands in the cell of the methods of a file that cannot be read. -/
def unreadable : List Char := "(unreadable)".toList

/-- The names of methods in a cell. -/
def namesIn (cell : List Char) : List (List Char) :=
  if cell = unreadable ∨ cell = ['-'] then []
  else
    match pieces ',' cell with
    | [] => []
    | first :: rest => first :: rest.map fun name => name.drop 1

/-- The row is the first one of its path. -/
def isFirst (rows : List Log.Row) (row : Log.Row) : Bool :=
  rows.find? (fun r => cell r "path" = cell row "path") = some row

/-- The first row of each path. -/
def firstRows (rows : List Log.Row) : List Log.Row := rows.filter (isFirst rows)

/-- The routes in some rows, each as the name of a method and a path. -/
def announced (rows : List Log.Row) : List (List Char) :=
  rows.flatMap fun r => (namesIn (cell r "methods")).map fun name => name ++ ' ' :: cell r "path"

variable {d : Disk} {dir : Path} {file : List Char} {files : List (List Char)}

/-! ### The cells of a row -/

theorem cell_path (d : Disk) (dir : Path) (file : List Char) :
    cell (routeRow d dir file) "path" = Route.apiPath file := rfl

theorem cell_methods (d : Disk) (dir : Path) (file : List Char) :
    cell (routeRow d dir file) "methods" = (methodsCell d dir file).1 := rfl

theorem cell_file (d : Disk) (dir : Path) (file : List Char) :
    cell (routeRow d dir file) "file" = file := rfl

/-- Names that are listed are pieces with blanks before all but the first. -/
theorem pieces_listed {name : List Char} {names : List (List Char)}
    (h : ∀ n ∈ name :: names, ',' ∉ n) :
    pieces ',' (Survey.listed (name :: names)) = name :: names.map (' ' :: ·) := by
  induction names generalizing name with
  | nil => simpa [Survey.listed, joined, List.intercalate] using pieces_of_not_mem (h name (by simp))
  | cons m names ih =>
      have hrest := ih fun n hn => h n (List.mem_cons_of_mem name hn)
      have hj : Survey.listed (name :: m :: names) =
          name ++ ',' :: ' ' :: Survey.listed (m :: names) := by
        rw [Survey.listed, joined_cons_cons]
        rfl
      rw [hj, pieces_append (h name (by simp)), pieces, if_neg (by decide), hrest]
      rfl

/-- Signs that are in no method. -/
theorem not_mem_upper {source : List Char} {m : Method} (h : m ∈ exportedMethods source) :
    ',' ∉ upper m ∧ '-' ∉ upper m ∧ '(' ∉ upper m := by
  refine ⟨?_, ?_, ?_⟩
  all_goals exact not_mem_upper_of_mem_exportedMethods h (by decide) (by decide +kernel)

theorem not_mem_listed (source : List Char) {c : Char} (hc : c = '-' ∨ c = '(') :
    c ∉ Survey.listed ((exportedMethods source).map upper) := by
  intro h
  rcases mem_joined h with h | ⟨name, hn, h⟩
  · rcases hc with rfl | rfl
    · exact absurd h (by decide)
    · exact absurd h (by decide)
  · obtain ⟨m, hm, rfl⟩ := List.mem_map.mp hn
    obtain ⟨-, hdash, hopen⟩ := not_mem_upper hm
    rcases hc with rfl | rfl
    · exact hdash h
    · exact hopen h

/-- The names in a list of methods are those methods. -/
theorem namesIn_listed (source : List Char) (h : exportedMethods source ≠ []) :
    namesIn (Survey.listed ((exportedMethods source).map upper)) =
      (exportedMethods source).map upper := by
  have hcomma : ∀ n ∈ (exportedMethods source).map upper, ',' ∉ n := by
    intro n hn
    obtain ⟨m, hm, rfl⟩ := List.mem_map.mp hn
    exact (not_mem_upper hm).1
  have hcell : ¬(Survey.listed ((exportedMethods source).map upper) = unreadable ∨
      Survey.listed ((exportedMethods source).map upper) = ['-']) := by
    rintro (he | he)
    · exact not_mem_listed source (.inr rfl) (he ▸ by decide)
    · exact not_mem_listed source (.inl rfl) (he ▸ by decide)
  rw [namesIn, if_neg hcell]
  cases hm : exportedMethods source with
  | nil => exact absurd hm h
  | cons m ms =>
      rw [hm, List.map_cons] at hcomma
      rw [List.map_cons, pieces_listed hcomma, List.map_map]
      simp [Function.comp_def]

/-- The cell of a file gives back its methods. -/
theorem namesIn_methodsCell (d : Disk) (dir : Path) (file : List Char) :
    namesIn (methodsCell d dir file).1 =
      match (d.readText (dir.join (Path.ofChars file))).toOption with
      | some source => (exportedMethods source).map upper
      | none => [] := by
  unfold methodsCell
  cases d.readText (dir.join (Path.ofChars file)) with
  | error fault => exact if_pos (.inl rfl)
  | ok source =>
      have hl := namesIn_listed source
      dsimp only [Except.toOption]
      cases hm : exportedMethods source with
      | nil => exact if_pos (.inr rfl)
      | cons m ms =>
          rw [hm] at hl
          exact hl (List.cons_ne_nil m ms)

theorem methodsCell_eq_unreadable_iff (d : Disk) (dir : Path) (file : List Char) :
    (methodsCell d dir file).1 = unreadable ↔
      (d.readText (dir.join (Path.ofChars file))).toOption = none := by
  unfold methodsCell
  cases d.readText (dir.join (Path.ofChars file)) with
  | error fault => exact iff_of_true rfl rfl
  | ok source =>
      refine iff_of_false ?_ (by simp [Except.toOption])
      have hl := not_mem_listed source (.inr rfl)
      dsimp only
      cases hm : exportedMethods source with
      | nil => decide
      | cons m ms =>
          rw [hm] at hl
          intro he
          have he : Survey.listed ((m :: ms).map upper) = unreadable := he
          exact hl (he ▸ by decide)

/-! ### The rows of the table -/

theorem tableRows_routeEntries (d : Disk) (dir : Path) (files : List (List Char)) :
    tableRows (routeEntries d dir files) = files.map (routeRow d dir) := by
  have hw : ∀ e ∈ files.flatMap fun f => (methodsCell d dir f).2,
      (match e with
        | .table _ rows => rows
        | _ => []) = [] := by
    intro e he
    obtain ⟨f, -, he⟩ := List.mem_flatMap.mp he
    unfold methodsCell at he
    split at he
    · rw [List.mem_singleton.mp he]
    · split at he <;> simp at he
  rw [tableRows, routeEntries, List.flatMap_append, List.flatMap_eq_nil_iff.mpr hw]
  simp

theorem routeRow_injective (d : Disk) (dir : Path) : Function.Injective (routeRow d dir) := by
  intro f g h
  rw [← cell_file d dir f, h, cell_file]

/-- The first rows of the paths are those of the files that own them. -/
theorem firstRows_map (d : Disk) (dir : Path) (files : List (List Char)) :
    firstRows (files.map (routeRow d dir)) = (Survey.owners files).map (routeRow d dir) := by
  rw [firstRows, List.filter_map, Survey.owners]
  congr 1
  apply List.filter_congr
  intro f hf
  simp only [Function.comp_apply, isFirst, List.find?_map, Survey.owns, Survey.owner?, cell_path,
    Option.map_eq_some_iff]
  apply decide_eq_decide.mpr
  constructor
  · rintro ⟨g, hg, he⟩
    rw [routeRow_injective d dir he] at hg
    exact hg
  · intro hg
    exact ⟨f, hg, rfl⟩

end CommandLine
end RouteScribe
