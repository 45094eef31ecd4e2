import Mathlib.Data.List.Induction
import RouteScribe.Proofs.Assoc
import RouteScribe.Survey.Claim

/-! # Who owns an API path

The first listed file of a path owns it.  Claiming the paths of a list of files keeps the owners and
nobody else (`files_ofFiles`), and reports each other file with the owner of its path
(`events_ofFiles`). -/

namespace RouteScribe
namespace Survey

/-- The first file of a list that has the path. -/
def owner? (files : List (List Char)) (path : List Char) : Option (List Char) :=
  files.find? fun f => Route.apiPath f = path

/-- The file owns its path. -/
def owns (files : List (List Char)) (file : List Char) : Bool :=
  owner? files (Route.apiPath file) = some file

/-- The files that own their paths. -/
def owners (files : List (List Char)) : List (List Char) := files.filter (owns files)

/-- The files whose paths have other owners, each with this owner. -/
def doubles (files : List (List Char)) : List (List Char × List Char) :=
  (files.filter fun f => !owns files f).map fun f =>
    (f, (owner? files (Route.apiPath f)).getD [])

variable {files : List (List Char)} {file path : List Char}

theorem apiPath_of_owner? (h : owner? files path = some file) : Route.apiPath file = path := by
  simpa using List.find?_some h

theorem mem_of_owner? (h : owner? files path = some file) : file ∈ files :=
  List.mem_of_find?_eq_some h

theorem mem_owners : file ∈ owners files ↔ owner? files (Route.apiPath file) = some file := by
  simp only [owners, List.mem_filter, owns, decide_eq_true_eq, and_iff_right_iff_imp]
  exact mem_of_owner?

theorem mem_of_mem_owners (h : file ∈ owners files) : file ∈ files := List.mem_of_mem_filter h

/-- The owner of a path is the one among the owners that has it. -/
theorem owner?_eq_some_iff :
    owner? files path = some file ↔ file ∈ owners files ∧ Route.apiPath file = path := by
  rw [mem_owners]
  constructor
  · intro h
    have hp := apiPath_of_owner? h
    exact ⟨hp ▸ h, hp⟩
  · rintro ⟨h, rfl⟩
    exact h

/-- A path has an owner where any file has the path. -/
theorem exists_owner (h : file ∈ files) : ∃ o, owner? files (Route.apiPath file) = some o := by
  rw [← Option.isSome_iff_exists, owner?, List.find?_isSome]
  exact ⟨file, h, by simp⟩

/-- Different owners have different paths. -/
theorem owners_inj {file' : List Char} (h : file ∈ owners files) (h' : file' ∈ owners files)
    (he : Route.apiPath file = Route.apiPath file') : file = file' := by
  rw [mem_owners] at h h'
  rw [he, h'] at h
  exact (Option.some.inj h).symm

theorem nodup_apiPath_owners (hn : files.Nodup) : ((owners files).map Route.apiPath).Nodup :=
  (List.Nodup.filter _ hn).map_on fun _ h _ h' he => owners_inj h h' he

/-! ### One more file -/

theorem owner?_append (files : List (List Char)) (file path : List Char) :
    owner? (files ++ [file]) path =
      (owner? files path).or (if Route.apiPath file = path then some file else none) := by
  rw [owner?, List.find?_append]
  congr 1
  by_cases h : Route.apiPath file = path <;> simp [h]

/-- A file at the end of a list owns its path if no other file does. -/
theorem owns_append_self (files : List (List Char)) (file : List Char) :
    owns (files ++ [file]) file = decide ((owner? files (Route.apiPath file)).getD file = file) := by
  cases h : owner? files (Route.apiPath file) <;> simp [owns, owner?_append, h]

/-- A file at the end of a list takes no path away from the others. -/
theorem owner?_append_of_mem (h : file ∈ files) (other : List Char) :
    owner? (files ++ [other]) (Route.apiPath file) = owner? files (Route.apiPath file) := by
  obtain ⟨o, ho⟩ := exists_owner h
  rw [owner?_append, ho]
  rfl

theorem owns_append_of_mem (h : file ∈ files) (other : List Char) :
    owns (files ++ [other]) file = owns files file := by
  rw [owns, owner?_append_of_mem h, owns]

theorem owners_append (files : List (List Char)) (file : List Char) :
    owners (files ++ [file]) =
      owners files ++ if owns (files ++ [file]) file then [file] else [] := by
  have hf : files.filter (owns (files ++ [file])) = files.filter (owns files) :=
    List.filter_congr fun _ h => owns_append_of_mem h file
  rw [owners, List.filter_append, hf, owners]
  cases ho : owns (files ++ [file]) file <;> simp [ho]

theorem doubles_append (files : List (List Char)) (file : List Char) :
    doubles (files ++ [file]) =
      doubles files ++ if owns (files ++ [file]) file then []
        else [(file, (owner? (files ++ [file]) (Route.apiPath file)).getD [])] := by
  have hf : files.filter (fun f => !owns (files ++ [file]) f) = files.filter fun f => !owns files f :=
    List.filter_congr fun _ h => by rw [owns_append_of_mem h]
  have hm : ∀ f ∈ files.filter (fun f => !owns files f),
      (f, (owner? (files ++ [file]) (Route.apiPath f)).getD []) =
        (f, (owner? files (Route.apiPath f)).getD []) := by
    intro f h
    rw [owner?_append_of_mem (List.mem_of_mem_filter h)]
  rw [doubles, List.filter_append, hf, List.map_append, List.map_congr_left hm, doubles]
  cases ho : owns (files ++ [file]) file <;> simp [ho]

/-! ### Claiming one file after the other -/

theorem ofFiles_append (files : List (List Char)) (file : List Char) :
    Claims.ofFiles (files ++ [file]) = (Claims.ofFiles files).add file := by
  simp [Claims.ofFiles]

theorem get?_ofFiles (files : List (List Char)) (path : List Char) :
    Assoc.get? (Claims.ofFiles files).owners path = owner? files path := by
  induction files using List.reverseRec with
  | nil => rfl
  | append_singleton files file ih =>
      rw [ofFiles_append, owner?_append, ← ih, Claims.add]
      by_cases hp : Route.apiPath file = path
      · subst hp
        cases hg : Assoc.get? (Claims.ofFiles files).owners (Route.apiPath file) with
        | none => simp [Assoc.get?_set_self]
        | some o =>
            dsimp only
            split <;> simp [hg]
      · simp only [hp, if_false, Option.or_none]
        split
        · exact Assoc.get?_set_ne _ _ (Ne.symm hp)
        · split <;> rfl

/-- The claimed files are the owners. -/
theorem files_ofFiles (files : List (List Char)) : (Claims.ofFiles files).files = owners files := by
  induction files using List.reverseRec with
  | nil => rfl
  | append_singleton files file ih =>
      rw [ofFiles_append, owners_append, owns_append_self, ← ih, ← get?_ofFiles, Claims.add]
      cases hg : Assoc.get? (Claims.ofFiles files).owners (Route.apiPath file) with
      | none => simp
      | some o =>
          by_cases ho : o = file <;> simp [ho]

/-- Every other file is reported together with the owner of its path. -/
theorem events_ofFiles (files : List (List Char)) :
    (Claims.ofFiles files).events =
      (doubles files).flatMap fun d => duplicateEvents d.1 (Route.apiPath d.1) d.2 := by
  induction files using List.reverseRec with
  | nil => rfl
  | append_singleton files file ih =>
      rw [ofFiles_append, doubles_append, owns_append_self, List.flatMap_append, ← ih,
        owner?_append, ← get?_ofFiles, Claims.add]
      cases hg : Assoc.get? (Claims.ofFiles files).owners (Route.apiPath file) with
      | none => simp
      | some o =>
          by_cases ho : o = file <;> simp [ho]

end Survey
end RouteScribe
