import RouteScribe.Proofs.Assoc
import RouteScribe.Proofs.Routes.Methods
import RouteScribe.Proofs.Text.Order
import RouteScribe.Survey.Basic

/-! # What the events of a survey amount to

The result of a survey is collected from its events one by one.  Failures, skipped files and the
number of successes can be read off the events (`ofEvents_failures` and so on), and so can the
operations, provided that none is described twice: `find?_ofEvents` says that a look-up finds
exactly the described ones, and `size_ofEvents` that there are no others.  The paths and their
methods stand in order (`ordered_ofEvents`), so that the whole map is determined by its look-ups
(`Ordered.eq_of_find?`). -/

namespace RouteScribe

/-- The operations of a survey by path and method. -/
abbrev Operations := List (List Char × List (Method × Operation))

namespace SurveyEvent

/-- The failure that an event reports. -/
def failure? : SurveyEvent → Option RouteFailure
  | failed f => some f
  | _ => none

/-- The file without methods that an event reports. -/
def skipped? : SurveyEvent → Option (List Char)
  | skipped file => some file
  | _ => none

/-- The operation that an event reports, with its path and method. -/
def described? : SurveyEvent → Option (List Char × Method × Operation)
  | described path m o => some (path, m, o)
  | _ => none

end SurveyEvent

namespace SurveyResult

open Assoc (find?)

/-- The number of operations. -/
def size (ps : Operations) : Nat := (ps.flatMap Prod.snd).length

/-- No path occurs twice, and no method twice under one path; no path is without methods. -/
structure Tidy {κ μ α : Type} (ps : List (κ × List (μ × α))) : Prop where
  paths : (ps.map Prod.fst).Nodup
  methods : ∀ e ∈ ps, (e.2.map Prod.fst).Nodup
  nonempty : ∀ e ∈ ps, e.2 ≠ []

/-! ### Taking in an operation -/

theorem tidy_nil : Tidy ([] : Operations) := ⟨.nil, by simp, by simp⟩

theorem find?_insert (ps : Operations) (path path' : List Char) (m m' : Method) (o : Operation) :
    find? (insert ps path m o) path' m' =
      if path' = path ∧ m' = m then some o else find? ps path' m' := by
  unfold find? insert
  by_cases hp : path' = path
  · subst hp
    rw [Assoc.get?_set_self]
    by_cases hm : m' = m
    · subst hm
      simp [Assoc.get?_set_self]
    · rw [Option.bind_some, Assoc.get?_set_ne _ _ hm]
      cases h : Assoc.get? ps path' <;> simp [hm, Assoc.get?]
  · simp [Assoc.get?_set_ne _ _ hp, hp]

theorem Tidy.insert {ps : Operations} (h : Tidy ps) (path : List Char) (m : Method)
    (o : Operation) : Tidy (insert ps path m o) := by
  have hi : ((Assoc.get? ps path).getD []).map Prod.fst |>.Nodup := by
    cases hg : Assoc.get? ps path with
    | none => simp
    | some item => exact h.methods _ (Assoc.mem_of_get? hg)
  refine ⟨Assoc.nodup_names_set h.paths path _, ?_, ?_⟩
  · intro e he
    rcases Assoc.mem_set he with rfl | he
    · exact Assoc.nodup_names_set hi m o
    · exact h.methods e he
  · intro e he
    rcases Assoc.mem_set he with rfl | he
    · exact Assoc.set_ne_nil _ _ _
    · exact h.nonempty e he

theorem size_set (ps : Operations) (path : List Char) (item : List (Method × Operation)) :
    size (Assoc.set ps path item) + ((Assoc.get? ps path).getD []).length =
      size ps + item.length := by
  induction ps with
  | nil => simp [size, Assoc.set, Assoc.get?]
  | cons e rest ih =>
      obtain ⟨p, old⟩ := e
      by_cases hp : p = path
      · simp only [Assoc.set, Assoc.get?, hp, if_true, Option.getD_some, size, List.flatMap_cons,
          List.length_append]
        omega
      · simp only [Assoc.set, Assoc.get?, hp, if_false, size, List.flatMap_cons,
          List.length_append] at ih ⊢
        omega

/-- An operation under a new path or method makes the map larger by one. -/
theorem size_insert {ps : Operations} {path : List Char} {m : Method} (o : Operation)
    (h : find? ps path m = none) : size (insert ps path m o) = size ps + 1 := by
  have hs := size_set ps path (Assoc.set ((Assoc.get? ps path).getD []) m o)
  have hg : Assoc.get? ((Assoc.get? ps path).getD []) m = none := by
    unfold find? at h
    cases hp : Assoc.get? ps path with
    | none => rfl
    | some item => simpa [hp] using h
  rw [Assoc.length_set, hg] at hs
  simp only [insert]
  simp at hs
  omega

/-! ### Taking in all of them -/

/-- The map of described operations. -/
def collect (ds : List (List Char × Method × Operation)) (ps : Operations) : Operations :=
  ds.foldl (fun ps d => insert ps d.1 d.2.1 d.2.2) ps

/-- The path and the method of a described operation. -/
def place (d : List Char × Method × Operation) : List Char × Method := (d.1, d.2.1)

theorem tidy_collect {ps : Operations} (h : Tidy ps) (ds : List (List Char × Method × Operation)) :
    Tidy (collect ds ps) := by
  induction ds generalizing ps with
  | nil => exact h
  | cons d ds ih => exact ih (h.insert d.1 d.2.1 d.2.2)

/-- Where no place is described twice, the map has what is described, and the rest of the old one. -/
theorem find?_collect {ds : List (List Char × Method × Operation)} (hn : (ds.map place).Nodup)
    (ps : Operations) (path : List Char) (m : Method) (o : Operation) :
    find? (collect ds ps) path m = some o ↔
      (path, m, o) ∈ ds ∨ (path, m) ∉ ds.map place ∧ find? ps path m = some o := by
  induction ds generalizing ps with
  | nil => simp [collect]
  | cons d ds ih =>
      obtain ⟨path', m', o'⟩ := d
      simp only [List.map_cons, List.nodup_cons] at hn
      rw [show collect ((path', m', o') :: ds) ps = collect ds (insert ps path' m' o') from rfl,
        ih hn.2, find?_insert]
      by_cases he : path = path' ∧ m = m'
      · obtain ⟨rfl, rfl⟩ := he
        have hm : (path, m, o) ∉ ds := fun h => hn.1 (List.mem_map.mpr ⟨_, h, rfl⟩)
        simp only [place] at hn
        simp [place, hm, hn.1, eq_comm]
      · have hne : ¬(path', m') = (path, m) := by
          rintro h
          cases h
          exact he ⟨rfl, rfl⟩
        have hne' : ¬(path, m, o) = (path', m', o') := by
          rintro h
          cases h
          exact he ⟨rfl, rfl⟩
        simp only [if_neg he, List.mem_cons, hne', false_or, List.map_cons, place, Ne.symm hne]

theorem size_collect {ds : List (List Char × Method × Operation)} (hn : (ds.map place).Nodup)
    {ps : Operations} (h : ∀ d ∈ ds, find? ps d.1 d.2.1 = none) :
    size (collect ds ps) = size ps + ds.length := by
  induction ds generalizing ps with
  | nil => rfl
  | cons d ds ih =>
      simp only [List.map_cons, List.nodup_cons] at hn
      rw [show collect (d :: ds) ps = collect ds (insert ps d.1 d.2.1 d.2.2) from rfl, ih hn.2,
        size_insert _ (h d List.mem_cons_self), List.length_cons]
      · omega
      · intro d' hd'
        rw [find?_insert, if_neg]
        · exact h d' (List.mem_cons_of_mem _ hd')
        · rintro ⟨hp, hm⟩
          exact hn.1 (List.mem_map.mpr ⟨d', hd', by simp [place, hp, hm]⟩)

/-! ### The order of the map -/

/-- The paths stand in their order, and the methods of each path in theirs. -/
structure Ordered (ps : Operations) : Prop where
  paths : (ps.map Prod.fst).Pairwise fun p q => textLe p q = true
  methods : ∀ e ∈ ps, (e.2.map Prod.fst).Pairwise fun m n => Method.le m n = true

theorem sorted_perm (ps : Operations) :
    (sorted ps).Perm (ps.map fun e => (e.1, e.2.mergeSort fun m n => Method.le m.1 n.1)) :=
  (List.mergeSort_perm ps fun p q => textLe p.1 q.1).map _

theorem tidy_sorted {ps : Operations} (h : Tidy ps) : Tidy (sorted ps) := by
  have hp := sorted_perm ps
  refine ⟨?_, ?_, ?_⟩
  · rw [(hp.map Prod.fst).nodup_iff, List.map_map]
    exact h.paths
  · intro e he
    obtain ⟨e', he', rfl⟩ := List.mem_map.mp (hp.mem_iff.mp he)
    exact ((List.mergeSort_perm e'.2 _).map Prod.fst).nodup_iff.mpr (h.methods e' he')
  · intro e he
    obtain ⟨e', he', rfl⟩ := List.mem_map.mp (hp.mem_iff.mp he)
    intro hnil
    exact h.nonempty e' he' (List.Perm.eq_nil (hnil ▸ (List.mergeSort_perm e'.2 _).symm))

theorem ordered_sorted (ps : Operations) : Ordered (sorted ps) := by
  constructor
  · rw [sorted, List.map_map, List.pairwise_map]
    exact pairwise_mergeSort_textLe Prod.fst ps
  · intro e he
    obtain ⟨e', -, rfl⟩ := List.mem_map.mp he
    rw [List.pairwise_map]
    exact pairwise_mergeSort_key Method.le_trans Method.le_total Prod.fst e'.2

/-- Sorting moves no operation to another place. -/
theorem find?_sorted {ps : Operations} (h : Tidy ps) (path : List Char) (m : Method) :
    find? (sorted ps) path m = find? ps path m := by
  have hs : Assoc.get? (sorted ps) path =
      (Assoc.get? ps path).map fun item => item.mergeSort fun m n => Method.le m.1 n.1 := by
    rw [Assoc.get?_perm (tidy_sorted h).paths (sorted_perm ps)]
    exact Assoc.get?_map_snd fun item : List (Method × Operation) =>
      item.mergeSort fun m n => Method.le m.1 n.1
  unfold find?
  rw [hs]
  cases hg : Assoc.get? ps path with
  | none => rfl
  | some item =>
      have hi : (item.map Prod.fst).Nodup := h.methods _ (Assoc.mem_of_get? hg)
      have hm := List.mergeSort_perm item fun m n => Method.le m.1 n.1
      exact (Assoc.get?_perm hi hm.symm).symm

theorem size_sorted (ps : Operations) : size (sorted ps) = size ps := by
  have hp := ((sorted_perm ps).flatMap_right Prod.snd).length_eq
  simpa [size, List.length_flatMap, Function.comp_def] using hp

/-- Items in order are equal when all look-ups are. -/
theorem item_eq_of_get? {item item' : List (Method × Operation)}
    (hi : (item.map Prod.fst).Nodup) (hi' : (item'.map Prod.fst).Nodup)
    (ho : (item.map Prod.fst).Pairwise fun m n => Method.le m n = true)
    (ho' : (item'.map Prod.fst).Pairwise fun m n => Method.le m n = true)
    (h : ∀ m, Assoc.get? item m = Assoc.get? item' m) : item = item' := by
  have hp : item.Perm item' := by
    rw [List.perm_ext_iff_of_nodup hi.of_map hi'.of_map]
    rintro ⟨m, o⟩
    rw [← Assoc.get?_eq_some_iff hi, ← Assoc.get?_eq_some_iff hi', h]
  refine List.Perm.eq_of_pairwise ?_ (List.pairwise_map.mp ho) (List.pairwise_map.mp ho') hp
  rintro ⟨m, o⟩ ⟨m', o'⟩ hm hm' hle hle'
  cases Method.le_antisymm hle hle'
  rw [← Assoc.get?_eq_some_iff hi] at hm
  rw [← Assoc.get?_eq_some_iff hi', ← h, hm] at hm'
  cases hm'
  rfl

/-- The item of a path is found by any of its methods. -/
theorem Tidy.get?_eq_none {ps : Operations} (h : Tidy ps) {path : List Char}
    (hn : ∀ m, find? ps path m = none) : Assoc.get? ps path = none := by
  cases hg : Assoc.get? ps path with
  | none => rfl
  | some item =>
      have hne := h.nonempty _ (Assoc.mem_of_get? hg)
      cases hi : item with
      | nil => exact absurd hi hne
      | cons e rest => simpa [find?, hg, hi, Assoc.get?] using hn e.1

/-- Maps in order are equal when all look-ups are. -/
theorem Ordered.eq_of_find? {ps qs : Operations} (hp : Ordered ps) (hq : Ordered qs) (tp : Tidy ps)
    (tq : Tidy qs) (h : ∀ path m, find? ps path m = find? qs path m) : ps = qs := by
  have hget : ∀ path, Assoc.get? ps path = Assoc.get? qs path := by
    intro path
    cases hg : Assoc.get? ps path with
    | none =>
        refine (tq.get?_eq_none fun m => ?_).symm
        rw [← h, find?, hg]
        rfl
    | some item =>
        cases hg' : Assoc.get? qs path with
        | none =>
            rw [tp.get?_eq_none fun m => by rw [h, find?, hg']; rfl] at hg
            exact hg.symm
        | some item' =>
            have hm := Assoc.mem_of_get? hg
            have hm' := Assoc.mem_of_get? hg'
            have hi := item_eq_of_get? (tp.methods _ hm) (tq.methods _ hm') (hp.methods _ hm)
              (hq.methods _ hm') fun m => by simpa [find?, hg, hg'] using h path m
            exact congrArg some hi
  have hperm : ps.Perm qs := by
    rw [List.perm_ext_iff_of_nodup tp.paths.of_map tq.paths.of_map]
    rintro ⟨path, item⟩
    rw [← Assoc.get?_eq_some_iff tp.paths, ← Assoc.get?_eq_some_iff tq.paths, hget]
  refine List.Perm.eq_of_pairwise ?_ (List.pairwise_map.mp hp.paths) (List.pairwise_map.mp hq.paths)
    hperm
  rintro ⟨path, item⟩ ⟨path', item'⟩ hm hm' hle hle'
  cases textLe_antisymm hle hle'
  rw [← Assoc.get?_eq_some_iff tp.paths] at hm
  rw [← Assoc.get?_eq_some_iff tq.paths, ← hget, hm] at hm'
  cases hm'
  rfl

/-! ### The result -/

theorem foldl_add (es : List SurveyEvent) (r : SurveyResult) :
    es.foldl add r =
      { paths := collect (es.filterMap SurveyEvent.described?) r.paths
        failures := r.failures ++ es.filterMap SurveyEvent.failure?
        succeeded := r.succeeded + (es.filterMap SurveyEvent.described?).length
        skipped := r.skipped ++ es.filterMap SurveyEvent.skipped? } := by
  induction es generalizing r with
  | nil => simp [collect]
  | cons e es ih =>
      rw [List.foldl_cons, ih]
      cases e with
      | described path m o =>
          simp [List.filterMap_cons, add, SurveyEvent.described?, SurveyEvent.failure?,
            SurveyEvent.skipped?, collect, Nat.add_comm, Nat.add_left_comm]
      | failed f =>
          simp [List.filterMap_cons, add, SurveyEvent.described?, SurveyEvent.failure?,
            SurveyEvent.skipped?]
      | skipped file =>
          simp [List.filterMap_cons, add, SurveyEvent.described?, SurveyEvent.failure?,
            SurveyEvent.skipped?]
      | _ =>
          simp [List.filterMap_cons, add, SurveyEvent.described?, SurveyEvent.failure?,
            SurveyEvent.skipped?]

variable (es : List SurveyEvent)

theorem ofEvents_failures : (ofEvents es).failures = es.filterMap SurveyEvent.failure? := by
  simp [ofEvents, foldl_add]

theorem ofEvents_skipped : (ofEvents es).skipped = es.filterMap SurveyEvent.skipped? := by
  simp [ofEvents, foldl_add]

theorem ofEvents_succeeded :
    (ofEvents es).succeeded = (es.filterMap SurveyEvent.described?).length := by
  simp [ofEvents, foldl_add]

theorem ofEvents_paths :
    (ofEvents es).paths = sorted (collect (es.filterMap SurveyEvent.described?) []) := by
  simp [ofEvents, foldl_add]

theorem tidy_ofEvents : Tidy (ofEvents es).paths := by
  rw [ofEvents_paths]
  exact tidy_sorted (tidy_collect tidy_nil _)

theorem ordered_ofEvents : Ordered (ofEvents es).paths := by
  rw [ofEvents_paths]
  exact ordered_sorted _

variable {es}

/-- Where no place is described twice, a look-up finds exactly what is described. -/
theorem find?_ofEvents (hn : ((es.filterMap SurveyEvent.described?).map place).Nodup)
    (path : List Char) (m : Method) (o : Operation) :
    find? (ofEvents es).paths path m = some o ↔
      (path, m, o) ∈ es.filterMap SurveyEvent.described? := by
  rw [ofEvents_paths, find?_sorted (tidy_collect tidy_nil _), find?_collect hn]
  simp [find?, Assoc.get?]

/-- Where no place is described twice, every success is an operation of its own. -/
theorem size_ofEvents (hn : ((es.filterMap SurveyEvent.described?).map place).Nodup) :
    size (ofEvents es).paths = (ofEvents es).succeeded := by
  rw [ofEvents_paths, size_sorted, ofEvents_succeeded, size_collect hn]
  · simp [size]
  · intro d _
    rfl

/-! ### The map of a document -/

theorem ofChars_injective : Function.Injective Text.ofChars := by
  intro s t h
  rw [← Option.some.injEq, ← Text.chars?_ofChars, h, Text.chars?_ofChars]

theorem pathMap_eq (r : SurveyResult) :
    r.pathMap = r.paths.map fun e =>
      (Text.ofChars e.1, e.2.map fun i => (Text.ofChars i.1, i.2)) := rfl

/-- The document has the operations of the result, and no others. -/
theorem find?_pathMap (r : SurveyResult) (path method : Text) (o : Operation) :
    find? r.pathMap path method = some o ↔
      ∃ p m, path = Text.ofChars p ∧ method = Text.ofChars m ∧ find? r.paths p m = some o := by
  rw [pathMap_eq]
  constructor
  · intro h
    obtain ⟨item, hi, hm⟩ := Assoc.exists_of_find? h
    obtain ⟨e, -, he⟩ := List.mem_map.mp hi
    cases he
    obtain ⟨i, -, hi⟩ := List.mem_map.mp hm
    cases hi
    rw [Assoc.find?_map ofChars_injective ofChars_injective] at h
    exact ⟨e.1, i.1, rfl, rfl, h⟩
  · rintro ⟨p, m, rfl, rfl, h⟩
    rwa [Assoc.find?_map ofChars_injective ofChars_injective]

theorem tidy_pathMap {r : SurveyResult} (h : Tidy r.paths) : Tidy r.pathMap := by
  rw [pathMap_eq]
  refine ⟨?_, ?_, ?_⟩
  · have hn := h.paths.map ofChars_injective
    rw [List.map_map] at hn ⊢
    exact hn
  · intro e he
    obtain ⟨e', he', rfl⟩ := List.mem_map.mp he
    have hn := (h.methods e' he').map ofChars_injective
    rw [List.map_map] at hn
    rw [List.map_map]
    exact hn
  · intro e he
    obtain ⟨e', he', rfl⟩ := List.mem_map.mp he
    simpa using h.nonempty e' he'

/-- A map with a path has an operation. -/
theorem Tidy.exists_find? {ps : Operations} (h : Tidy ps) (hne : ps ≠ []) :
    ∃ path m o, find? ps path m = some o := by
  obtain ⟨e, rest, rfl⟩ := List.exists_cons_of_ne_nil hne
  obtain ⟨i, item, hi⟩ := List.exists_cons_of_ne_nil (h.nonempty e List.mem_cons_self)
  exact ⟨e.1, i.1, i.2, by simp [find?, Assoc.get?, hi]⟩

end SurveyResult
end RouteScribe
