import RouteScribe.Proofs.Survey.Faithful
import RouteScribe.Proofs.Survey.Timing

/-! # One owner for each route

A list of files may name a file twice, and different files may have one API path.  `OneOwner` says
what a survey owes to any such list: it asks for no route twice, it records a failure for each place
in the list that is not the first one of its path, and it counts the operations that it returns.

What is picked from the events of a survey is known for every list (`filterMap_runTimed_perm`): the
owners are worked on, each as often as it is listed, and the other files are failures.  So the
survey of a list has one owner for each route exactly if no owner that can be read is listed twice
and no file exports one method under two spellings (`oneOwner_iff`). -/

namespace RouteScribe
namespace Survey

variable {s : Setting} {τ : Timing} {files : List (List Char)} {file : List Char}
  {extra index total : Nat}

/-! ### The events of a file -/

/-- The setting at a place of the claimed files. -/
def Setting.timed (s : Setting) (τ : Timing) (i : Nat) : Setting := { s with describer := τ.describer i }

/-- The file cannot be read, and the survey says so. -/
def IsUnread (s : Setting) (file : List Char) : Prop :=
  ∃ fault, source s file = .error fault ∧ ∀ path, fault ≠ .unreachable ⟨.nullCharacter, path⟩

/-- The failures that are recorded for a file: none for a name that no file can have. -/
def recordedOf (s : Setting) (file : List Char) : List RouteFailure :=
  match source s file with
  | .error (.unreachable ⟨.nullCharacter, _⟩) => []
  | _ => failuresOf s file

/-- What is picked from the events of a file whose calls are made all at the same time. -/
theorem filterMap_events_slowScript_perm {α : Type} {f : SurveyEvent → Option α} {picked : List α}
    (hread : f (.readBegun file) = none ∧ f (.readEnded file) = none)
    (hnull : ∀ p, source s file = .error (.unreachable ⟨.nullCharacter, p⟩) → picked = [])
    (hfile : (∀ p, source s file ≠ .error (.unreachable ⟨.nullCharacter, p⟩)) →
      (fileEvents s index total file).filterMap f = picked) :
    ((slowScript s extra index total file).events.filterMap f).Perm picked := by
  rw [events_slowScript]
  by_cases h : ∃ p, source s file = .error (.unreachable ⟨.nullCharacter, p⟩)
  · obtain ⟨p, hp⟩ := h
    rw [hnull p hp, hp, List.filterMap_cons_none hread.1, List.filterMap_cons_none hread.2]
    exact .refl _
  · have hsource : ∀ p, source s file ≠ .error (.unreachable ⟨.nullCharacter, p⟩) :=
      fun p hp => h ⟨p, hp⟩
    rw [← hfile hsource]
    exact (((events_readScript_perm hsource).cons _).cons _).filterMap f

theorem methodsOf_of_error {fault : ReadFault} (h : source s file = .error fault) :
    methodsOf s file = [] := by
  rw [methodsOf, h]

theorem queries_slowScript_perm : ((slowScript s extra index total file).events.filterMap
    SurveyEvent.query?).Perm ((methodsOf s file).map (query s file)) := by
  apply filterMap_events_slowScript_perm ⟨rfl, rfl⟩
  · intro p hp
    rw [methodsOf_of_error hp]
    rfl
  · exact fun _ => queries_fileEvents index total file

theorem described_slowScript_perm : ((slowScript s extra index total file).events.filterMap
    SurveyEvent.described?).Perm (operationsOf s file) := by
  apply filterMap_events_slowScript_perm ⟨rfl, rfl⟩
  · intro p hp
    rw [operationsOf, methodsOf_of_error hp]
    rfl
  · exact fun _ => described_fileEvents index total file

theorem failures_slowScript_perm : ((slowScript s extra index total file).events.filterMap
    SurveyEvent.failure?).Perm (recordedOf s file) := by
  apply filterMap_events_slowScript_perm ⟨rfl, rfl⟩
  · intro p hp
    rw [recordedOf, hp]
  · intro hsource
    rw [failures_fileEvents, recordedOf]
    split
    · next p hp => exact absurd hp (hsource p)
    · rfl

/-! ### The events of a survey -/

section picked

variable {pool : Pool} (hp : pool.active < pool.limit) (s τ) (files : List (List Char))
  (schedule : Schedule)
include hp

/-- What is picked from the events of a survey: from the failures of the files that own no path, and
from the owners, each as often as it is listed. -/
theorem filterMap_runTimed_perm {α : Type} {f : SurveyEvent → Option α}
    {g : Setting → List Char → List α} (hnoted : ∀ e, f (.noted e) = none)
    (hscript : ∀ (s : Setting) (extra index total : Nat) (file : List Char),
      ((slowScript s extra index total file).events.filterMap f).Perm (g s file)) :
    ((runTimed s τ pool files schedule).events.filterMap f).Perm
      ((doubles files).flatMap (fun d => [.failed (doubleFailure d)].filterMap f) ++
        (owners files).zipIdx.flatMap fun j => g (s.timed τ j.2) j.1) := by
  have hjobs := Run.events_settle_perm hp (timedScripts s τ (owners files)) schedule
  have hevents : (runTimed s τ pool files schedule).events = claimEvents files ++
      ((Run.start pool (timedScripts s τ (owners files))).settle schedule).events := by
    rw [← files_ofFiles]
    rfl
  rw [hevents, List.filterMap_append, filterMap_claimEvents hnoted]
  refine ((hjobs.filterMap f).trans ?_).append_left _
  rw [timedScripts, List.flatMap_map, List.filterMap_flatMap]
  exact List.Perm.flatMap_left _ fun j _ => hscript (s.timed τ j.2) _ _ _ j.1

theorem queries_runTimed_perm :
    (runTimed s τ pool files schedule).queries.Perm (due s files) := by
  have hperm := filterMap_runTimed_perm s τ hp files schedule (f := SurveyEvent.query?)
    (fun _ => rfl) fun _ _ _ _ _ => queries_slowScript_perm
  have hdue : due s files = (owners files).zipIdx.flatMap fun j =>
      (methodsOf s j.1).map (query s j.1) := by
    rw [due, ← List.flatMap_map Prod.fst fun f => (methodsOf s f).map (query s f),
      List.zipIdx_map_fst]
  have hnone : (doubles files).flatMap
      (fun d => [.failed (doubleFailure d)].filterMap SurveyEvent.query?) = [] := by
    simp [SurveyEvent.query?]
  rw [hnone, List.nil_append] at hperm
  exact hdue ▸ hperm

theorem described_runTimed_perm :
    ((runTimed s τ pool files schedule).events.filterMap SurveyEvent.described?).Perm
      ((owners files).zipIdx.flatMap fun j => operationsOf (s.timed τ j.2) j.1) := by
  have hperm := filterMap_runTimed_perm s τ hp files schedule (f := SurveyEvent.described?)
    (fun _ => rfl) fun _ _ _ _ _ => described_slowScript_perm
  have hnone : (doubles files).flatMap
      (fun d => [.failed (doubleFailure d)].filterMap SurveyEvent.described?) = [] := by
    simp [SurveyEvent.described?]
  rwa [hnone, List.nil_append] at hperm

theorem failures_runTimed_perm :
    (runTimed s τ pool files schedule).result.failures.Perm
      ((doubles files).map doubleFailure ++
        (owners files).zipIdx.flatMap fun j => recordedOf (s.timed τ j.2) j.1) := by
  have hperm := filterMap_runTimed_perm s τ hp files schedule (f := SurveyEvent.failure?)
    (fun _ => rfl) fun _ _ _ _ _ => failures_slowScript_perm
  rw [Ended.result, SurveyResult.ofEvents_failures, List.map_eq_flatMap]
  exact hperm

end picked

/-! ### Places that come late -/

/-- The files at the places of a list that are not the first ones of their paths. -/
def latecomers (files : List (List Char)) : List (List Char) :=
  (files.zipIdx.filter fun j =>
    (files.take j.2).any fun f => Route.apiPath f = Route.apiPath j.1).map Prod.fst

theorem latecomers_append (files : List (List Char)) (file : List Char) :
    latecomers (files ++ [file]) = latecomers files ++
      if files.any fun f => Route.apiPath f = Route.apiPath file then [file] else [] := by
  have hbefore : files.zipIdx.filter (fun j => ((files ++ [file]).take j.2).any
        fun f => Route.apiPath f = Route.apiPath j.1) =
      files.zipIdx.filter fun j => (files.take j.2).any
        fun f => Route.apiPath f = Route.apiPath j.1 := by
    apply List.filter_congr
    rintro ⟨f, i⟩ hj
    have hi := (List.getElem?_eq_some_iff.mp (List.mk_mem_zipIdx_iff_getElem?.mp hj)).1
    dsimp only
    rw [List.take_append_of_le_length (Nat.le_of_lt hi)]
  rw [latecomers, List.zipIdx_append, List.filter_append, hbefore, List.map_append, latecomers]
  congr 1
  split
  · next h => simp [h]
  · next h => simp [h]

theorem owner?_eq_none_iff {path : List Char} :
    owner? files path = none ↔ (files.any fun f => Route.apiPath f = path) = false := by
  rw [owner?, List.find?_eq_none, List.any_eq_false]

theorem owns_append_of_ne {last : List Char} (h : last ≠ file) :
    owns (files ++ [last]) file = owns files file := by
  rw [owns, owns, owner?_append]
  cases owner? files (Route.apiPath file) with
  | none => by_cases hpath : Route.apiPath last = Route.apiPath file <;> simp [hpath, h]
  | some o => rfl

/-- Every place of a file comes late, except the first one of a file that owns its path. -/
theorem count_latecomers (files : List (List Char)) (file : List Char) :
    (latecomers files).count file + (if owns files file then 1 else 0) = files.count file := by
  induction files using List.reverseRec with
  | nil => rfl
  | append_singleton files last ih =>
      rw [latecomers_append, List.count_append, List.count_append]
      rcases eq_or_ne last file with rfl | hne
      · rw [List.count_singleton_self, ← ih, owns_append_self]
        cases howner : owner? files (Route.apiPath last) with
        | none =>
            have hfirst : owns files last = false := by simp [owns, howner]
            rw [owner?_eq_none_iff.mp howner, hfirst]
            simp
        | some o =>
            have hlate : (files.any fun f => Route.apiPath f = Route.apiPath last) = true := by
              rw [← Bool.not_eq_false, ← owner?_eq_none_iff, howner]
              exact Option.some_ne_none o
            have hsame : owns files last = decide (o = last) := by simp [owns, howner]
            rw [hlate, hsame, Option.getD_some, if_pos rfl, List.count_singleton_self]
            omega
      · have hnone : (if files.any fun f => Route.apiPath f = Route.apiPath last then [last]
            else []).count file = 0 := by
          split
          · exact List.count_eq_zero.mpr fun hm => hne (List.mem_singleton.mp hm).symm
          · rfl
        rw [hnone, List.count_eq_zero.mpr fun hm => hne (List.mem_singleton.mp hm).symm,
          owns_append_of_ne hne, ← ih]
        omega

/-! ### What a survey owes to its list -/

/-- The failure is about the file as a whole. -/
def isFailureOf (file : List Char) (x : RouteFailure) : Bool :=
  x.route = Route.apiPath file && x.file = file

theorem isFailureOf_iff {x : RouteFailure} :
    isFailureOf file x = true ↔ x.route = Route.apiPath file ∧ x.file = file := by
  rw [isFailureOf, Bool.and_eq_true, decide_eq_true_eq, decide_eq_true_eq]

/-- What a survey owes to any list of files. -/
structure OneOwner (files : List (List Char)) (e : Ended) : Prop where
  /-- No route is asked for twice. -/
  once : (e.queries.map RouteQuery.route).Nodup
  /-- Each place in the list that is not the first one of its path is a failure of its own. -/
  recorded : ∀ file, (latecomers files).count file ≤ e.result.failures.countP (isFailureOf file)
  /-- The successes that are counted are the operations that are returned. -/
  counted : e.result.succeeded = SurveyResult.size e.result.paths

/-- A failure about a file as a whole says that the file could not be read. -/
theorem isUnread_of_mem_recordedOf {x : RouteFailure} {other : List Char}
    (hx : x ∈ recordedOf s other) (h : isFailureOf file x = true) :
    other = file ∧ IsUnread s file := by
  obtain ⟨hroute, hfile⟩ := isFailureOf_iff.mp h
  rw [recordedOf] at hx
  split at hx
  · exact absurd hx List.not_mem_nil
  · next hnull =>
      rw [failuresOf] at hx
      split at hx
      · next fault hsource =>
          cases List.mem_singleton.mp hx
          dsimp only at hfile
          subst hfile
          refine ⟨rfl, fault, hsource, ?_⟩
          rintro path rfl
          exact hnull path hsource
      · next text hsource =>
          obtain ⟨m, -, hm⟩ := List.mem_filterMap.mp hx
          rw [callFailure?] at hm
          split at hm
          · cases hm
            dsimp only at hroute hfile
            subst hfile
            -- The route of a call is longer than the path of its file.
            have hlength := congrArg List.length hroute
            simp only [query, List.length_append, List.length_cons] at hlength
            omega
          · cases hm

theorem countP_recordedOf_pos (h : IsUnread s file) :
    0 < (recordedOf s file).countP (isFailureOf file) := by
  obtain ⟨fault, hsource, hnull⟩ := h
  have hrecorded : recordedOf s file = [⟨Route.apiPath file, file, fault.message⟩] := by
    rw [recordedOf]
    split
    · next path hpath =>
        rw [hsource] at hpath
        exact absurd (Except.error.inj hpath) (hnull path)
    · rw [failuresOf, hsource]
  rw [hrecorded, List.countP_pos_iff]
  exact ⟨_, List.mem_singleton_self _, isFailureOf_iff.mpr ⟨rfl, rfl⟩⟩

/-- Where each member of one kind gives something of one kind, there is no less of it. -/
theorem countP_le_countP_flatMap {α β : Type} {l : List α} {p : α → Bool} {q : β → Bool}
    {f : α → List β} (h : ∀ a ∈ l, p a = true → 0 < (f a).countP q) :
    l.countP p ≤ (l.flatMap f).countP q := by
  induction l with
  | nil => exact Nat.le_refl _
  | cons a l ih =>
      have htail := ih fun b hb => h b (List.mem_cons_of_mem a hb)
      rw [List.flatMap_cons, List.countP_append, List.countP_cons]
      split
      · next ha =>
          have hpos := h a List.mem_cons_self ha
          omega
      · omega

/-- A file that owns no path is a failure as often as it is listed. -/
theorem countP_doubles (files : List (List Char)) (file : List Char) :
    ((doubles files).map doubleFailure).countP (isFailureOf file) =
      (files.filter fun f => !owns files f).count file := by
  rw [doubles, List.map_map, List.countP_map, List.count]
  apply List.countP_congr
  intro f _
  rw [Function.comp_apply, Function.comp_apply, isFailureOf_iff, beq_iff_eq]
  constructor
  · exact fun h => h.2
  · rintro rfl
    exact ⟨rfl, rfl⟩

theorem count_zipIdx (l : List (List Char)) (file : List Char) :
    (l.zipIdx.countP fun j => j.1 == file) = l.count file := by
  have hcount : l.zipIdx.countP ((fun f => f == file) ∘ Prod.fst) = l.count file := by
    rw [← List.countP_map, List.zipIdx_map_fst, List.count]
  exact hcount

section owed

variable {pool : Pool} (hp : pool.active < pool.limit) (s τ) (files : List (List Char))
  (schedule : Schedule)
include hp

/-- The late places are failures exactly if the owners that are listed again cannot be read. -/
theorem recorded_iff :
    (∀ file, (latecomers files).count file ≤
        (runTimed s τ pool files schedule).result.failures.countP (isFailureOf file)) ↔
      ∀ file ∈ owners files, 1 < files.count file → IsUnread s file := by
  have hfailures := failures_runTimed_perm s τ hp files schedule
  constructor
  · intro h file howner hcount
    have howns : owns files file = true := (List.mem_filter.mp howner).2
    have hlate := count_latecomers files file
    rw [howns, if_pos rfl] at hlate
    have hpos : 0 < (runTimed s τ pool files schedule).result.failures.countP
        (isFailureOf file) := by
      have hle := h file
      omega
    obtain ⟨x, hx, hfailure⟩ := List.countP_pos_iff.mp hpos
    rcases List.mem_append.mp (hfailures.mem_iff.mp hx) with hx | hx
    · have hdouble := List.countP_pos_iff.mpr ⟨x, hx, hfailure⟩
      rw [countP_doubles] at hdouble
      have hother := (List.mem_filter.mp (List.count_pos_iff.mp hdouble)).2
      rw [howns] at hother
      cases hother
    · obtain ⟨⟨other, i⟩, -, hx⟩ := List.mem_flatMap.mp hx
      exact (isUnread_of_mem_recordedOf hx hfailure).2
  · intro h file
    rw [hfailures.countP_eq, List.countP_append, countP_doubles]
    have hlate := count_latecomers files file
    cases howns : owns files file with
    | false =>
        rw [howns] at hlate
        rw [List.count_filter (by rw [howns]; rfl)]
        simp only [Bool.false_eq_true, if_false] at hlate
        omega
    | true =>
        rw [howns, if_pos rfl] at hlate
        rcases Nat.lt_or_ge 1 (files.count file) with hcount | hcount
        · have howner : file ∈ owners files :=
            List.mem_filter.mpr ⟨List.count_pos_iff.mp (by omega), howns⟩
          have hunread := h file howner hcount
          have hle := countP_le_countP_flatMap (l := (owners files).zipIdx)
            (p := fun j => j.1 == file) (q := isFailureOf file)
            (f := fun j => recordedOf (s.timed τ j.2) j.1) fun j _ hj => by
              rw [beq_iff_eq.mp hj]
              exact countP_recordedOf_pos (s := s.timed τ j.2) hunread
          have howners : (owners files).count file = files.count file := List.count_filter howns
          rw [count_zipIdx, howners] at hle
          omega
        · omega

end owed

/-! ### Routes that are asked for -/

/-- A route tells the path behind its first blank. -/
theorem path_eq_of_route_eq {m m' : Method} {f f' : List Char} (hm : m ∈ methodsOf s f)
    (hm' : m' ∈ methodsOf s f') (h : (query s f m).route = (query s f' m').route) :
    Route.apiPath f = Route.apiPath f' := by
  have hblank : ∀ {f m}, m ∈ methodsOf s f → ' ' ∉ upper m := by
    intro f m hm
    obtain ⟨text, -, hexported⟩ := mem_methodsOf.mp hm
    exact not_mem_upper_of_mem_exportedMethods hexported (by decide) (by decide +kernel)
  have hpieces := congrArg (pieces ' ') h
  rw [query, query, pieces_append (hblank hm), pieces_append (hblank hm')] at hpieces
  rw [← joined_pieces ' ' (Route.apiPath f), (List.cons.inj hpieces).2, joined_pieces]

/-- What is said of members that occur again holds of all that are equal at different places. -/
theorem pairwise_of_count {α : Type} [BEq α] [LawfulBEq α] {P : α → Prop} {l : List α}
    (h : ∀ a ∈ l, 1 < l.count a → P a) : l.Pairwise fun a b => a = b → P a := by
  induction l with
  | nil => exact .nil
  | cons a l ih =>
      rw [List.pairwise_cons]
      constructor
      · rintro b hb rfl
        have hpos := List.count_pos_iff.mpr hb
        exact h a List.mem_cons_self (by rw [List.count_cons_self]; omega)
      · apply ih
        intro b hb hcount
        have hle : l.count b ≤ (a :: l).count b := List.count_le_count_cons
        exact h b (List.mem_cons_of_mem a hb) (Nat.lt_of_lt_of_le hcount hle)

section distinct

variable (h : ∀ file ∈ owners files, 1 < files.count file → IsUnread s file)
include h

/-- Owners at different places have different paths, unless they cannot be read. -/
theorem pairwise_owners : (owners files).Pairwise fun f f' =>
    methodsOf s f = [] ∨ Route.apiPath f ≠ Route.apiPath f' := by
  have hagain : (owners files).Pairwise fun f f' => f = f' → IsUnread s f := by
    apply pairwise_of_count
    intro f hf hcount
    have howns : owns files f = true := (List.mem_filter.mp hf).2
    have hsame : (owners files).count f = files.count f := List.count_filter howns
    exact h f hf (hsame ▸ hcount)
  refine hagain.imp_of_mem ?_
  intro f f' hf hf' hunread
  rcases eq_or_ne f f' with heq | hne
  · obtain ⟨fault, hsource, -⟩ := hunread heq
    exact .inl (methodsOf_of_error hsource)
  · exact .inr fun hpath => hne (owners_inj hf hf' hpath)

/-- Where owners that are listed again cannot be read, a route is asked for twice only if a file has
one method under two spellings. -/
theorem once_iff : ((due s files).map RouteQuery.route).Nodup ↔
    ∀ file ∈ owners files, ((methodsOf s file).map upper).Nodup := by
  have hroutes : ∀ f, ((methodsOf s f).map (query s f)).map RouteQuery.route =
      ((methodsOf s f).map upper).map fun name => name ++ ' ' :: Route.apiPath f := by
    intro f
    rw [List.map_map, List.map_map]
    rfl
  rw [due, List.map_flatMap, List.nodup_flatMap]
  constructor
  · intro hn f hf
    have hfile := hn.1 f hf
    rw [hroutes] at hfile
    exact hfile.of_map _
  · intro hn
    constructor
    · intro f hf
      rw [hroutes]
      refine (hn f hf).map ?_
      intro name name' heq
      exact List.append_cancel_right heq
    · refine (pairwise_owners h).imp ?_
      intro f f' hor route hmem hmem'
      obtain ⟨q, hq, rfl⟩ := List.mem_map.mp hmem
      obtain ⟨m, hm, rfl⟩ := List.mem_map.mp hq
      obtain ⟨q', hq', heq⟩ := List.mem_map.mp hmem'
      obtain ⟨m', hm', rfl⟩ := List.mem_map.mp hq'
      rcases hor with hnone | hne
      · rw [hnone] at hm
        exact absurd hm List.not_mem_nil
      · exact hne (path_eq_of_route_eq hm hm' heq.symm)

/-- Then no operation takes the place of another one. -/
theorem nodup_places_timed (τ : Timing) :
    (((owners files).zipIdx.flatMap fun j => operationsOf (s.timed τ j.2) j.1).map
      SurveyResult.place).Nodup := by
  rw [List.map_flatMap, List.nodup_flatMap]
  refine ⟨fun j _ => nodup_operationsOf _ _, ?_⟩
  have hpairs : ((owners files).zipIdx.map Prod.fst).Pairwise fun f f' =>
      methodsOf s f = [] ∨ Route.apiPath f ≠ Route.apiPath f' := by
    rw [List.zipIdx_map_fst]
    exact pairwise_owners h
  refine (List.pairwise_map.mp hpairs).imp ?_
  intro j j' hor place hmem hmem'
  obtain ⟨d, hd, rfl⟩ := List.mem_map.mp hmem
  obtain ⟨d', hd', heq⟩ := List.mem_map.mp hmem'
  obtain ⟨hpath, hm, -⟩ := mem_operationsOf.mp hd
  obtain ⟨hpath', -, -⟩ := mem_operationsOf.mp hd'
  rcases hor with hnone | hne
  · have hnil : methodsOf (s.timed τ j.2) j.1 = [] := hnone
    rw [hnil] at hm
    exact absurd hm List.not_mem_nil
  · exact hne (hpath.symm.trans ((congrArg Prod.fst heq).symm.trans hpath'))

end distinct

/-- **One owner for each route.**  For every list of files, every way of describing and every order
of the turns, a survey asks for no route twice, records every late place and counts what it returns
exactly if the owners that are listed again cannot be read, and no file has a method under two
spellings. -/
theorem oneOwner_iff {pool : Pool} (hp : pool.active < pool.limit) (s : Setting) (τ : Timing)
    (files : List (List Char)) (schedule : Schedule) :
    OneOwner files (runTimed s τ pool files schedule) ↔
      (∀ file ∈ owners files, 1 < files.count file → IsUnread s file) ∧
        ∀ file ∈ owners files, ((methodsOf s file).map upper).Nodup := by
  have hrecorded := recorded_iff s τ hp files schedule
  have hqueries := (queries_runTimed_perm s τ hp files schedule).map RouteQuery.route
  constructor
  · intro h
    have hunread := hrecorded.mp h.recorded
    exact ⟨hunread, (once_iff hunread).mp (hqueries.nodup_iff.mp h.once)⟩
  · rintro ⟨hunread, hspelled⟩
    refine ⟨hqueries.nodup_iff.mpr ((once_iff hunread).mpr hspelled), hrecorded.mpr hunread, ?_⟩
    have hplaces := (described_runTimed_perm s τ hp files schedule).map SurveyResult.place
    exact (SurveyResult.size_ofEvents (hplaces.nodup_iff.mpr (nodup_places_timed hunread τ))).symm

/-- A disk with the route file `a/route.js`, which exports one method. -/
def oneMethod : Setting :=
  { disk := ⟨.directory [("a".toList, .directory [("route.js".toList,
      .file ("export const GET".toList.map fun c => c.toNat.toUInt8))])], []⟩
    root := ⟨.root, []⟩
    describer := ⟨[], fun _ => ⟨1, .ok default, none⟩⟩ }

/-- Another file of the same path is late, and so is a missing file that is listed again. -/
theorem oneOwner_same_path :
    let files := ["a/route.js".toList, "a/route.ts".toList, "b/route.js".toList,
      "b/route.js".toList]
    Pool.usual.active < Pool.usual.limit ∧
      latecomers files = ["a/route.ts".toList, "b/route.js".toList] ∧
      ∀ τ schedule, OneOwner files (runTimed oneMethod τ .usual files schedule) := by
  intro files
  have hp : Pool.usual.active < Pool.usual.limit := by decide
  refine ⟨hp, by decide +kernel, ?_⟩
  intro τ schedule
  have howners : ∀ file ∈ owners files, file = "a/route.js".toList ∨ file = "b/route.js".toList := by
    decide +kernel
  refine (oneOwner_iff hp oneMethod τ files schedule).mpr ⟨?_, by decide +kernel⟩
  intro file hf hcount
  rcases howners file hf with rfl | rfl
  · exact absurd hcount (by decide)
  · refine ⟨.unreachable ⟨.notFound, ⟨.root, ["b".toList, "route.js".toList]⟩⟩, by decide +kernel, ?_⟩
    exact nofun

/-- A file that is listed twice is worked on twice. -/
theorem not_oneOwner_listed_twice :
    let files := ["a/route.js".toList, "a/route.js".toList]
    latecomers files = ["a/route.js".toList] ∧
      (run oneMethod .usual files).queries.map RouteQuery.route = ["GET /a".toList, "GET /a".toList] ∧
      ¬ OneOwner files (run oneMethod .usual files) := by
  intro files
  have hroutes : (run oneMethod .usual files).queries.map RouteQuery.route =
      ["GET /a".toList, "GET /a".toList] := by decide +kernel
  refine ⟨by decide +kernel, hroutes, ?_⟩
  intro h
  have honce := h.once
  rw [hroutes] at honce
  exact absurd honce (by decide)

end Survey
end RouteScribe
