import RouteScribe.Reply
import RouteScribe.Proofs.OpenApi.Check
import RouteScribe.Proofs.OpenApi.FullDump

/-! # What an operation keeps of a reply

An operation that is read from a reply is written with the members of the reply, nulls apart
(`Operation.ofReply_kept`): no other member is there and none is lost, except that summary,
description and responses that say nothing give way to their defaults, that parameters which say
nothing are left out, and that `required` becomes a truth value.  This needs a reply that goes by the
OpenAPI names of the fields, as the reader also takes a second name for some of them
(`Operation.PlainNames`). -/

namespace RouteScribe

/-! ### Members, nulls apart -/

/-- The value, unless it is null. -/
def Json.orNone : Json → Option Json
  | .null => none
  | v => some v

namespace Fields

variable {fs : Fields} {name other : Text} {v default : Json}

/-- The value of a member, unless it is null. -/
def said? (fs : Fields) (name : Text) : Option Json := (fs.get? name).bind Json.orNone

theorem said?_of_get? (h : fs.get? name = some v) : fs.said? name = v.orNone := by
  rw [said?, h, Option.bind_some]

/-- The value of a member if it is truthy, and otherwise the default. -/
inductive Gives (fs : Fields) (name : Text) (default : Json) : Json → Prop where
  | own {v : Json} (h : fs.get? name = some v) (ht : v.truthy = true) : Gives fs name default v
  | default (h : ∀ v, fs.get? name = some v → v.truthy = false) : Gives fs name default default

theorem gives_orDefault (fs : Fields) (name : Text) (default : Json) :
    fs.Gives name default (Operation.orDefault fs name default) := by
  rw [Operation.orDefault]
  cases hv : fs.get? name with
  | none => exact .default fun v h => by rw [hv] at h; cases h
  | some v =>
      dsimp only
      split
      · next ht => exact .own hv ht
      · next ht =>
          refine .default fun w h => ?_
          rw [hv] at h
          cases h
          exact Bool.eq_false_iff.mpr ht

theorem get?_set_self (fs : Fields) (name : Text) (v : Json) : (fs.set name v).get? name = some v :=
  Assoc.get?_set_self fs name v

theorem get?_set_ne (fs : Fields) (v : Json) (h : other ≠ name) :
    (fs.set name v).get? other = fs.get? other := Assoc.get?_set_ne fs v h

theorem get?_erase (fs : Fields) (name other : Text) :
    (fs.erase name).get? other = if other = name then none else fs.get? other := by
  have h := Assoc.get?_filter (l := fs) (fun k => k != name) other
  rw [erase, get?, h]
  by_cases hn : other = name <;> simp [hn, get?]

end Fields

/-! ### The members that are filled in -/

namespace Operation

variable (fs : Fields)

theorem orDefault_set_ne {name other : Text} (v default : Json) (h : other ≠ name) :
    orDefault (fs.set name v) other default = orDefault fs other default := by
  rw [orDefault, orDefault, Fields.get?_set_ne fs v h]

/-- The members with summary, description and responses, before parameters that say nothing are
left out. -/
def filled : Fields :=
  ((fs.set "summary" (orDefault fs "summary" defaultSummary)).set "description"
    (orDefault fs "description" defaultDescription)).set "responses"
      (orDefault fs "responses" defaultResponses)

theorem get?_filled (name : Text) : (filled fs).get? name =
    if name = "responses" then some (orDefault fs "responses" defaultResponses)
    else if name = "description" then some (orDefault fs "description" defaultDescription)
    else if name = "summary" then some (orDefault fs "summary" defaultSummary)
    else fs.get? name := by
  unfold filled
  split
  · next h => rw [h, Fields.get?_set_self]
  · next hr =>
      rw [Fields.get?_set_ne _ _ hr]
      split
      · next h => rw [h, Fields.get?_set_self]
      · next hd =>
          rw [Fields.get?_set_ne _ _ hd]
          split
          · next h => rw [h, Fields.get?_set_self]
          · next hs => rw [Fields.get?_set_ne _ _ hs]

/-- The members without parameters that say nothing. -/
def withoutIdle (fs : Fields) : Fields :=
  match fs.get? "parameters" with
  | some v => if v.truthy then fs else fs.erase "parameters"
  | none => fs

theorem completed_eq : completed fs = withoutIdle (filled fs) := by
  have hdescription (a : Json) : orDefault (fs.set "summary" a) "description" defaultDescription =
      orDefault fs "description" defaultDescription := orDefault_set_ne fs _ _ (by decide)
  have hresponses (a b : Json) :
      orDefault ((fs.set "summary" a).set "description" b) "responses" defaultResponses =
        orDefault fs "responses" defaultResponses := by
    rw [orDefault_set_ne _ _ _ (by decide), orDefault_set_ne _ _ _ (by decide)]
  unfold filled
  rw [← hresponses, ← hdescription]
  rfl

/-- The value of a name in the completed members. -/
theorem get?_completed (name : Text) : (completed fs).get? name =
    if name = "parameters" then (fs.get? "parameters").filter Json.truthy
    else (filled fs).get? name := by
  have hget : (filled fs).get? "parameters" = fs.get? "parameters" := by
    rw [get?_filled, if_neg (by decide), if_neg (by decide), if_neg (by decide)]
  rw [completed_eq, withoutIdle, hget]
  by_cases hn : name = "parameters"
  · subst hn
    rw [if_pos rfl]
    cases hv : fs.get? "parameters" with
    | none => simpa [hv] using hget
    | some v => cases ht : v.truthy <;> simp [ht, hget, hv, Fields.get?_erase, Option.filter_some]
  · rw [if_neg hn]
    cases fs.get? "parameters" with
    | none => rfl
    | some v => cases ht : v.truthy <;> simp [ht, hn, Fields.get?_erase]

theorem nodup_completed (h : (fs.map Prod.fst).Nodup) : ((completed fs).map Prod.fst).Nodup := by
  have hfilled : ((filled fs).map Prod.fst).Nodup :=
    Assoc.nodup_names_set (Assoc.nodup_names_set (Assoc.nodup_names_set h _ _) _ _) _ _
  rw [completed_eq, withoutIdle]
  split
  · split
    · exact hfilled
    · exact hfilled.sublist (List.filter_sublist.map _)
  · exact hfilled

end Operation

/-! ### Fields that go by their first names -/

namespace Check

open Checked

variable {α : Type} {fs : Fields} {keys : List Key} {k : Key} {a : α} {inner : Json → Checked α}

/-- No member goes by the second name of a field. -/
def FirstNames (keys : List Key) (fs : Fields) : Prop :=
  ∀ k ∈ keys, ∀ other ∈ k.other, fs.get? (Text.ofString other) = none

theorem has_eq (fs : Fields) (name : Text) : fs.has name = (fs.get? name).isSome := by
  induction fs with
  | nil => rfl
  | cons e fs ih =>
      obtain ⟨n, v⟩ := e
      unfold Fields.has Fields.get? at ih ⊢
      by_cases hn : n = name
      · simp [Assoc.get?, hn]
      · have hne : (n == name) = false := beq_eq_false_iff_ne.mpr hn
        simpa [Assoc.get?, hn, hne] using ih

theorem FirstNames.used (h : FirstNames keys fs) (hk : k ∈ keys) :
    k.used fs = Text.ofString k.name := by
  unfold Key.used
  cases ho : k.other with
  | none => rfl
  | some other =>
      have hother := h k hk other ho
      simp [has_eq, hother]

instance decidableFirstNames (keys : List Key) (fs : Fields) : Decidable (FirstNames keys fs) :=
  inferInstanceAs (Decidable
    (∀ k ∈ keys, ∀ other ∈ k.other, fs.get? (Text.ofString other) = none))

/-- A member that no field claims keeps its value. -/
theorem get?_unclaimed (h : FirstNames keys fs) {name : Text}
    (hn : name ∉ keys.map fun k => Text.ofString k.name) :
    (unclaimed fs keys).get? name = fs.get? name := by
  have hclaimed : (keys.map fun k => k.used fs) = keys.map fun k => Text.ofString k.name :=
    List.map_congr_left fun k hk => h.used hk
  have hfilter := Assoc.get?_filter
    (fun name => !(keys.map fun k => Text.ofString k.name).contains name) fs name
  rw [unclaimed, hclaimed, Fields.get?, hfilter, if_pos (by simpa using hn), Fields.get?]

theorem get?_of_required (hk : k.used fs = Text.ofString k.name)
    (ha : required fs k inner = .ok a) :
    ∃ v, fs.get? (Text.ofString k.name) = some v ∧ inner v = .ok a := by
  rw [required, hk] at ha
  cases hv : fs.get? (Text.ofString k.name) with
  | none =>
      simp only [hv] at ha
      cases ha
  | some v =>
      simp only [hv] at ha
      exact ⟨v, rfl, below_eq_ok_iff.mp ha⟩

theorem get?_of_defaulted (hk : k.used fs = Text.ofString k.name) {absent : α}
    (ha : defaulted fs k absent inner = .ok a) :
    fs.get? (Text.ofString k.name) = none ∧ a = absent ∨
      ∃ v, fs.get? (Text.ofString k.name) = some v ∧ inner v = .ok a := by
  rw [defaulted, hk] at ha
  cases hv : fs.get? (Text.ofString k.name) with
  | none =>
      simp only [hv] at ha
      exact .inl ⟨rfl, (Except.ok.inj ha).symm⟩
  | some v =>
      simp only [hv] at ha
      exact .inr ⟨v, rfl, below_eq_ok_iff.mp ha⟩

theorem optional_of_missing (hk : k.used fs = Text.ofString k.name) {o : Option α}
    (ho : defaulted fs k none (optional inner) = .ok o)
    (hmissing : fs.get? (Text.ofString k.name) = none) : o = none := by
  rcases get?_of_defaulted hk ho with ⟨-, rfl⟩ | ⟨v, hv, -⟩
  · rfl
  · rw [hmissing] at hv
    cases hv

theorem optional_of_truthy (hk : k.used fs = Text.ofString k.name) {o : Option α}
    (ho : defaulted fs k none (optional inner) = .ok o) {v : Json}
    (hv : fs.get? (Text.ofString k.name) = some v) (ht : v.truthy = true) :
    ∃ a, o = some a ∧ inner v = .ok a := by
  rcases get?_of_defaulted hk ho with ⟨hnone, -⟩ | ⟨w, hw, hopt⟩
  · rw [hnone] at hv
    cases hv
  · cases hw.symm.trans hv
    cases v with
    | null => cases ht
    | bool _ | num _ | str _ | arr _ | obj _ =>
        obtain ⟨a, ha, rfl⟩ := map_eq_ok_iff.mp hopt
        exact ⟨a, rfl, ha⟩

/-- An optional field that is written as the value that it was read from says what the object
does. -/
theorem said_of_optional (hk : k.used fs = Text.ofString k.name) {o : Option α} {g : α → Json}
    (hg : ∀ v a, inner v = .ok a → g a = v)
    (ho : defaulted fs k none (optional inner) = .ok o) :
    (o.elim .null g).orNone = fs.said? (Text.ofString k.name) := by
  rcases get?_of_defaulted hk ho with ⟨hnone, rfl⟩ | ⟨v, hv, hopt⟩
  · rw [Fields.said?, hnone]
    rfl
  · rw [Fields.said?_of_get? hv]
    cases v with
    | null =>
        cases hopt
        rfl
    | bool _ | num _ | str _ | arr _ | obj _ =>
        obtain ⟨a, ha, rfl⟩ := map_eq_ok_iff.mp hopt
        rw [Option.elim_some, hg _ a ha]

/-! ### What the checks of single values read -/

theorem str_of_text {v : Json} {t : Text} (h : text v = .ok t) : .str t = v := by
  cases v <;> cases h
  rfl

theorem obj_of_dictionary {v : Json} {ms : Fields} (h : dictionary v = .ok ms) : .obj ms = v :=
  (eq_obj_of_dictionary h).symm

theorem word_of_place {v : Json} {p : Place} (h : place v = .ok p) : Json.string p.word = v := by
  cases v with
  | null | bool _ | num _ | arr _ | obj _ => cases h
  | str s =>
      rw [place] at h
      split at h
      · cases h
      · cases hq : Place.ofText? s with
        | none =>
            rw [hq] at h
            cases h
        | some q =>
            rw [hq] at h
            cases h
            have hs : Text.ofString p.word = s := by simpa using List.find?_some hq
            rw [Json.string, hs]

theorem forall₂_of_listOf {item : Json → Checked α} {v : Json} {as : List α}
    (h : listOf item v = .ok as) :
    ∃ vs, v = .arr vs ∧ List.Forall₂ (fun v a => item v = .ok a) vs as := by
  cases v with
  | null | bool _ | num _ | str _ | obj _ => cases h
  | arr vs =>
      refine ⟨vs, rfl, ?_⟩
      rw [listOf, all_eq_ok_iff, List.forall₂_map_left_iff] at h
      have hfst : (vs.zipIdx.map Prod.fst) = vs := by simp
      rw [← hfst, List.forall₂_map_left_iff]
      exact h.imp fun _ _ hitem => below_eq_ok_iff.mp hitem

theorem arr_of_listOf_text {v : Json} {ts : List Text} (h : listOf text v = .ok ts) :
    .arr (ts.map .str) = v := by
  obtain ⟨vs, rfl, hvs⟩ := forall₂_of_listOf h
  clear h
  congr 1
  induction hvs with
  | nil => rfl
  | cons hv _ ih => rw [List.map_cons, str_of_text hv, ih]

end Check

open Check Checked

/-! ### Parameters -/

namespace Fields

variable {known extra : Fields} {name : Text} {v : Json}

theorem get?_known (hn : ((known ++ extra).map Prod.fst).Nodup) (h : (name, v) ∈ known) :
    (known ++ extra).get? name = some v :=
  Assoc.get?_of_mem hn (List.mem_append_left extra h)

theorem said?_known (hn : ((known ++ extra).map Prod.fst).Nodup) (h : (name, v) ∈ known) :
    (known ++ extra).said? name = v.orNone := said?_of_get? (get?_known hn h)

theorem get?_extra (h : name ∉ known.map Prod.fst) :
    (known ++ extra).get? name = extra.get? name := by
  rw [get?, Assoc.get?_append, Assoc.get?_eq_none_of_not_mem h]
  rfl

end Fields

theorem Parameter.nodup_members (p : Parameter) {ms : Fields} (h : p.extra = unclaimed ms keys)
    (hms : (ms.map Prod.fst).Nodup) : (p.members.map Prod.fst).Nodup := by
  have hkeys : (keys.map fun k => Text.ofString k.name).Nodup := by decide
  have hnodup := nodup_unclaimed hkeys hms
  rw [← h] at hnodup
  exact hnodup

theorem Operation.nodup_members (o : Operation) {fs : Fields} (h : o.extra = unclaimed fs keys)
    (hfs : (fs.map Prod.fst).Nodup) : (o.members.map Prod.fst).Nodup := by
  have hkeys : (keys.map fun k => Text.ofString k.name).Nodup := by decide
  have hnodup := nodup_unclaimed hkeys hfs
  rw [← h] at hnodup
  exact hnodup

theorem Parameter.get?_members_extra (p : Parameter) {name : Text}
    (h : name ∉ Parameter.keys.map fun k => Text.ofString k.name) :
    p.members.get? name = p.extra.get? name :=
  @Fields.get?_extra p.known p.extra name h

theorem Operation.get?_members_extra (o : Operation) {name : Text}
    (h : name ∉ Operation.keys.map fun k => Text.ofString k.name) :
    o.members.get? name = o.extra.get? name :=
  @Fields.get?_extra o.known o.extra name h

/-- What the members `ws` of a written parameter say of the members `ms` that it was read from. -/
structure Parameter.Kept (ms ws : Fields) : Prop where
  distinct : (ws.map Prod.fst).Nodup
  place : ∃ p : Place, ws.get? "in" = some (Json.string p.word)
  required : ∃ b, ws.get? "required" = some (.bool b) ∧
    (ms.get? "required" = none ∧ b = false ∨
      ∃ v, ms.get? "required" = some v ∧ Check.boolean v = .ok b)
  others : ∀ name : Text, name ≠ "required" → ws.said? name = ms.said? name

/-- A written parameter keeps what the object says that it was read from. -/
inductive Parameter.KeptIn : Json → Json → Prop where
  | obj {ms ws : Fields} (h : Parameter.Kept ms ws) : KeptIn (.obj ms) (.obj ws)

/-- A parameter says what it was read from, but for the truth value. -/
theorem Parameter.kept_of_check {ms : Fields} {p : Parameter} (hms : (ms.map Prod.fst).Nodup)
    (hfirst : FirstNames Parameter.keys ms) (h : Parameter.check (.obj ms) = .ok p) :
    Parameter.Kept ms p.members := by
  obtain ⟨_, heq, hp⟩ := exists_of_openModel h
  cases heq
  simp only [seq_eq_ok_iff, map_eq_ok_iff] at hp
  obtain ⟨_, ⟨_, ⟨_, ⟨_, ⟨_, ⟨_, ⟨name, hname, rfl⟩, place, hplace, rfl⟩, required, hrequired, rfl⟩,
    description, hdescription, rfl⟩, schema, hschema, rfl⟩, sample, hsample, rfl⟩, samples,
    hsamples, hp⟩ := hp
  have hnodup := p.nodup_members (by rw [← hp]) hms
  subst hp
  have hused := fun k hk => hfirst.used (k := k) hk
  simp only [Parameter.keys, List.forall_mem_cons] at hused
  obtain ⟨kname, kplace, krequired, kdescription, kschema, ksample, ksamples, -⟩ := hused
  obtain ⟨vname, hvname, hname⟩ := get?_of_required kname hname
  obtain ⟨vplace, hvplace, hplace⟩ := get?_of_required kplace hplace
  have hrequired := get?_of_defaulted krequired hrequired
  have hdescription := said_of_optional kdescription (fun _ _ => str_of_text) hdescription
  have hschema := said_of_optional kschema (fun _ _ => obj_of_dictionary) hschema
  have hsample := get?_of_defaulted ksample hsample
  have hsamples := said_of_optional ksamples (fun _ _ => obj_of_dictionary) hsamples
  refine ⟨hnodup, ⟨place, ?_⟩, ⟨required, ?_, ?_⟩, fun field hfield => ?_⟩
  · exact Fields.get?_known hnodup (by simp [Parameter.known])
  · exact Fields.get?_known hnodup (by simp [Parameter.known])
  · exact hrequired
  by_cases hknown : field ∈ Parameter.keys.map fun k => Text.ofString k.name
  · simp only [Parameter.keys, List.map_cons, List.map_nil, List.mem_cons, List.not_mem_nil,
      or_false] at hknown
    rcases hknown with rfl | rfl | rfl | rfl | rfl | rfl | rfl
    · rw [Fields.said?_of_get? hvname, ← str_of_text hname]
      exact Fields.said?_known hnodup (by simp [Parameter.known])
    · rw [Fields.said?_of_get? hvplace, ← word_of_place hplace]
      exact Fields.said?_known hnodup (by simp [Parameter.known])
    · exact absurd rfl hfield
    · rw [← hdescription]
      exact Fields.said?_known hnodup (by simp [Parameter.known])
    · rw [← hschema]
      exact Fields.said?_known hnodup (by simp [Parameter.known])
    · have hown : sample.orNone = ms.said? "example" := by
        rcases hsample with ⟨hnone, rfl⟩ | ⟨v, hv, ⟨⟩⟩
        · rw [Fields.said?, hnone]
          rfl
        · rw [Fields.said?_of_get? hv]
      rw [← hown]
      exact Fields.said?_known hnodup (by simp [Parameter.known])
    · rw [← hsamples]
      exact Fields.said?_known hnodup (by simp [Parameter.known])
  · rw [Fields.said?, Parameter.get?_members_extra _ hknown, get?_unclaimed hfirst hknown,
      Fields.said?]

/-! ### Operations -/

namespace Operation

/-- What the members `ws` of a written operation say of the members `fs` of a reply. -/
structure Kept (fs ws : Fields) : Prop where
  distinct : (ws.map Prod.fst).Nodup
  summary : ∃ t, t ≠ [] ∧ ws.get? "summary" = some (.str t) ∧
    fs.Gives "summary" defaultSummary (.str t)
  description : ∃ t, t ≠ [] ∧ ws.get? "description" = some (.str t) ∧
    fs.Gives "description" defaultDescription (.str t)
  responses : ∃ rs, rs ≠ [] ∧ ws.get? "responses" = some (.obj rs) ∧
    fs.Gives "responses" defaultResponses (.obj rs)
  noParameters : (∀ v, fs.get? "parameters" = some v → v.truthy = false) →
    ws.said? "parameters" = none
  parameters : ∀ v, fs.get? "parameters" = some v → v.truthy = true →
    ∃ vs us, v = .arr vs ∧ ws.get? "parameters" = some (.arr us) ∧
      List.Forall₂ Parameter.KeptIn vs us
  others : ∀ name : Text, name ≠ "summary" → name ≠ "description" → name ≠ "responses" →
    name ≠ "parameters" → ws.said? name = fs.said? name

/-- Neither the object nor one of its parameters has a member under the second name of a field. -/
structure PlainNames (fs : Fields) : Prop where
  own : FirstNames keys fs
  parameters : ∀ vs, fs.get? "parameters" = some (.arr vs) →
    ∀ ms, .obj ms ∈ vs → FirstNames Parameter.keys ms

/-- The parameters in a value go by the first names of their fields. -/
def plainItems : Json → Bool
  | .arr vs => vs.all fun
    | .obj ms => decide (FirstNames Parameter.keys ms)
    | _ => true
  | _ => true

theorem plainNames_of_items {fs : Fields} (h : FirstNames keys fs)
    (hitems : (fs.get? "parameters").all plainItems = true) : PlainNames fs := by
  refine ⟨h, fun vs hvs ms hms => ?_⟩
  rw [hvs] at hitems
  exact of_decide_eq_true (List.all_eq_true.mp hitems _ hms)

theorem firstNames_completed {fs : Fields} (h : FirstNames keys fs) :
    FirstNames keys (completed fs) := by
  intro k hk other hother
  have hname : other = "request_body" := by
    simp only [keys, List.mem_cons, List.not_mem_nil, or_false] at hk
    rcases hk with rfl | rfl | rfl | rfl | rfl | rfl <;> cases hother
    rfl
  have hget := h k hk other hother
  subst hname
  rw [get?_completed, if_neg (by decide), get?_filled, if_neg (by decide), if_neg (by decide),
    if_neg (by decide), hget]

theorem truthy_of_gives {fs : Fields} {name : Text} {default v : Json}
    (hd : default.truthy = true) (h : fs.Gives name default v) : v.truthy = true := by
  cases h with
  | own _ ht => exact ht
  | default _ => exact hd

theorem get?_completed_summary (fs : Fields) :
    (completed fs).get? "summary" = some (orDefault fs "summary" defaultSummary) := by
  rw [get?_completed, if_neg (by decide), get?_filled, if_neg (by decide), if_neg (by decide),
    if_pos rfl]

theorem get?_completed_description (fs : Fields) :
    (completed fs).get? "description" = some (orDefault fs "description" defaultDescription) := by
  rw [get?_completed, if_neg (by decide), get?_filled, if_neg (by decide), if_pos rfl]

theorem get?_completed_responses (fs : Fields) :
    (completed fs).get? "responses" = some (orDefault fs "responses" defaultResponses) := by
  rw [get?_completed, if_neg (by decide), get?_filled, if_pos rfl]

theorem get?_completed_parameters (fs : Fields) :
    (completed fs).get? "parameters" = (fs.get? "parameters").filter Json.truthy := by
  rw [get?_completed, if_pos rfl]

theorem get?_completed_of_ne (fs : Fields) {name : Text} (hs : name ≠ "summary")
    (hd : name ≠ "description") (hr : name ≠ "responses") (hp : name ≠ "parameters") :
    (completed fs).get? name = fs.get? name := by
  rw [get?_completed, if_neg hp, get?_filled, if_neg hr, if_neg hd, if_neg hs]

/-- A text that was filled in is not empty. -/
theorem gives_text {fs : Fields} {name : Text} {default : Json} {t : Text}
    (hd : default.truthy = true) (h : .str t = orDefault fs name default) :
    t ≠ [] ∧ fs.Gives name default (.str t) := by
  have hgives := Fields.gives_orDefault fs name default
  rw [← h] at hgives
  have htruthy := truthy_of_gives hd hgives
  refine ⟨?_, hgives⟩
  rintro rfl
  cases htruthy

/-- Every parameter of a list says what it was read from. -/
theorem kept_parameters {vs : List Json} {ps : List Parameter}
    (hnames : ∀ v ∈ vs, v.NamesDistinct)
    (hplain : ∀ ms, .obj ms ∈ vs → FirstNames Parameter.keys ms)
    (h : List.Forall₂ (fun v p => Parameter.check v = .ok p) vs ps) :
    List.Forall₂ Parameter.KeptIn vs (ps.map fun p => Json.obj p.members) := by
  induction h with
  | nil => exact .nil
  | @cons v p vs ps hp _ ih =>
      obtain ⟨ms, rfl, -⟩ := exists_of_openModel hp
      have hdistinct := (Json.holds_obj.mp (hnames _ List.mem_cons_self)).1
      have hfirst := hplain ms List.mem_cons_self
      refine .cons (.obj (Parameter.kept_of_check hdistinct hfirst hp)) ?_
      exact ih (fun v hv => hnames v (List.mem_cons_of_mem _ hv))
        fun ms hm => hplain ms (List.mem_cons_of_mem _ hm)

/-- An operation says what the members of a reply do, once these are completed. -/
theorem kept_of_check {fs : Fields} {o : Operation} (hfs : (Json.obj fs).NamesDistinct)
    (hplain : PlainNames fs) (h : check (.obj (completed fs)) = .ok o) : Kept fs o.members := by
  have hfirst := firstNames_completed hplain.own
  obtain ⟨_, heq, ho⟩ := exists_of_openModel h
  cases heq
  simp only [seq_eq_ok_iff, map_eq_ok_iff] at ho
  obtain ⟨_, ⟨_, ⟨_, ⟨_, ⟨_, ⟨summary, hsummary, rfl⟩, description, hdescription, rfl⟩, parameters,
    hparameters, rfl⟩, requestBody, hrequestBody, rfl⟩, responses, hresponses, rfl⟩, tags, htags,
    ho⟩ := ho
  have hnodup := o.nodup_members (by rw [← ho]) (nodup_completed fs (Json.holds_obj.mp hfs).1)
  subst ho
  have hused := fun k hk => hfirst.used (k := k) hk
  simp only [keys, List.forall_mem_cons] at hused
  obtain ⟨ksummary, kdescription, kparameters, krequestBody, kresponses, ktags, -⟩ := hused
  obtain ⟨_, hs, hsummary⟩ := get?_of_required ksummary hsummary
  obtain ⟨_, hd, hdescription⟩ := get?_of_required kdescription hdescription
  have hrequestBody := said_of_optional krequestBody (fun _ _ => obj_of_dictionary) hrequestBody
  have htags := said_of_optional ktags (fun _ _ => arr_of_listOf_text) htags
  cases (get?_completed_summary fs).symm.trans hs
  cases (get?_completed_description fs).symm.trans hd
  obtain ⟨hsummary_ne, hsummary⟩ := gives_text (by decide) (str_of_text hsummary)
  obtain ⟨hdescription_ne, hdescription⟩ := gives_text (by decide) (str_of_text hdescription)
  refine ⟨hnodup, ⟨summary, hsummary_ne, ?_, hsummary⟩, ⟨description, hdescription_ne, ?_,
    hdescription⟩, ?_, ?_, ?_, ?_⟩
  · exact Fields.get?_known hnodup (by simp [known])
  · exact Fields.get?_known hnodup (by simp [known])
  · have hgives := Fields.gives_orDefault fs "responses" defaultResponses
    have htruthy := truthy_of_gives (by decide) hgives
    obtain ⟨rs, rfl, hrs⟩ := optional_of_truthy kresponses hresponses
      (get?_completed_responses fs) htruthy
    rw [← obj_of_dictionary hrs] at hgives htruthy
    refine ⟨rs, ?_, Fields.get?_known hnodup (by simp [known]), hgives⟩
    rintro rfl
    cases htruthy
  · intro hfalsy
    have hmissing : (completed fs).get? "parameters" = none := by
      rw [get?_completed_parameters, Option.filter_eq_none_iff]
      exact fun v hv => Bool.eq_false_iff.mp (hfalsy v hv)
    cases optional_of_missing kparameters hparameters hmissing
    exact Fields.said?_known hnodup (v := .null) (by simp [known])
  · intro v hv ht
    have hget : (completed fs).get? "parameters" = some v := by
      rw [get?_completed_parameters, hv, Option.filter_some_pos ht]
    obtain ⟨ps, rfl, hps⟩ := optional_of_truthy kparameters hparameters hget ht
    obtain ⟨vs, rfl, hvs⟩ := forall₂_of_listOf hps
    have hnames := namesDistinct_of_holds hfs (holds_of_get? hv)
    exact ⟨vs, _, rfl, Fields.get?_known hnodup (by simp [known]),
      kept_parameters (Json.holds_arr.mp hnames) (hplain.parameters vs hv) hvs⟩
  · intro field hsummary hdescription hresponses hparameters
    have hget := get?_completed_of_ne fs hsummary hdescription hresponses hparameters
    have hsaid : fs.said? field = (completed fs).said? field := by
      rw [Fields.said?, Fields.said?, hget]
    rw [hsaid]
    by_cases hknown : field ∈ keys.map fun k => Text.ofString k.name
    · simp only [keys, List.map_cons, List.map_nil, List.mem_cons, List.not_mem_nil,
        or_false] at hknown
      rcases hknown with rfl | rfl | rfl | rfl | rfl | rfl
      · exact absurd rfl hsummary
      · exact absurd rfl hdescription
      · exact absurd rfl hparameters
      · rw [← hrequestBody]
        exact Fields.said?_known hnodup (by simp [known])
      · exact absurd rfl hresponses
      · rw [← htags]
        exact Fields.said?_known hnodup (by simp [known])
    · rw [Fields.said?, get?_members_extra _ hknown, get?_unclaimed hfirst hknown, Fields.said?]

/-! ### Replies -/

variable {room : Nat} {reply : Text}

theorem exists_read_of_ofReply {o : Operation} (h : ofReply room reply = .ok o) :
    ∃ fs, Json.read room (Reply.jsonPart reply) = .ok (.obj fs) ∧
      check (.obj (completed fs)) = .ok o := by
  unfold ofReply at h
  split at h
  · cases h
  · next fs hread =>
      refine ⟨fs, hread, ?_⟩
      cases hc : check (.obj (completed fs)) with
      | ok op =>
          rw [Checked.titled, hc] at h
          cases h
          rfl
      | error faults =>
          rw [Checked.titled, hc] at h
          cases h
  · cases h

/-- An operation that is read from a reply is written with what the reply says. -/
theorem ofReply_kept {o : Operation} (h : ofReply room reply = .ok o) :
    ∃ fs, Json.read room (Reply.jsonPart reply) = .ok (.obj fs) ∧
      (PlainNames fs → ∃ ws, o.dump .full = .obj ws ∧ Kept fs ws) := by
  obtain ⟨fs, hread, hcheck⟩ := exists_read_of_ofReply h
  have hdistinct := Json.namesDistinct_of_read hread
  exact ⟨fs, hread, fun hplain => ⟨o.members, o.dump_full, kept_of_check hdistinct hplain hcheck⟩⟩

/-- The reply is an object that goes by the first names of the fields. -/
def isPlain (room : Nat) (reply : Text) : Bool :=
  match Json.read room (Reply.jsonPart reply) with
  | .ok (.obj fs) => decide (FirstNames keys fs) && (Fields.get? fs "parameters").all plainItems
  | _ => false

theorem exists_of_isPlain (h : isPlain room reply = true) :
    ∃ fs, Json.read room (Reply.jsonPart reply) = .ok (.obj fs) ∧ PlainNames fs := by
  unfold isPlain at h
  split at h
  · next fs hread =>
      rw [Bool.and_eq_true, decide_eq_true_iff] at h
      exact ⟨fs, hread, plainNames_of_items h.1 h.2⟩
  · cases h

/-- A reply with an empty summary, no responses, a loose truth value, an extra null and an extra
value inside other ones. -/
def sparseReply : Text :=
  "\x7b\"summary\":\"\",\"description\":\"Users\",\"parameters\":[\x7b\"name\":\"page\"," ++
    "\"in\":\"query\",\"required\":\"yes\"\x7d],\"x-rate\":null,\"x-tier\":[1,[[\"two\"]]]\x7d"

theorem kept_sparseReply : ∃ o fs ws, ofReply 990 sparseReply = .ok o ∧
    Json.read 990 (Reply.jsonPart sparseReply) = .ok (.obj fs) ∧ o.dump .full = .obj ws ∧
      Kept fs ws := by
  have hok : (ofReply 990 sparseReply).isOk = true := by decide +kernel
  obtain ⟨fs, hread, hplain⟩ := @exists_of_isPlain 990 sparseReply (by decide +kernel)
  cases ho : ofReply 990 sparseReply with
  | error e =>
      rw [ho] at hok
      cases hok
  | ok o =>
      obtain ⟨_, hread', hkept⟩ := ofReply_kept ho
      cases hread.symm.trans hread'
      obtain ⟨ws, hws, hall⟩ := hkept hplain
      exact ⟨o, fs, ws, rfl, hread, hws, hall⟩

end Operation

end RouteScribe
