import RouteScribe.Proofs.Lists
import RouteScribe.Proofs.OpenApi.Check
import RouteScribe.Proofs.Reply.Kept

/-! # Values that are read and dumped as themselves

A value is `Json.Stable` for a part of a document if the part can be read from it and has it as its
strict dump.  The dump of a free value is stable (`Json.strict_strict`), lists and maps of stable
values are (`stable_listOf`, `stable_map`), and the members that an object has been written with give
its fields back (`Rewritten`): a field that was there is read from its member, and one that was left
out is not found. -/

namespace RouteScribe

open Dump Check Checked

variable {α : Type}

/-- The value is read as a part, and dumped again this part is the value. -/
def Json.Stable (check : Json → Checked α) (dump : α → Json) (v : Json) : Prop :=
  ∃ a, check v = .ok a ∧ dump a = v

/-! ### Free values -/

namespace Json

/-- All numbers in the value are finite. -/
def Finite (v : Json) : Prop := v.Holds Number.IsFinite fun _ => True

/-- A strict form is its own strict form. -/
theorem strict_strict (v : Json) : v.strict.strict = v.strict := by
  induction v using rec_mem with
  | null | bool _ | str _ => rfl
  | num n =>
      cases n with
      | integer n => rfl
      | real x => cases hx : x.isFinite <;> simp [strict, hx]
  | arr vs ih =>
      rw [strict_arr, strict_arr, List.map_map]
      exact congrArg arr (List.map_congr_left ih)
  | obj ms ih =>
      rw [strict_obj, strict_obj, List.map_map]
      exact congrArg obj (List.map_congr_left fun m hm => congrArg (Prod.mk m.1) (ih m hm))

/-- Only null becomes null, where numbers are finite. -/
theorem strict_ne_null {v : Json} (hv : v.Finite) (hn : v ≠ .null) : v.strict ≠ .null := by
  cases v with
  | null => exact absurd rfl hn
  | bool b | str s => exact hn
  | num n =>
      cases n with
      | integer n => exact hn
      | real x =>
          have hx : x.isFinite = true := hv
          simp [strict, hx]
  | arr vs | obj ms => simp [strict]

end Json

/-! ### Texts, dictionaries, lists and maps -/

open Json (Stable)

variable {check : Json → Checked α} {dump : α → Json}

theorem stable_text (t : Text) : Stable Check.text .str (.str t) := ⟨t, rfl, rfl⟩

theorem stable_dictionary (fs : Fields) :
    Stable Check.dictionary (Dump.dictionary .strict) (Dump.dictionary .strict fs) :=
  ⟨_, rfl, Json.strict_strict (.obj fs)⟩

theorem optional_of_ne_null {v : Json} {a : α} (hv : v ≠ .null) (ha : check v = .ok a) :
    Check.optional check v = .ok (some a) := by
  cases v with
  | null => exact absurd rfl hv
  | bool _ | num _ | str _ | arr _ | obj _ =>
      rw [Check.optional, ha]
      · rfl
      · exact hv

theorem stable_listOf {vs : List Json} (h : ∀ v ∈ vs, Stable check dump v) :
    Stable (Check.listOf check) (Dump.list dump) (.arr vs) := by
  obtain ⟨as, has⟩ := exists_forall₂ h
  refine ⟨as, ?_, ?_⟩
  · rw [Check.listOf, all_eq_ok_iff, List.forall₂_map_left_iff]
    have hfst : (vs.zipIdx.map Prod.fst) = vs := by simp
    rw [← hfst, List.forall₂_map_left_iff] at has
    exact has.imp fun _ _ ha => below_eq_ok_iff.mpr ha.1
  · have hdump : as.map dump = vs := by
      rw [← List.forall₂_eq_eq_eq, List.forall₂_map_left_iff]
      exact has.flip.imp fun _ _ ha => ha.2
    rw [Dump.list, hdump]

theorem Text.mended_mended (t : Text) : t.mended.mended = t.mended := by
  unfold Text.mended
  rw [List.flatMap_assoc]
  congr 1
  funext c
  cases c <;> rfl

/-- A map is stable if its values are and its names are apart and need no mending. -/
theorem stable_mapOf {ms : List (Text × Json)} (hv : ∀ m ∈ ms, Stable check dump m.2)
    (hn : (ms.map Prod.fst).Nodup) (hm : ∀ m ∈ ms, m.1.mended = m.1) :
    Stable (Check.mapOf check) (Dump.map .strict dump) (.obj ms) := by
  have hparts : ∀ m ∈ ms, ∃ p : Text × α, p.1 = m.1 ∧ check m.2 = .ok p.2 ∧ dump p.2 = m.2 := by
    intro m hmem
    obtain ⟨a, hcheck, hdump⟩ := hv m hmem
    exact ⟨(m.1, a), rfl, hcheck, hdump⟩
  obtain ⟨ps, hps⟩ := exists_forall₂ hparts
  refine ⟨ps, ?_, ?_⟩
  · rw [Check.mapOf, all_eq_ok_iff, List.forall₂_map_left_iff]
    refine hps.imp fun m p hp => below_eq_ok_iff.mpr ?_
    rw [hp.2.1, ← hp.1]
    rfl
  · have hdump : (ps.map fun p => (p.1.mended, dump p.2)) =
        ms.map fun m => (m.1.mended, m.2) := by
      rw [← List.forall₂_eq_eq_eq, List.forall₂_map_left_iff, List.forall₂_map_right_iff]
      exact hps.flip.imp fun p m hp => by rw [hp.1, hp.2.2]
    have hmended : (ms.map fun m => (m.1.mended, m.2)) = ms := by
      have hid := List.map_congr_left fun m hmem => congrArg (fun name => (name, m.2)) (hm m hmem)
      exact hid.trans (List.map_id ms)
    rw [Dump.map, hdump, hmended, Fields.ofPairs, Assoc.ofPairs_eq_self hn]

/-- What a map of parts is dumped as is stable if the dumps of the parts are. -/
theorem stable_map {ps : List (Text × α)} (hs : ∀ p ∈ ps, Stable check dump (dump p.2)) :
    Stable (Check.mapOf check) (Dump.map .strict dump) (Dump.map .strict dump ps) := by
  have hof : ∀ m ∈ Assoc.ofPairs (ps.map fun p => (p.1.mended, dump p.2)),
      ∃ p ∈ ps, (p.1.mended, dump p.2) = m := fun m hm =>
    List.mem_map.mp (Assoc.mem_of_mem_ofPairs hm)
  refine stable_mapOf ?_ (Assoc.nodup_names_ofPairs _) ?_
  · intro m hm
    obtain ⟨p, hp, rfl⟩ := hof m hm
    exact hs p hp
  · intro m hm
    obtain ⟨p, -, rfl⟩ := hof m hm
    exact p.1.mended_mended

/-! ### Fields that are read back -/

namespace Dump

/-- A field and its name as it stands in an object. -/
def Field.named (f : Field) : Text × Field := (Text.ofString f.name, f)

/-- Two fields that are written alike. -/
structure Field.Alike (f g : Field) : Prop where
  name : g.name = f.name
  present : g.present = f.present
  value : f.present = true → g.value = f.value

theorem Field.Alike.refl (f : Field) : f.Alike f := ⟨rfl, rfl, fun _ => rfl⟩

/-- An object begins with a field that has a value, and passes over one that has none. -/
theorem members_cons (n : Text) (f : Field) (fs : List (Text × Field)) :
    members .strict ((n, f) :: fs) =
      if f.present then (n, f.value) :: members .strict fs else members .strict fs := by
  rw [members_strict, members_strict, List.filter_cons]
  cases f.present <;> rfl

/-- Fields that are written alike become the same members. -/
theorem members_alike {fs gs : List Field} (h : List.Forall₂ Field.Alike fs gs) :
    members .strict (gs.map Field.named) = members .strict (fs.map Field.named) := by
  induction h with
  | nil => rfl
  | @cons f g fs gs hfg _ ih =>
      rw [List.map_cons, List.map_cons, Field.named, Field.named, members_cons, members_cons,
        hfg.name, hfg.present, ih]
      cases hp : f.present with
      | false => rfl
      | true => rw [hfg.value hp]

/-- What an object says of a field: its value, or nothing where it has none. -/
inductive Field.ReadIn (f : Field) (fs : Fields) : Prop
  | there (hp : f.present = true) (hget : fs.get? (Text.ofString f.name) = some f.value)
  | missing (hp : f.present = false) (hget : fs.get? (Text.ofString f.name) = none)

theorem get?_members_of_not_mem {fs : List Field} {name : Text}
    (hname : name ∉ fs.map fun f => Text.ofString f.name) :
    (members .strict (fs.map Field.named)).get? name = none := by
  apply Assoc.get?_eq_none_of_not_mem
  intro hmem
  have hsub := (names_members _).subset hmem
  rw [List.map_map] at hsub
  exact hname hsub

theorem Field.ReadIn.cons {f : Field} {fs : Fields} (h : f.ReadIn fs) {name : Text}
    (hne : name ≠ Text.ofString f.name) (v : Json) : f.ReadIn ((name, v) :: fs) := by
  have hget : Fields.get? ((name, v) :: fs) (Text.ofString f.name) =
      fs.get? (Text.ofString f.name) := by rw [Fields.get?, Assoc.get?, if_neg hne, Fields.get?]
  cases h with
  | there hp hf => exact .there hp (hget.trans hf)
  | missing hp hf => exact .missing hp (hget.trans hf)

theorem Field.ReadIn.append {f : Field} {fs : Fields} (h : f.ReadIn fs) {rest : Fields}
    (hrest : rest.get? (Text.ofString f.name) = none) : f.ReadIn (fs ++ rest) := by
  have hget : (fs ++ rest).get? (Text.ofString f.name) = fs.get? (Text.ofString f.name) := by
    unfold Fields.get? at hrest ⊢
    rw [Assoc.get?_append, hrest, Option.or_none]
  cases h with
  | there hp hf => exact .there hp (hget.trans hf)
  | missing hp hf => exact .missing hp (hget.trans hf)

/-- The members that fields become say of each field what it is. -/
theorem readIn_members {fs : List Field} (hn : (fs.map fun f => Text.ofString f.name).Nodup) :
    ∀ f ∈ fs, f.ReadIn (members .strict (fs.map Field.named)) := by
  induction fs with
  | nil => exact List.forall_mem_nil _
  | cons f fs ih =>
      rw [List.map_cons, List.nodup_cons] at hn
      rw [List.map_cons, Field.named, members_cons, List.forall_mem_cons]
      cases hp : f.present with
      | false => exact ⟨.missing hp (get?_members_of_not_mem hn.1), ih hn.2⟩
      | true =>
          refine ⟨.there hp ?_, fun g hg => (ih hn.2 g hg).cons ?_ _⟩
          · rw [if_pos rfl, Fields.get?, Assoc.get?, if_pos rfl]
          · intro hname
            exact hn.1 (hname ▸ List.mem_map_of_mem (f := fun f => Text.ofString f.name) hg)

/-! ### Extra members that are read back -/

/-- The members that the extra members of a part become, which are free values. -/
def others (extra : Fields) : Fields :=
  members .strict (extra.map fun m => (m.1, free .strict "" m.2))

theorem exists_of_mem_others {extra : Fields} {m : Text × Json} (hm : m ∈ others extra) :
    ∃ e ∈ extra, e.1 = m.1 ∧ e.2 ≠ .null ∧ e.2.strict = m.2 := by
  obtain ⟨f, hf, hp, hname, hv⟩ := exists_of_mem_members hm
  obtain ⟨e, he, rfl⟩ := List.mem_map.mp hf
  exact ⟨e, he, hname, (present_free _ _ _).mp hp, hv⟩

/-- Extra members are written as members that are written as themselves. -/
theorem others_others {extra : Fields} (hf : ∀ e ∈ extra, e.2.Finite) :
    others (others extra) = others extra := by
  have hall : ∀ f ∈ (others extra).map fun m => (m.1, free .strict "" m.2),
      f.2.present = true := by
    rw [List.forall_mem_map]
    intro m hm
    obtain ⟨e, he, -, hne, hv⟩ := exists_of_mem_others hm
    exact (present_free _ _ _).mpr (hv ▸ Json.strict_ne_null (hf e he) hne)
  rw [others, members_strict, List.filter_eq_self.mpr hall, List.map_map]
  refine (List.map_congr_left fun m hm => ?_).trans (List.map_id _)
  obtain ⟨e, -, -, -, hv⟩ := exists_of_mem_others hm
  have hsame : m.2.strict = m.2 := by rw [← hv, Json.strict_strict]
  exact Prod.ext rfl hsame

/-- Extra members with names of their own, which have an encoding. -/
structure OwnNames (keys : List Key) (extra : Fields) : Prop where
  own : ∀ m ∈ extra, m.1 ∉ keys.map fun k => Text.ofString k.name
  spelled : ∀ m ∈ extra, broken m.1 = false

/-- No extra member goes by the second name of a field. -/
def NoSecondNames (keys : List Key) (extra : Fields) : Prop :=
  ∀ m ∈ extra, ∀ k ∈ keys, ∀ other ∈ k.other, m.1 ≠ Text.ofString other

instance (keys : List Key) (extra : Fields) : Decidable (NoSecondNames keys extra) :=
  inferInstanceAs (Decidable (∀ m ∈ extra, ∀ k ∈ keys, ∀ other ∈ k.other,
    m.1 ≠ Text.ofString other))

/-- The names of the fields of a part differ, also from their second names. -/
structure KeysApart (keys : List Key) : Prop where
  nodup : (keys.map fun k => Text.ofString k.name).Nodup
  second : ∀ k ∈ keys, ∀ other ∈ k.other,
    Text.ofString other ∉ keys.map fun k => Text.ofString k.name

/-- An object that has been written from fields and extra members, as it is when it is read. -/
structure Rewritten (keys : List Key) (fields : List Field) (fs rest : Fields) : Prop where
  used : ∀ k ∈ keys, k.used fs = Text.ofString k.name
  read : ∀ f ∈ fields, f.ReadIn fs
  unclaimed : unclaimed fs keys = rest
  spelled : (fs.any fun m => broken m.1) = false
  dump : ∀ gs, List.Forall₂ Field.Alike fields gs → object .strict gs rest = .obj fs

theorem broken_ofString (s : String) : broken (Text.ofString s) = false := by
  rw [broken, Text.ofString, Text.chars?_ofChars]
  rfl

/-- Members that fields with these keys have become, and members that extra members have become. -/
structure WrittenFrom (keys : List Key) (extra known rest : Fields) : Prop where
  known : ∀ m ∈ known, m.1 ∈ keys.map fun k => Text.ofString k.name
  rest : ∀ m ∈ rest, ∃ e ∈ extra, e.1 = m.1

theorem writtenFrom {keys : List Key} {fields : List Field} (extra : Fields)
    (hnames : (fields.map fun f => Text.ofString f.name) =
      keys.map fun k => Text.ofString k.name) :
    WrittenFrom keys extra (members .strict (fields.map Field.named)) (others extra) where
  known := by
    intro m hm
    have hsub := (names_members _).subset (List.mem_map_of_mem (f := Prod.fst) hm)
    rw [List.map_map] at hsub
    exact hnames ▸ hsub
  rest := by
    intro m hm
    obtain ⟨e, he, hname, -⟩ := exists_of_mem_others hm
    exact ⟨e, he, hname⟩

namespace WrittenFrom

variable {keys : List Key} {extra known rest : Fields}

theorem firstNames (h : WrittenFrom keys extra known rest) (hkeys : KeysApart keys)
    (hsecond : NoSecondNames keys extra) : FirstNames keys (known ++ rest) := by
  intro k hk other ho
  apply Assoc.get?_eq_none_of_not_mem
  intro hmem
  obtain ⟨m, hm, hname⟩ := List.mem_map.mp hmem
  rcases List.mem_append.mp hm with hm | hm
  · exact hkeys.second k hk other ho (hname ▸ h.known m hm)
  · obtain ⟨e, he, hename⟩ := h.rest m hm
    exact hsecond e he k hk other ho (hename.trans hname)

theorem not_mem_of_own (h : WrittenFrom keys extra known rest) (hown : OwnNames keys extra) :
    ∀ m ∈ rest, m.1 ∉ keys.map fun k => Text.ofString k.name := by
  intro m hm
  obtain ⟨e, he, hename⟩ := h.rest m hm
  exact hename ▸ hown.own e he

theorem get?_rest (h : WrittenFrom keys extra known rest) (hown : OwnNames keys extra)
    {name : Text} (hname : name ∈ keys.map fun k => Text.ofString k.name) :
    rest.get? name = none := by
  apply Assoc.get?_eq_none_of_not_mem
  intro hmem
  obtain ⟨m, hm, rfl⟩ := List.mem_map.mp hmem
  exact h.not_mem_of_own hown m hm hname

/-- The fields claim their own members, and the extra members are left. -/
theorem unclaimed_eq (h : WrittenFrom keys extra known rest) (hown : OwnNames keys extra)
    (hfirst : FirstNames keys (known ++ rest)) : unclaimed (known ++ rest) keys = rest := by
  have hclaimed : (keys.map fun k => k.used (known ++ rest)) =
      keys.map fun k => Text.ofString k.name :=
    List.map_congr_left fun k hk => hfirst.used hk
  rw [Check.unclaimed, hclaimed, List.filter_append, List.filter_eq_nil_iff.mpr,
    List.filter_eq_self.mpr, List.nil_append]
  · intro m hm
    simpa using h.not_mem_of_own hown m hm
  · intro m hm
    simpa using h.known m hm

theorem spelled (h : WrittenFrom keys extra known rest) (hown : OwnNames keys extra) :
    ((known ++ rest).any fun m => broken m.1) = false := by
  rw [List.any_eq_false]
  intro m hm
  rcases List.mem_append.mp hm with hm | hm
  · obtain ⟨k, -, hname⟩ := List.mem_map.mp (h.known m hm)
    simp [← hname, broken_ofString]
  · obtain ⟨e, he, hename⟩ := h.rest m hm
    simp [← hename, hown.spelled e he]

end WrittenFrom

/-- An object that has been written from fields and extra members gives them back. -/
theorem rewritten_object {keys : List Key} {fields : List Field} {extra : Fields}
    (hkeys : KeysApart keys) (hfields : fields.map Field.name = keys.map Key.name)
    (hown : OwnNames keys extra) (hsecond : NoSecondNames keys extra)
    (hfinite : ∀ m ∈ extra, m.2.Finite) :
    ∃ fs, object .strict fields extra = .obj fs ∧ Rewritten keys fields fs (others extra) := by
  have hnames : (fields.map fun f => Text.ofString f.name) =
      keys.map fun k => Text.ofString k.name := by
    have hmap := congrArg (List.map Text.ofString) hfields
    rwa [List.map_map, List.map_map] at hmap
  have hfrom := writtenFrom extra hnames
  have hfirst := hfrom.firstNames hkeys hsecond
  refine ⟨_, rfl, fun k hk => hfirst.used hk, ?_, hfrom.unclaimed_eq hown hfirst,
    hfrom.spelled hown, ?_⟩
  · intro f hf
    have hread := readIn_members (hnames ▸ hkeys.nodup) f hf
    have hkey : Text.ofString f.name ∈ keys.map fun k => Text.ofString k.name :=
      hnames ▸ List.mem_map_of_mem (f := fun f => Text.ofString f.name) hf
    exact hread.append (hfrom.get?_rest hown hkey)
  · intro gs hgs
    have hwritten : object .strict gs (others extra) =
        .obj (members .strict (gs.map Field.named) ++ others (others extra)) := rfl
    rw [hwritten, members_alike hgs, others_others hfinite]
    rfl

/-- A part without extra members is written as an object that gives its fields back. -/
theorem rewritten_closed {keys : List Key} {fields : List Field} (hkeys : KeysApart keys)
    (hfields : fields.map Field.name = keys.map Key.name) :
    ∃ fs, object .strict fields [] = .obj fs ∧ Rewritten keys fields fs [] :=
  rewritten_object hkeys hfields ⟨List.forall_mem_nil _, List.forall_mem_nil _⟩
    (List.forall_mem_nil _) (List.forall_mem_nil _)

namespace Rewritten

variable {keys : List Key} {fields : List Field} {fs rest : Fields} {i : Nat} {k : Key}
  {inner : Json → Checked α} {g : α → Json} {x : Json}

/-- The member of a field that always has a value is there, and is written as it was. -/
theorem exists_member (h : Rewritten keys fields fs rest) (hk : keys[i]? = some k)
    (hf : fields[i]? = some (always k.name x)) (hs : x.Stable inner g) :
    ∃ a, fs.get? (k.used fs) = some x ∧ inner x = .ok a ∧
      Field.Alike (always k.name x) (always k.name (g a)) := by
  cases h.read _ (List.mem_of_getElem? hf) with
  | missing hp _ => cases hp
  | there hp hget =>
      obtain ⟨a, ha, hg⟩ := hs
      rw [h.used k (List.mem_of_getElem? hk)]
      exact ⟨a, hget, ha, rfl, rfl, fun _ => hg⟩

theorem required (h : Rewritten keys fields fs rest) (hk : keys[i]? = some k)
    (hf : fields[i]? = some (always k.name x)) (hs : x.Stable inner g) :
    ∃ a, Check.required fs k inner = .ok a ∧
      Field.Alike (always k.name x) (always k.name (g a)) := by
  obtain ⟨a, hget, ha, halike⟩ := h.exists_member hk hf hs
  refine ⟨a, ?_, halike⟩
  simp only [Check.required, hget, ha]
  rfl

theorem defaulted (h : Rewritten keys fields fs rest) (hk : keys[i]? = some k) (absent : α)
    (hf : fields[i]? = some (always k.name x)) (hs : x.Stable inner g) :
    ∃ a, Check.defaulted fs k absent inner = .ok a ∧
      Field.Alike (always k.name x) (always k.name (g a)) := by
  obtain ⟨a, hget, ha, halike⟩ := h.exists_member hk hf hs
  refine ⟨a, ?_, halike⟩
  simp only [Check.defaulted, hget, ha]
  rfl

/-- A field that may have no value is read from its member, or not found. -/
theorem optional (h : Rewritten keys fields fs rest) (hk : keys[i]? = some k) {o : Option α}
    (hf : fields[i]? = some (field k.name g o))
    (hs : ∀ b ∈ o, g b ≠ .null ∧ (g b).Stable inner g) :
    ∃ o', Check.defaulted fs k none (Check.optional inner) = .ok o' ∧
      Field.Alike (field k.name g o) (field k.name g o') := by
  have hread := h.read _ (List.mem_of_getElem? hf)
  have hused := h.used k (List.mem_of_getElem? hk)
  cases o with
  | none =>
      cases hread with
      | there hp _ => cases hp
      | missing _ hget =>
          refine ⟨none, ?_, Field.Alike.refl _⟩
          rw [Check.defaulted, hused]
          simp only [name_field] at hget
          simp only [hget]
  | some b =>
      cases hread with
      | missing hp _ => cases hp
      | there hp hget =>
          obtain ⟨hne, a, ha, hg⟩ := hs b rfl
          refine ⟨some a, ?_, rfl, rfl, fun _ => hg⟩
          rw [Check.defaulted, hused]
          simp only [name_field] at hget
          simp only [hget, field, optional_of_ne_null hne ha]
          rfl

/-- A free value is read from its member, or is null if it is not found. -/
theorem free (h : Rewritten keys fields fs rest) (hk : keys[i]? = some k) {v : Json}
    (hv : v.Finite) (hf : fields[i]? = some (Dump.free .strict k.name v)) :
    ∃ v', Check.defaulted fs k .null .ok = .ok v' ∧
      Field.Alike (Dump.free .strict k.name v) (Dump.free .strict k.name v') := by
  rw [Check.defaulted, h.used k (List.mem_of_getElem? hk)]
  cases h.read _ (List.mem_of_getElem? hf) with
  | missing hp hget =>
      rw [name_free] at hget
      simp only [hget]
      refine ⟨.null, rfl, rfl, hp.symm, fun hp' => ?_⟩
      rw [hp] at hp'
      cases hp'
  | there hp hget =>
      rw [name_free] at hget
      simp only [hget]
      have hne := (present_free _ _ _).mp hp
      refine ⟨v.strict, rfl, rfl, ?_, fun _ => v.strict_strict⟩
      rw [hp]
      exact (present_free _ _ _).mpr (Json.strict_ne_null hv hne)

end Rewritten

end Dump
end RouteScribe
