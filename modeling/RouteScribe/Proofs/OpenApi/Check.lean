import RouteScribe.Proofs.Json.Distinct
import RouteScribe.Proofs.OpenApi.Document

/-! # What the checks accept names no member twice

Every part that is read from a value in which no object names a member twice has distinct names
itself (`Document.namesDistinct_of_check`): its free values are parts of the value, and its extra
members are those that no field claims, so they have other names than the fields
(`Check.nodup_unclaimed`). -/

namespace RouteScribe

/-! ### Successful checks -/

namespace Checked

variable {α β : Type}

theorem seq_eq_ok_iff {f : Checked (α → β)} {c : Checked α} {b : β} :
    seq f c = .ok b ↔ ∃ g, f = .ok g ∧ ∃ a, c = .ok a ∧ g a = b := by
  cases f <;> cases c <;> simp [seq, Checked.and]

theorem below_eq_ok_iff {s : Step} {c : Checked α} {a : α} : below s c = .ok a ↔ c = .ok a := by
  cases c <;> simp [below]

theorem all_eq_ok_iff {cs : List (Checked α)} {as : List α} :
    all cs = .ok as ↔ List.Forall₂ (fun c a => c = .ok a) cs as := by
  induction cs generalizing as with
  | nil => cases as <;> simp [all]
  | cons c cs ih =>
      rw [List.forall₂_cons_left_iff]
      simp only [← ih, all]
      cases c <;> cases all cs <;> simp [Checked.and, eq_comm]

theorem exists_of_mem_all {γ : Type} {f : γ → Checked α} {xs : List γ} {as : List α}
    (h : all (xs.map f) = .ok as) {a : α} (ha : a ∈ as) : ∃ x ∈ xs, f x = .ok a := by
  rw [all_eq_ok_iff, List.forall₂_map_left_iff, ← mapM_eq_ok_iff] at h
  exact exists_of_mem_mapM h ha

end Checked

namespace Check

open Checked

variable {α : Type} {fs : Fields} {v : Json}

/-- The value is a member of the object. -/
def Holds (fs : Fields) (v : Json) : Prop := ∃ name, (name, v) ∈ fs

theorem holds_of_get? {name : Text} (h : fs.get? name = some v) : Holds fs v :=
  ⟨name, Assoc.mem_of_get? h⟩

theorem exists_of_defaulted {k : Key} {absent a : α} {inner : Json → Checked α}
    (h : defaulted fs k absent inner = .ok a) :
    a = absent ∨ ∃ v, Holds fs v ∧ inner v = .ok a := by
  rw [defaulted] at h
  cases hv : fs.get? (k.used fs) with
  | none =>
      simp only [hv] at h
      exact .inl (Except.ok.inj h).symm
  | some v =>
      simp only [hv] at h
      exact .inr ⟨v, holds_of_get? hv, below_eq_ok_iff.mp h⟩

theorem exists_of_required {k : Key} {a : α} {inner : Json → Checked α}
    (h : required fs k inner = .ok a) : ∃ v, Holds fs v ∧ inner v = .ok a := by
  rw [required] at h
  cases hv : fs.get? (k.used fs) with
  | none =>
      simp only [hv] at h
      cases h
  | some v =>
      simp only [hv] at h
      exact ⟨v, holds_of_get? hv, below_eq_ok_iff.mp h⟩

theorem eq_obj_of_dictionary {fs : Fields} (h : dictionary v = .ok fs) : v = .obj fs := by
  cases v <;> cases h
  rfl

theorem of_optional {inner : Json → Checked α} {o : Option α} (h : optional inner v = .ok o)
    {a : α} (ha : a ∈ o) : inner v = .ok a := by
  cases ha
  cases v with
  | null => cases h
  | bool _ | num _ | str _ | arr _ | obj _ =>
      obtain ⟨x, hx, hxa⟩ := map_eq_ok_iff.mp h
      cases hxa
      exact hx

/-- A part of an object that may be missing comes from a member of the object. -/
theorem exists_of_optional {k : Key} {o : Option α} {inner : Json → Checked α}
    (h : defaulted fs k none (optional inner) = .ok o) {a : α} (ha : a ∈ o) :
    ∃ v, Holds fs v ∧ inner v = .ok a := by
  rcases exists_of_defaulted h with rfl | ⟨v, hv, ho⟩
  · cases ha
  · exact ⟨v, hv, of_optional ho ha⟩

theorem exists_of_openModel {name : String} {inner : Fields → Checked α} {a : α}
    (h : openModel name inner v = .ok a) : ∃ fs, v = .obj fs ∧ inner fs = .ok a := by
  cases v with
  | null | bool _ | num _ | str _ | arr _ => cases h
  | obj fs =>
      rw [openModel] at h
      split at h
      · cases h
      · exact ⟨fs, rfl, h⟩

theorem exists_of_closedModel {name : String} {inner : Fields → Checked α} {a : α}
    (h : closedModel name inner v = .ok a) : ∃ fs, v = .obj fs ∧ inner fs = .ok a := by
  cases v with
  | null | bool _ | num _ | str _ | arr _ => cases h
  | obj fs => exact ⟨fs, rfl, h⟩

theorem exists_of_listOf {item : Json → Checked α} {as : List α} (h : listOf item v = .ok as) :
    ∃ vs, v = .arr vs ∧ ∀ a ∈ as, ∃ w ∈ vs, item w = .ok a := by
  cases v with
  | null | bool _ | num _ | str _ | obj _ => cases h
  | arr vs =>
      refine ⟨vs, rfl, fun a ha => ?_⟩
      obtain ⟨⟨w, i⟩, hw, hwa⟩ := exists_of_mem_all h ha
      exact ⟨w, (List.mem_zipIdx' hw).2 ▸ List.getElem_mem _, below_eq_ok_iff.mp hwa⟩

theorem exists_of_mapOf {item : Json → Checked α} {ps : List (Text × α)}
    (h : mapOf item v = .ok ps) :
    ∃ fs, v = .obj fs ∧ ∀ p ∈ ps, ∃ m ∈ fs, item m.2 = .ok p.2 := by
  cases v with
  | null | bool _ | num _ | str _ | arr _ => cases h
  | obj fs =>
      refine ⟨fs, rfl, fun p hp => ?_⟩
      obtain ⟨m, hm, hmp⟩ := exists_of_mem_all h hp
      obtain ⟨a, ha, rfl⟩ := map_eq_ok_iff.mp (below_eq_ok_iff.mp hmp)
      exact ⟨m, hm, ha⟩

/-! ### Members that no field claims -/

theorem used_of_has {k : Key} (h : fs.has (Text.ofString k.name) = true) :
    k.used fs = Text.ofString k.name := by
  cases ho : k.other <;> simp [Key.used, ho, h]

/-- A member that no field claims has another name than the fields. -/
theorem name_not_mem_of_unclaimed {keys : List Key} {m : Text × Json} (hm : m ∈ unclaimed fs keys) :
    m.1 ∉ keys.map fun k => Text.ofString k.name := by
  intro hkey
  obtain ⟨k, hk, hname⟩ := List.mem_map.mp hkey
  obtain ⟨hmem, hclaim⟩ := List.mem_filter.mp hm
  have hhas : fs.has (Text.ofString k.name) = true :=
    List.any_eq_true.mpr ⟨m, hmem, by rw [hname]; exact beq_self_eq_true _⟩
  have hin : m.1 ∈ keys.map fun k => k.used fs :=
    List.mem_map.mpr ⟨k, hk, by rw [used_of_has hhas, hname]⟩
  simp [hin] at hclaim

theorem nodup_unclaimed {keys : List Key} (hk : (keys.map fun k => Text.ofString k.name).Nodup)
    (hf : (fs.map Prod.fst).Nodup) :
    ((keys.map fun k => Text.ofString k.name) ++ (unclaimed fs keys).map Prod.fst).Nodup := by
  rw [List.nodup_append]
  refine ⟨hk, hf.sublist (List.filter_sublist.map _), ?_⟩
  rintro _ hkey _ hextra rfl
  obtain ⟨m, hm, hname⟩ := List.mem_map.mp hextra
  exact name_not_mem_of_unclaimed hm (hname ▸ hkey)

theorem namesDistinct_of_holds (hf : (Json.obj fs).NamesDistinct) (h : Holds fs v) :
    v.NamesDistinct := by
  obtain ⟨name, hm⟩ := h
  exact (Json.holds_obj.mp hf).2 _ hm

/-- A dictionary that a field holds is a part of the object. -/
theorem namesDistinct_of_dictionary (hf : (Json.obj fs).NamesDistinct) {k : Key}
    {o : Option Fields} (h : defaulted fs k none (optional dictionary) = .ok o) :
    ∀ fs' ∈ o, Fields.NamesDistinct fs' := by
  intro fs' ho
  obtain ⟨v, hv, hd⟩ := exists_of_optional h ho
  rw [Fields.NamesDistinct, ← eq_obj_of_dictionary hd]
  exact namesDistinct_of_holds hf hv

theorem namesDistinct_of_unclaimed (hf : (Json.obj fs).NamesDistinct) (keys : List Key) :
    ∀ m ∈ unclaimed fs keys, m.2.NamesDistinct := fun m hm =>
  (Json.holds_obj.mp hf).2 m (List.mem_of_mem_filter hm)

end Check

/-! ### The parts of a document -/

open Check Checked

theorem Parameter.namesDistinct_of_check {v : Json} {p : Parameter} (h : Parameter.check v = .ok p)
    (hv : v.NamesDistinct) : p.NamesDistinct := by
  obtain ⟨fs, rfl, hp⟩ := exists_of_openModel h
  simp only [seq_eq_ok_iff, map_eq_ok_iff] at hp
  obtain ⟨_, ⟨_, ⟨_, ⟨_, ⟨_, ⟨_, ⟨_, -, rfl⟩, _, -, rfl⟩, _, -, rfl⟩, _, -, rfl⟩,
    schema, hschema, rfl⟩, sample, hsample, rfl⟩, samples, hsamples, rfl⟩ := hp
  refine ⟨nodup_unclaimed (by decide) (Json.holds_obj.mp hv).1,
    namesDistinct_of_dictionary hv hschema, ?_,
    namesDistinct_of_dictionary hv hsamples, namesDistinct_of_unclaimed hv _⟩
  rcases exists_of_defaulted hsample with rfl | ⟨w, hw, hws⟩
  · trivial
  · cases hws
    exact namesDistinct_of_holds hv hw

theorem Operation.namesDistinct_of_check {v : Json} {o : Operation} (h : Operation.check v = .ok o)
    (hv : v.NamesDistinct) : o.NamesDistinct := by
  obtain ⟨fs, rfl, ho⟩ := exists_of_openModel h
  simp only [seq_eq_ok_iff, map_eq_ok_iff] at ho
  obtain ⟨_, ⟨_, ⟨_, ⟨_, ⟨_, ⟨_, -, rfl⟩, _, -, rfl⟩, parameters, hparameters, rfl⟩,
    requestBody, hrequestBody, rfl⟩, responses, hresponses, rfl⟩, _, -, rfl⟩ := ho
  refine ⟨nodup_unclaimed (by decide) (Json.holds_obj.mp hv).1, ?_,
    namesDistinct_of_dictionary hv hrequestBody, namesDistinct_of_dictionary hv hresponses,
    namesDistinct_of_unclaimed hv _⟩
  intro ps hps p hp
  obtain ⟨w, hw, hl⟩ := exists_of_optional hparameters hps
  obtain ⟨ws, rfl, hitems⟩ := exists_of_listOf hl
  obtain ⟨u, hu, hup⟩ := hitems p hp
  exact Parameter.namesDistinct_of_check hup (Json.holds_arr.mp (namesDistinct_of_holds hv hw) u hu)

/-- A document that is read from a value with distinct names has distinct names. -/
theorem Document.namesDistinct_of_check {v : Json} {d : Document} (h : Document.check v = .ok d)
    (hv : v.NamesDistinct) : d.NamesDistinct := by
  obtain ⟨fs, rfl, hd⟩ := exists_of_closedModel h
  simp only [seq_eq_ok_iff, map_eq_ok_iff] at hd
  obtain ⟨_, ⟨_, ⟨_, ⟨_, -, rfl⟩, _, -, rfl⟩, _, -, rfl⟩, paths, hpaths, rfl⟩ := hd
  obtain ⟨w, hw, hm⟩ := exists_of_required hpaths
  obtain ⟨ms, rfl, hitems⟩ := exists_of_mapOf hm
  have hms := Json.holds_obj.mp (namesDistinct_of_holds hv hw)
  intro item hitem op hop
  obtain ⟨m, hmem, hi⟩ := hitems item hitem
  obtain ⟨os, hos, hops⟩ := exists_of_mapOf hi
  have hobj := hms.2 m hmem
  rw [hos] at hobj
  obtain ⟨e, he, heo⟩ := hops op hop
  exact Operation.namesDistinct_of_check heo ((Json.holds_obj.mp hobj).2 e he)

/-- A document that is read from a text has distinct names. -/
theorem Document.namesDistinct_of_read {room : Nat} {t : Text} {v : Json} {d : Document}
    (ht : Json.read room t = .ok v) (h : Document.check v = .ok d) : d.NamesDistinct :=
  Document.namesDistinct_of_check h (Json.namesDistinct_of_read ht)

end RouteScribe
