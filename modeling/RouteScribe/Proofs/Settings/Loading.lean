import RouteScribe.Proofs.Assoc
import RouteScribe.Proofs.Except
import RouteScribe.Settings.EnvFile

/-! # What the environment files add

A variable that is set keeps its value.  Every other one takes the value of the first file that
binds it to one, where the last binding in a file counts (`firstValue?`).  `Adds` says this of one
binding, of a file and of all files: what is added by one after the other is what the first of them
adds, and else the second (`Adds.comp`).  Loading fails exactly if a value that is to be added
cannot be one of the environment. -/

namespace RouteScribe
namespace EnvFile

/-- The environment can hold the value under the name. -/
def CanBind (name v : List Char) : Prop := '\x00' ∉ name ∧ '\x00' ∉ v ∧ '=' ∉ name

/-- The value that the last binding of a name in a text gives it. -/
def last? (s name : List Char) : Option (List Char) :=
  (Assoc.get? (bindings s).reverse name).join

/-- The value of a name in the first of the texts that binds it to one.  A text may be missing. -/
def firstValue? (texts : List (Option (List Char))) (name : List Char) : Option (List Char) :=
  texts.findSome? fun text => text.bind fun s => last? s name

/-- The outcome is the environment with the values of the names that are not set in it, and it is
reached exactly if it can hold them. -/
structure Adds (value? : List Char → Option (List Char)) (env : Environment)
    (outcome : Except LoadError Environment) : Prop where
  ok_iff : (∃ env', outcome = .ok env') ↔
    ∀ name v, env.get? name = none → value? name = some v → CanBind name v
  get? : ∀ env', outcome = .ok env' → ∀ name, env'.get? name = (env.get? name).or (value? name)

theorem adds_nothing (env : Environment) : Adds (fun _ => none) env (.ok env) where
  ok_iff := iff_of_true ⟨env, rfl⟩ nofun
  get? := by
    rintro _ ⟨⟩ name
    rw [Option.or_none]

/-- What is added later does not replace what has been added before. -/
theorem Adds.comp {f g : List Char → Option (List Char)} {env : Environment}
    {first both : Except LoadError Environment} (hf : Adds f env first)
    (hg : ∀ env', first = .ok env' → Adds g env' both)
    (hfirst : (∃ env', both = .ok env') → ∃ env', first = .ok env') :
    Adds (fun name => (f name).or (g name)) env both where
  ok_iff := by
    constructor
    · intro hboth name v hnone hv
      obtain ⟨env', hok⟩ := hfirst hboth
      cases hfn : f name with
      | some w =>
          simp only [hfn, Option.some_or, Option.some.injEq] at hv
          exact hv ▸ hf.ok_iff.mp ⟨env', hok⟩ name w hnone hfn
      | none =>
          simp only [hfn, Option.none_or] at hv
          have hnone' : env'.get? name = none := by
            rw [hf.get? env' hok, hnone, hfn]
            rfl
          exact (hg env' hok).ok_iff.mp hboth name v hnone' hv
    · intro h
      obtain ⟨env', hok⟩ := hf.ok_iff.mpr fun name v hnone hv =>
        h name v hnone (by rw [hv, Option.some_or])
      refine (hg env' hok).ok_iff.mpr fun name v hnone hv => ?_
      rw [hf.get? env' hok, Option.or_eq_none_iff] at hnone
      exact h name v hnone.1 (by rw [hnone.2, Option.none_or, hv])
  get? := by
    intro env'' hboth name
    obtain ⟨env', hok⟩ := hfirst ⟨env'', hboth⟩
    rw [(hg env' hok).get? env'' hboth, hf.get? env' hok, Option.or_assoc]

/-- The same for a computation that goes on behind another. -/
theorem Adds.bind {f g : List Char → Option (List Char)} {env : Environment}
    {first : Except LoadError Environment} {next : Environment → Except LoadError Environment}
    (hf : Adds f env first) (hg : ∀ env', first = .ok env' → Adds g env' (next env')) :
    Adds (fun name => (f name).or (g name)) env (first.bind next) := by
  refine hf.comp (fun env' hok => ?_) fun ⟨env', hboth⟩ => ?_
  · rw [hok]
    exact hg env' hok
  · obtain ⟨env', hok, -⟩ := bind_eq_ok_iff.mp hboth
    exact ⟨env', hok⟩

/-! ### One binding -/

/-- A value for a name that is not set is bound if the environment can hold it. -/
theorem bindNew_cases {env : Environment} {name : List Char} (hn : env.get? name = none)
    (v : List Char) : CanBind name v ∧ bindNew env name (some v) = .ok (env.bind name v) ∨
      ¬ CanBind name v ∧ ∃ e, bindNew env name (some v) = .error e := by
  by_cases hcan : CanBind name v
  · exact .inl ⟨hcan, by simp [bindNew, hn, hcan.1, hcan.2.1, hcan.2.2]⟩
  · refine .inr ⟨hcan, ?_⟩
    simp only [bindNew, hn]
    split
    · exact ⟨_, rfl⟩
    · next hnull =>
        split
        · exact ⟨_, rfl⟩
        · next hequals =>
            simp only [Bool.or_eq_true, List.contains_iff_mem, not_or] at hnull hequals
            exact absurd ⟨hnull.1, hnull.2, hequals⟩ hcan

theorem adds_bindNew (env : Environment) (name : List Char) (value : Option (List Char)) :
    Adds (fun n => if n = name then value else none) env (bindNew env name value) := by
  cases hn : env.get? name with
  | some w =>
      have hkeep : bindNew env name value = .ok env := by simp [bindNew, hn]
      rw [hkeep]
      refine ⟨iff_of_true ⟨env, rfl⟩ fun n v hnone hv => ?_, ?_⟩
      · obtain ⟨rfl, -⟩ := Option.ite_none_right_eq_some.mp hv
        cases hn.symm.trans hnone
      · rintro _ ⟨⟩ n
        by_cases heq : n = name
        · rw [heq, hn, Option.some_or]
        · rw [if_neg heq, Option.or_none]
  | none =>
      cases value with
      | none =>
          have hkeep : bindNew env name none = .ok env := by simp [bindNew]
          simpa [hkeep] using adds_nothing env
      | some v =>
          rcases bindNew_cases hn v with ⟨hcan, hbind⟩ | ⟨hcan, e, he⟩
          · rw [hbind]
            refine ⟨iff_of_true ⟨_, rfl⟩ fun n w _ hw => ?_, ?_⟩
            · obtain ⟨rfl, heq⟩ := Option.ite_none_right_eq_some.mp hw
              cases heq
              exact hcan
            · rintro _ ⟨⟩ n
              by_cases heq : n = name
              · rw [heq, hn, if_pos rfl]
                exact Assoc.get?_set_self env name v
              · rw [if_neg heq, Option.or_none]
                exact Assoc.get?_set_ne env v heq
          · rw [he]
            exact ⟨iff_of_false nofun fun h => hcan (h name v hn (if_pos rfl)), nofun⟩

/-- Bindings with different names are added one after the other. -/
theorem adds_foldlM {bs : List (List Char × Option (List Char))} (hn : (bs.map Prod.fst).Nodup)
    (env : Environment) : Adds (fun name => (Assoc.get? bs name).join) env
      (bs.foldlM (fun env (name, value) => bindNew env name value) env) := by
  induction bs generalizing env with
  | nil => exact adds_nothing env
  | cons b bs ih =>
      obtain ⟨name, value⟩ := b
      rw [List.map_cons, List.nodup_cons] at hn
      have hvalue : (fun n => (Assoc.get? ((name, value) :: bs) n).join) =
          fun n => (if n = name then value else none).or (Assoc.get? bs n).join := by
        funext n
        by_cases heq : name = n
        · subst heq
          have hnone : Assoc.get? bs name = none := by
            rw [Option.eq_none_iff_forall_ne_some]
            intro v hv
            exact hn.1 (List.mem_map.mpr ⟨(name, v), Assoc.mem_of_get? hv, rfl⟩)
          simp [Assoc.get?, hnone]
        · simp [Assoc.get?, heq, Ne.symm heq]
      rw [hvalue, List.foldlM_cons]
      exact (adds_bindNew env name value).bind fun env' _ => ih hn.2 env'

/-! ### One text -/

/-- A value without variables stands for itself. -/
theorem expandFrom_eq_self (meaning : Reference → List Char) {v : List Char}
    (h : referencesFrom 0 v = []) : expandFrom meaning 0 v = v := by
  induction v with
  | nil => rfl
  | cons c v ih =>
      rw [referencesFrom] at h
      split at h
      · cases h
      · next hnone =>
          rw [expandFrom, hnone]
          exact congrArg (c :: ·) (ih h)

/-- The values in the text hold no variables. -/
def Literal (s : List Char) : Prop := ∀ b ∈ bindings s, referencesFrom 0 (b.2.getD []) = []

instance (s : List Char) : Decidable (Literal s) :=
  inferInstanceAs (Decidable (∀ b ∈ bindings s, referencesFrom 0 (b.2.getD []) = []))

theorem expanded_eq_ofPairs (env : Environment) {s : List Char} (h : Literal s) :
    expanded env (bindings s) = Assoc.ofPairs (bindings s) := by
  unfold expanded Assoc.ofPairs
  refine List.foldl_ext _ _ _ fun values b hb => ?_
  obtain ⟨name, value⟩ := b
  cases value with
  | none => rfl
  | some v =>
      have hv : expandFrom (meaning env values) 0 v = v := expandFrom_eq_self _ (h _ hb)
      dsimp only [Option.map_some]
      rw [hv]

/-- A text adds its last bindings. -/
theorem adds_bindText (env : Environment) {s : List Char} (h : Literal s) :
    Adds (last? s) env (bindText env s) := by
  have hadds := adds_foldlM (Assoc.nodup_names_ofPairs (bindings s)) env
  rw [bindText, expanded_eq_ofPairs env h]
  simp only [Assoc.get?_ofPairs] at hadds
  exact hadds

/-! ### The files of a directory -/

/-- What the disk shows of a file: a text, or nothing where there is no file. -/
def Shows (d : Disk) (path : Path) : Option (List Char) → Prop
  | none => d.isFile path = .ok false
  | some s => d.isFile path = .ok true ∧ d.readText path = .ok s

/-- The texts hold no variables, and the loading is turned off nowhere. -/
structure Plain (env : Environment) (texts : List (Option (List Char))) : Prop where
  literal : ∀ s, some s ∈ texts → Literal s
  switch : env.get? switchName = none
  noSwitch : ∀ s, some s ∈ texts → last? s switchName = none

/-- The environment behind a loading that has not failed. -/
def outcome (r : Except LoadError Unit × Loaded) : Except LoadError Environment :=
  r.1.map fun _ => r.2.env

variable {d : Disk} {dir : Path} {text : Option (List Char)} {texts : List (Option (List Char))}

theorem adds_loadOne {l : Loaded} {name : List Char}
    (hshow : Shows d (dir.join (Path.ofChars name)) text) (hplain : Plain l.env (text :: texts)) :
    Adds (fun n => text.bind fun s => last? s n) l.env (outcome (loadOne d dir l name)) := by
  cases text with
  | none =>
      have hkeep : outcome (loadOne d dir l name) = .ok l.env := by
        simp [loadOne, show d.isFile _ = _ from hshow, outcome, Except.map]
      rw [hkeep]
      exact adds_nothing l.env
  | some s =>
      have hon : isOff l.env = false := by simp [isOff, hplain.switch]
      have hbind : outcome (loadOne d dir l name) = bindText l.env s := by
        simp only [loadOne, hshow.1, hon, hshow.2, Bool.false_eq_true, if_false]
        cases bindText l.env s <;> rfl
      rw [hbind]
      exact adds_bindText l.env (hplain.literal s List.mem_cons_self)

/-- The files add the first value of each name. -/
theorem adds_loadFrom {names : List (List Char)}
    (hshow : List.Forall₂ (fun name text => Shows d (dir.join (Path.ofChars name)) text) names
      texts) (l : Loaded) (hplain : Plain l.env texts) :
    Adds (firstValue? texts) l.env (outcome (loadFrom d dir names l)) := by
  induction hshow generalizing l with
  | nil => exact adds_nothing l.env
  | @cons name text names texts hhead _ ih =>
      have hone := adds_loadOne hhead hplain
      have hvalue : firstValue? (text :: texts) =
          fun n => (text.bind fun s => last? s n).or (firstValue? texts n) := by
        funext n
        rw [firstValue?, List.findSome?_cons]
        cases text.bind fun s => last? s n <;> rfl
      rw [hvalue, loadFrom]
      generalize loadOne d dir l name = r at hone
      obtain ⟨result, l'⟩ := r
      refine hone.comp ?_ ?_
      · intro env' hok
        cases result with
        | error e => cases hok
        | ok u =>
            cases hok
            refine ih l' ⟨fun s hs => hplain.literal s (List.mem_cons_of_mem _ hs), ?_,
              fun s hs => hplain.noSwitch s (List.mem_cons_of_mem _ hs)⟩
            rw [hone.get? l'.env rfl, hplain.switch, Option.none_or]
            cases text with
            | none => rfl
            | some s => exact hplain.noSwitch s List.mem_cons_self
      · cases result with
        | error e => exact fun h => h
        | ok u => exact fun _ => ⟨l'.env, rfl⟩

/-- The loading of the usual files fails exactly if the environment cannot hold the first value of a
name that is not set.  Otherwise a name that is set keeps its value, and every other one has its
first value. -/
theorem load_precedence {env : Environment}
    (hshow : List.Forall₂ (fun name text => Shows d (dir.join (Path.ofChars name)) text) usualNames
      texts) (hplain : Plain env texts) :
    ((load d dir env).1 = .ok () ↔
      ∀ name v, env.get? name = none → firstValue? texts name = some v → CanBind name v) ∧
    ((load d dir env).1 = .ok () → ∀ name,
      (load d dir env).2.env.get? name = (env.get? name).or (firstValue? texts name)) := by
  have hadds : Adds (firstValue? texts) env (outcome (load d dir env)) :=
    adds_loadFrom hshow { env } hplain
  generalize load d dir env = r at hadds
  obtain ⟨result, l⟩ := r
  cases result with
  | error e =>
      refine ⟨iff_of_false nofun fun h => ?_, nofun⟩
      obtain ⟨env', hok⟩ := hadds.ok_iff.mpr h
      cases hok
  | ok u => exact ⟨iff_of_true rfl (hadds.ok_iff.mp ⟨_, rfl⟩), fun _ => hadds.get? l.env rfl⟩

end EnvFile
end RouteScribe
