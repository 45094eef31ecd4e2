import RouteScribe.Proofs.Files.Reading
import RouteScribe.Proofs.Files.Tree
import RouteScribe.Routes.Discovery

/-! # What a search gets through

A search looks at every directory of a tree, and at every entry whose name begins like that of a
route file.  It gets through the tree exactly if no path that it looks at is too long and no
directory lies too deep (`searchFault?_eq_none_iff`); otherwise it ends at one of these
(`ends_searchFault?`).  The induction is on the tree and, inside of a directory, on its entries: what
is looked at below a directory is the directory itself, its entries, and what is looked at below
these (`isLookedAt_cons_iff`). -/

namespace RouteScribe
namespace Path

variable {p : Path}

theorem below_nil (p : Path) : p.below [] = p := by simp [below]

theorem below_below (p : Path) (ns ms : List FileName) :
    (p.below ns).below ms = p.below (ns ++ ms) := by simp [below]

theorem NulFree.below (h : p.NulFree) {n : FileName} (hn : n.Legal) : (p.below [n]).NulFree := by
  intro m hm
  rcases List.mem_append.mp hm with hm | hm
  · exact h m hm
  · exact List.mem_singleton.mp hm ▸ hn.no_null

end Path

namespace Route

open FileTree (EntriesWellFormed)

variable {t : FileTree} {es : List (FileName × FileTree)} {n : FileName} {ns : List FileName}
  {p : Path} {room : Nat}

/-- The names lead to something that a search looks at: a directory, or what bears a name that begins
like that of a route file. -/
def IsLookedAt (t : FileTree) (ns : List FileName) : Prop :=
  ∃ u, t.get? ns = some u ∧ (u.isDirectory = true ∨ ∃ n, ns.getLast? = some n ∧ front <+: n)

/-- A search from a path gets through the tree, where so many directories can lie in each other. -/
structure Searchable (room : Nat) (p : Path) (t : FileTree) : Prop where
  shallow : ∀ ns es, t.get? ns = some (.directory es) → ns.length < room
  short : ∀ ns, IsLookedAt t ns → (p.below ns).Short

/-- What is known when a search has ended: either that it got through, or what it has met. -/
def Ends (room : Nat) (p : Path) (t : FileTree) : Option SearchFault → Prop
  | none => Searchable room p t
  | some (.refused fault) =>
    ∃ ns, IsLookedAt t ns ∧ ¬ (p.below ns).Short ∧ fault = ⟨.nameTooLong, p.below ns⟩
  | some .tooDeep => ∃ ns es, t.get? ns = some (.directory es) ∧ room ≤ ns.length

/-! ### What lies below a directory -/

theorem get?_cons_iff (hn : (es.map Prod.fst).Nodup) {u : FileTree} :
    (FileTree.directory es).get? (n :: ns) = some u ↔ ∃ t, (n, t) ∈ es ∧ t.get? ns = some u := by
  rw [FileTree.get?]
  constructor
  · intro h
    split at h
    · next t ht => exact ⟨t, Assoc.mem_of_get? ht, h⟩
    · cases h
  · rintro ⟨t, ht, hu⟩
    rw [Assoc.get?_of_mem hn ht]
    exact hu

theorem isLookedAt_nil (es : List (FileName × FileTree)) : IsLookedAt (.directory es) [] :=
  ⟨_, rfl, .inl rfl⟩

theorem isLookedAt_cons_iff (hn : (es.map Prod.fst).Nodup) :
    IsLookedAt (.directory es) (n :: ns) ↔
      ∃ t, (n, t) ∈ es ∧ (IsLookedAt t ns ∨ ns = [] ∧ front <+: n) := by
  unfold IsLookedAt
  simp only [get?_cons_iff hn]
  cases ns with
  | nil =>
      constructor
      · rintro ⟨u, ⟨t, ht, hu⟩, hdir | ⟨m, hm, hfront⟩⟩
        · exact ⟨t, ht, .inl ⟨u, hu, .inl hdir⟩⟩
        · cases hm
          exact ⟨t, ht, .inr ⟨rfl, hfront⟩⟩
      · rintro ⟨t, ht, ⟨u, hu, hdir | ⟨m, hm, -⟩⟩ | ⟨-, hfront⟩⟩
        · exact ⟨u, ⟨t, ht, hu⟩, .inl hdir⟩
        · cases hm
        · exact ⟨t, ⟨t, ht, rfl⟩, .inr ⟨n, rfl, hfront⟩⟩
  | cons m ns =>
      rw [List.getLast?_cons_cons]
      constructor
      · rintro ⟨u, ⟨t, ht, hu⟩, h⟩
        exact ⟨t, ht, .inl ⟨u, hu, h⟩⟩
      · rintro ⟨t, ht, ⟨u, hu, h⟩ | ⟨hnil, -⟩⟩
        · exact ⟨u, ⟨t, ht, hu⟩, h⟩
        · cases hnil

theorem searchable_directory (hn : (es.map Prod.fst).Nodup) (hp : p.Short)
    (hfront : ∀ e ∈ es, front <+: e.1 → (p.below [e.1]).Short)
    (hes : ∀ e ∈ es, Searchable room (p.below [e.1]) e.2) :
    Searchable (room + 1) p (.directory es) := by
  constructor
  · intro ns es' hns
    cases ns with
    | nil => exact Nat.succ_pos room
    | cons n ns =>
        obtain ⟨t, ht, hget⟩ := (get?_cons_iff hn).mp hns
        exact Nat.succ_lt_succ ((hes (n, t) ht).shallow ns es' hget)
  · intro ns hns
    cases ns with
    | nil => exact (Path.below_nil p).symm ▸ hp
    | cons n ns =>
        obtain ⟨t, ht, hlooked | ⟨rfl, hn⟩⟩ := (isLookedAt_cons_iff hn).mp hns
        · have hshort := (hes (n, t) ht).short ns hlooked
          rwa [Path.below_below] at hshort
        · exact hfront (n, t) ht hn

/-- What ends the search of an entry ends that of the directory. -/
theorem Ends.of_entry (hn : (es.map Prod.fst).Nodup) (ht : (n, t) ∈ es) {fault : SearchFault}
    (h : Ends room (p.below [n]) t (some fault)) :
    Ends (room + 1) p (.directory es) (some fault) := by
  cases fault with
  | refused fault =>
      obtain ⟨ns, hlooked, hlong, rfl⟩ := h
      rw [Path.below_below] at hlong ⊢
      exact ⟨n :: ns, (isLookedAt_cons_iff hn).mpr ⟨t, ht, .inl hlooked⟩, hlong, rfl⟩
  | tooDeep =>
      obtain ⟨ns, es', hget, hroom⟩ := h
      exact ⟨n :: ns, es', (get?_cons_iff hn).mpr ⟨t, ht, hget⟩, Nat.succ_le_succ hroom⟩

/-! ### The search -/

/-- An entry is refused if its name begins like that of a route file and its path is too long. -/
theorem entryFault?_cases (hp : p.NulFree) (hn : n.Legal) :
    entryFault? p n = none ∧ (front <+: n → (p.below [n]).Short) ∨
      entryFault? p n = some (.refused ⟨.nameTooLong, p.below [n]⟩) ∧ front <+: n ∧
        ¬ (p.below [n]).Short := by
  unfold entryFault?
  by_cases hfront : front <+: n
  · rw [if_pos (List.isPrefixOf_iff_prefix.mpr hfront)]
    rcases (hp.below hn).fault?_cases with ⟨hf, hshort⟩ | ⟨hf, hlong⟩
    · exact .inl ⟨by rw [hf]; rfl, fun _ => hshort⟩
    · exact .inr ⟨by rw [hf]; rfl, hfront, hlong⟩
  · rw [if_neg (mt List.isPrefixOf_iff_prefix.mp hfront)]
    exact .inl ⟨rfl, fun h => absurd h hfront⟩

/-- The entries of a directory are refused nowhere, or the first that is refused ends the search. -/
theorem entryFaults_cases (room : Nat) (ht : (FileTree.directory es).WellFormed) (hp : p.NulFree) :
    (es.findSome? fun e => entryFault? p e.1) = none ∧
      (∀ e ∈ es, front <+: e.1 → (p.below [e.1]).Short) ∨
    ∃ fault, (es.findSome? fun e => entryFault? p e.1) = some fault ∧
      Ends room p (.directory es) (some fault) := by
  cases hf : es.findSome? fun e => entryFault? p e.1 with
  | none =>
      refine .inl ⟨rfl, fun e he => ?_⟩
      have hentry := List.findSome?_eq_none_iff.mp hf e he
      rcases entryFault?_cases hp (ht.2.of_mem he).1 with ⟨-, h⟩ | ⟨hsome, -⟩
      · exact h
      · rw [hsome] at hentry
        cases hentry
  | some fault =>
      obtain ⟨e, he, hentry⟩ := List.exists_of_findSome?_eq_some hf
      rcases entryFault?_cases hp (ht.2.of_mem he).1 with ⟨hnone, -⟩ | ⟨hsome, hfront, hlong⟩
      · rw [hnone] at hentry
        cases hentry
      · rw [hsome] at hentry
        cases hentry
        have hlooked : IsLookedAt (.directory es) [e.1] :=
          (isLookedAt_cons_iff ht.1).mpr ⟨e.2, he, .inr ⟨rfl, hfront⟩⟩
        exact .inr ⟨_, rfl, [e.1], hlooked, hlong, rfl⟩

theorem searchable_file (room : Nat) (p : Path) (bytes : List UInt8) :
    Searchable room p (.file bytes) := by
  constructor
  · intro ns es h
    cases ns <;> cases h
  · rintro ns ⟨u, hu, h⟩
    cases ns with
    | nil =>
        cases hu
        rcases h with h | ⟨n, hn, -⟩
        · cases h
        · cases hn
    | cons n ns => cases hu

mutual

/-- A search gets through a tree, or it meets something that it cannot get past. -/
theorem ends_searchFault? : ∀ (room : Nat) (p : Path) (t : FileTree), t.WellFormed → p.NulFree →
    Ends room p t (searchFault? room p t)
  | room, p, .file bytes, _, _ => searchable_file room p bytes
  | room, p, .directory es, ht, hp => by
      unfold searchFault?
      rcases hp.fault?_cases with ⟨hf, hshort⟩ | ⟨hf, hlong⟩
      · rw [hf]
        dsimp only
        rcases entryFaults_cases room ht hp with ⟨hnone, hfront⟩ | ⟨fault, hsome, hends⟩
        · rw [hnone]
          cases room with
          | zero => exact ⟨[], es, rfl, Nat.le_refl 0⟩
          | succ room =>
              dsimp only
              have hes := ends_searchFaultIn? room p es ht.2 hp
              cases hin : searchFaultIn? room p es with
              | none => exact searchable_directory ht.1 hshort hfront (hes.1 hin)
              | some fault =>
                  obtain ⟨e, he, hend⟩ := hes.2 fault hin
                  exact hend.of_entry ht.1 he
        · rw [hsome]
          exact hends
      · rw [hf]
        refine ⟨[], isLookedAt_nil es, ?_, ?_⟩
        · rwa [Path.below_nil]
        · rw [Path.below_nil]

/-- A search gets through all entries of a directory, or one of them ends it. -/
theorem ends_searchFaultIn? : ∀ (room : Nat) (p : Path) (es : List (FileName × FileTree)),
    EntriesWellFormed es → p.NulFree →
    (searchFaultIn? room p es = none → ∀ e ∈ es, Searchable room (p.below [e.1]) e.2) ∧
      ∀ fault, searchFaultIn? room p es = some fault →
        ∃ e ∈ es, Ends room (p.below [e.1]) e.2 (some fault)
  | room, p, [], _, _ => ⟨fun _ => nofun, nofun⟩
  | room, p, (n, t) :: es, hes, hp => by
      have ht := ends_searchFault? room (p.below [n]) t hes.2.1 (hp.below hes.1)
      have hrest := ends_searchFaultIn? room p es hes.2.2 hp
      rw [searchFaultIn?]
      cases hs : searchFault? room (p.below [n]) t with
      | none =>
          rw [hs] at ht
          refine ⟨fun h => List.forall_mem_cons.mpr ⟨ht, hrest.1 h⟩, fun fault h => ?_⟩
          obtain ⟨e, he, hend⟩ := hrest.2 fault h
          exact ⟨e, List.mem_cons_of_mem _ he, hend⟩
      | some fault =>
          rw [hs] at ht
          refine ⟨nofun, ?_⟩
          rintro _ ⟨⟩
          exact ⟨(n, t), List.mem_cons_self, ht⟩

end

/-- What a search meets is in the way of getting through. -/
theorem Ends.not_searchable {fault : SearchFault} (h : Ends room p t (some fault)) :
    ¬ Searchable room p t := by
  intro hs
  cases fault with
  | refused fault =>
      obtain ⟨ns, hlooked, hlong, -⟩ := h
      exact hlong (hs.short ns hlooked)
  | tooDeep =>
      obtain ⟨ns, es, hget, hroom⟩ := h
      exact Nat.not_lt.mpr hroom (hs.shallow ns es hget)

theorem searchFault?_eq_none_iff (ht : t.WellFormed) (hp : p.NulFree) :
    searchFault? room p t = none ↔ Searchable room p t := by
  have hends := ends_searchFault? room p t ht hp
  cases hs : searchFault? room p t with
  | none =>
      rw [hs] at hends
      exact iff_of_true rfl hends
  | some fault =>
      rw [hs] at hends
      exact iff_of_false nofun hends.not_searchable

end Route
end RouteScribe
