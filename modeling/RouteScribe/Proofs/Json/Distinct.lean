import RouteScribe.Json.Reader
import RouteScribe.Proofs.Assoc
import RouteScribe.Proofs.Except
import RouteScribe.Proofs.Json.Value

/-! # What is read names no member twice

Where a name is repeated in a text, the reader keeps one member.  So in a value that is read no
object names a member twice (`namesDistinct_of_read`), and everything that is built from parts of
such a value may rely on it. -/

namespace RouteScribe
namespace Json

theorem namesDistinct_readName? {s r : Text} {v : Json} (h : readName? s = some (v, r)) :
    v.NamesDistinct := by
  obtain ⟨⟨w, x⟩, hmem, hx⟩ := List.exists_of_findSome?_eq_some h
  obtain ⟨rest, -, hv⟩ := Option.map_eq_some_iff.mp hx
  cases hv
  simp only [names, List.mem_cons, List.not_mem_nil, or_false, Prod.mk.injEq] at hmem
  rcases hmem with ⟨-, rfl⟩ | ⟨-, rfl⟩ | ⟨-, rfl⟩ | ⟨-, rfl⟩ | ⟨-, rfl⟩ | ⟨-, rfl⟩ <;> trivial

/-- What is read in `n` steps of the recursion names no member twice, whatever room there is. -/
structure ReadsDistinct (n : Nat) : Prop where
  value : ∀ {room : Nat} {s r : Text} {v : Json}, readValue room n s = .ok (v, r) →
    v.NamesDistinct
  items : ∀ {room : Nat} {s r : Text} {vs : List Json}, readItems room n s = .ok (vs, r) →
    ∀ v ∈ vs, v.NamesDistinct
  members : ∀ {room : Nat} {s r : Text} {ms : List (Text × Json)},
    readMembers room n s = .ok (ms, r) → ∀ m ∈ ms, m.2.NamesDistinct

section Step

variable {room n : Nat} (ih : ReadsDistinct n) {s r : Text}
include ih

theorem ReadsDistinct.succ_value {v : Json} (h : readValue room (n + 1) s = .ok (v, r)) :
    v.NamesDistinct := by
  cases s with
  | nil => cases h
  | cons c rest =>
      unfold readValue at h
      -- the first code point tells a text, a list, an object, a name and a number apart
      split at h
      · obtain ⟨x, -, hv⟩ := map_eq_ok_iff.mp h
        cases hv
        trivial
      split at h
      · cases room with
        | zero => cases h
        | succ room =>
        dsimp only at h
        split at h
        · split at h
          · cases h
            exact holds_arr.mpr (List.forall_mem_nil _)
          · obtain ⟨x, hx, hv⟩ := map_eq_ok_iff.mp h
            cases hv
            exact holds_arr.mpr (ih.items hx)
        · cases h
      split at h
      · cases room with
        | zero => cases h
        | succ room =>
        dsimp only at h
        split at h
        · split at h
          · cases h
            exact holds_obj.mpr ⟨List.nodup_nil, List.forall_mem_nil _⟩
          · obtain ⟨x, hx, hv⟩ := map_eq_ok_iff.mp h
            cases hv
            -- the members have been merged by name, whatever their names were
            refine holds_obj.mpr ⟨Assoc.nodup_names_ofPairs _, fun m hm => ?_⟩
            exact ih.members hx m (Assoc.mem_of_mem_ofPairs hm)
        · cases h
      split at h
      · next hname =>
          cases h
          exact namesDistinct_readName? hname
      · obtain ⟨x, -, hv⟩ := map_eq_ok_iff.mp h
        cases hv
        trivial

theorem ReadsDistinct.succ_items {vs : List Json} (h : readItems room (n + 1) s = .ok (vs, r)) :
    ∀ v ∈ vs, v.NamesDistinct := by
  unfold readItems at h
  obtain ⟨⟨v, r⟩, hv, h⟩ := bind_eq_ok_iff.mp h
  dsimp only at h
  split at h
  · split at h
    · cases h
      exact List.forall_mem_singleton.mpr (ih.value hv)
    · split at h
      · obtain ⟨⟨vs, r⟩, hvs, h⟩ := bind_eq_ok_iff.mp h
        cases h
        exact List.forall_mem_cons.mpr ⟨ih.value hv, ih.items hvs⟩
      · cases h
  · cases h

theorem ReadsDistinct.succ_members {ms : List (Text × Json)}
    (h : readMembers room (n + 1) s = .ok (ms, r)) : ∀ m ∈ ms, m.2.NamesDistinct := by
  cases s with
  | nil => cases h
  | cons q s =>
      unfold readMembers at h
      split at h
      · cases h
      obtain ⟨⟨k, r⟩, -, h⟩ := bind_eq_ok_iff.mp h
      dsimp only at h
      split at h
      · split at h
        · cases h
        obtain ⟨⟨v, r⟩, hv, h⟩ := bind_eq_ok_iff.mp h
        dsimp only at h
        split at h
        · split at h
          · cases h
            exact List.forall_mem_singleton.mpr (ih.value hv)
          · split at h
            · obtain ⟨⟨vs, r⟩, hvs, h⟩ := bind_eq_ok_iff.mp h
              cases h
              exact List.forall_mem_cons.mpr ⟨ih.value hv, ih.members hvs⟩
            · cases h
        · cases h
      · cases h

end Step

theorem readsDistinct (n : Nat) : ReadsDistinct n := by
  induction n with
  | zero => exact ⟨nofun, nofun, nofun⟩
  | succ n ih => exact ⟨ih.succ_value, ih.succ_items, ih.succ_members⟩

/-- No object in a value that is read names a member twice. -/
theorem namesDistinct_of_read {room : Nat} {t : Text} {v : Json} (h : read room t = .ok v) :
    v.NamesDistinct := by
  unfold read at h
  split at h
  · cases h
  obtain ⟨⟨w, r⟩, hw, h⟩ := bind_eq_ok_iff.mp h
  dsimp only at h
  split at h
  · cases h
    exact (readsDistinct _).value hw
  · cases h

end Json
end RouteScribe
