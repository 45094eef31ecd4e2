import Mathlib.Data.List.Basic
import RouteScribe.Json.Basic

/-! # What holds throughout a value

`Json.Holds P Q` says that every number of a value has `P` and that the names of every object in it
have `Q`, at every depth.  The depth of a value (`depthOfItems_le_iff`, `depthOfMembers_le_iff`) and
the search for long integers (`hasLongInteger_eq_false_iff`) are read in the same way: as statements
about all items and all members.  `Json.rec_mem` is the induction that goes with such statements. -/

namespace RouteScribe

/-- The number is no integer that is too long to be read or written. -/
def Number.IsShort : Number → Prop
  | .integer n => Binary64.digitCount n.natAbs ≤ Json.maxIntegerDigits
  | .real _ => True

/-- The number is no infinity and not a missing number. -/
def Number.IsFinite : Number → Prop
  | .integer _ => True
  | .real x => x.isFinite = true

namespace Json

/-- A property that passes from all items and from all members to their container holds of every
value. -/
@[elab_as_elim]
theorem rec_mem {motive : Json → Prop} (null : motive null) (bool : ∀ b, motive (bool b))
    (num : ∀ n, motive (num n)) (str : ∀ s, motive (str s))
    (arr : ∀ vs, (∀ v ∈ vs, motive v) → motive (arr vs))
    (obj : ∀ ms, (∀ m ∈ ms, motive m.2) → motive (obj ms)) : ∀ v, motive v :=
  @Json.rec motive (fun vs => ∀ v ∈ vs, motive v) (fun ms => ∀ m ∈ ms, motive m.2)
    (fun m => motive m.2) null bool num str arr obj (by simp)
    (fun _ _ hv hvs => List.forall_mem_cons.mpr ⟨hv, hvs⟩) (by simp)
    (fun _ _ hm hms => List.forall_mem_cons.mpr ⟨hm, hms⟩) (fun _ _ hv => hv)

/-! ### Numbers and names -/

mutual

/-- Every number of the value has `P`, and the names of every object in it have `Q`. -/
def Holds (P : Number → Prop) (Q : List Text → Prop) : Json → Prop
  | num n => P n
  | arr items => HoldsItems P Q items
  | obj members => Q (members.map Prod.fst) ∧ HoldsMembers P Q members
  | _ => True

/-- So it is in all items. -/
def HoldsItems (P : Number → Prop) (Q : List Text → Prop) : List Json → Prop
  | [] => True
  | v :: rest => v.Holds P Q ∧ HoldsItems P Q rest

/-- So it is in all members. -/
def HoldsMembers (P : Number → Prop) (Q : List Text → Prop) : List (Text × Json) → Prop
  | [] => True
  | (_, v) :: rest => v.Holds P Q ∧ HoldsMembers P Q rest

end

variable {P : Number → Prop} {Q : List Text → Prop} {vs : List Json} {ms : List (Text × Json)}

@[simp] theorem holds_null : null.Holds P Q := trivial
@[simp] theorem holds_bool (b : Bool) : (bool b).Holds P Q := trivial
@[simp] theorem holds_str (s : Text) : (str s).Holds P Q := trivial
@[simp] theorem holds_num {n : Number} : (num n).Holds P Q ↔ P n := .rfl

@[simp] theorem holds_arr : (arr vs).Holds P Q ↔ ∀ v ∈ vs, v.Holds P Q := by
  rw [Holds]
  induction vs with
  | nil => simp [HoldsItems]
  | cons v vs ih => simp [HoldsItems, ih]

@[simp] theorem holds_obj :
    (obj ms).Holds P Q ↔ Q (ms.map Prod.fst) ∧ ∀ m ∈ ms, m.2.Holds P Q := by
  have h : HoldsMembers P Q ms ↔ ∀ m ∈ ms, m.2.Holds P Q := by
    induction ms with
    | nil => simp [HoldsMembers]
    | cons m ms ih => rw [HoldsMembers, ih, List.forall_mem_cons]
  rw [Holds, h]

/-- No object in the value names a member twice. -/
def NamesDistinct (v : Json) : Prop := v.Holds (fun _ => True) List.Nodup

/-- All numbers are finite and no object names a member twice. -/
def Regular (v : Json) : Prop := v.Holds Number.IsFinite List.Nodup

/-! ### Depth and long integers -/

theorem depthOfItems_le_iff {n : Nat} : depthOfItems vs ≤ n ↔ ∀ v ∈ vs, v.depth ≤ n := by
  induction vs with
  | nil => simp [depthOfItems]
  | cons v vs ih => rw [depthOfItems, Nat.max_le, ih, List.forall_mem_cons]

theorem depthOfMembers_le_iff {n : Nat} : depthOfMembers ms ≤ n ↔ ∀ m ∈ ms, m.2.depth ≤ n := by
  induction ms with
  | nil => simp [depthOfMembers]
  | cons m ms ih => rw [depthOfMembers, Nat.max_le, ih, List.forall_mem_cons]

theorem anyLongInteger_eq_false_iff :
    anyLongInteger vs = false ↔ ∀ v ∈ vs, v.hasLongInteger = false := by
  induction vs with
  | nil => simp [anyLongInteger]
  | cons v vs ih => simp [anyLongInteger, ih]

theorem anyMemberLongInteger_eq_false_iff :
    anyMemberLongInteger ms = false ↔ ∀ m ∈ ms, m.2.hasLongInteger = false := by
  induction ms with
  | nil => simp [anyMemberLongInteger]
  | cons m ms ih => simp [anyMemberLongInteger, ih]

/-- The search for long integers finds none exactly if all are short. -/
theorem hasLongInteger_eq_false_iff (v : Json) :
    v.hasLongInteger = false ↔ v.Holds Number.IsShort fun _ => True := by
  induction v using rec_mem with
  | null => simp [hasLongInteger]
  | bool b => simp [hasLongInteger]
  | num n => cases n <;> simp [hasLongInteger, Number.IsShort]
  | str s => simp [hasLongInteger]
  | arr vs ih =>
      rw [hasLongInteger, anyLongInteger_eq_false_iff, holds_arr]
      exact forall₂_congr ih
  | obj ms ih =>
      rw [hasLongInteger, anyMemberLongInteger_eq_false_iff, holds_obj, true_and]
      exact forall₂_congr ih

end Json
end RouteScribe
