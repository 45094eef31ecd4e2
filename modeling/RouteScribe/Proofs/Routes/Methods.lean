import Mathlib.Data.List.Nodup
import RouteScribe.Proofs.Text.Case
import RouteScribe.Routes.Method

/-! # The methods of a source text as a list

`Method.le` is a total order, so sorting by it leaves no choice, and a source text gives each of its
methods once (`nodup_exportedMethods`).  A method is a name of letters in some case, so there are no
signs in it (`not_mem_upper_of_mem_exportedMethods`). -/

namespace RouteScribe
namespace Method

theorem le_antisymm {m n : Method} (h : le m n = true) (k : le n m = true) : m = n := by
  unfold le at h k
  by_cases he : m.rank = n.rank
  · simp only [he, if_true] at h k
    exact textLe_antisymm h k
  · simp only [he, Ne.symm he, if_false, decide_eq_true_eq] at h k
    omega

theorem le_total (m n : Method) : (le m n || le n m) = true := by
  unfold le
  by_cases he : m.rank = n.rank
  · simpa [he] using textLe_total m n
  · simp only [he, Ne.symm he, if_false, Bool.or_eq_true, decide_eq_true_eq]
    omega

theorem le_trans (m n o : Method) (h : le m n = true) (k : le n o = true) : le m o = true := by
  unfold le at h k ⊢
  by_cases hmn : m.rank = n.rank
  · by_cases hno : n.rank = o.rank
    · simp only [hmn, hno, if_true] at h k ⊢
      exact textLe_trans h k
    · simpa only [hmn, hno, if_false] using k
  · by_cases hno : n.rank = o.rank
    · simpa only [← hno, hmn, if_false] using h
    · simp only [hmn, hno, if_false, decide_eq_true_eq] at h k
      have hmo : m.rank ≠ o.rank := by omega
      simp only [hmo, if_false, decide_eq_true_eq]
      omega

end Method

theorem nodup_eraseDups {α : Type} [BEq α] [LawfulBEq α] (l : List α) : l.eraseDups.Nodup := by
  match l with
  | [] => simp
  | a :: l =>
      rw [List.eraseDups_cons, List.nodup_cons]
      have hlt : (l.filter fun b => !b == a).length < l.length + 1 :=
        Nat.lt_succ_of_le (List.length_filter_le _ l)
      exact ⟨by simp [List.mem_eraseDups], nodup_eraseDups _⟩
termination_by l.length

theorem nodup_exportedMethods (source : List Char) : (exportedMethods source).Nodup :=
  (List.mergeSort_perm _ _).nodup_iff.mpr (nodup_eraseDups _)

/-- What a text exports in order are its methods. -/
theorem exportedMethods_eq_of_perm {source : List Char} {ms : List Method}
    (hp : ((Source.exports source).map lower).eraseDups.Perm ms)
    (hs : ms.Pairwise fun m n => Method.le m n = true) : exportedMethods source = ms :=
  List.Perm.eq_of_pairwise (fun _ _ _ _ => Method.le_antisymm)
    (List.pairwise_mergeSort Method.le_trans Method.le_total _) hs
    ((List.mergeSort_perm _ _).trans hp)

/-! ### The names of methods -/

namespace Source

theorem sameLetter_of_word? {p s rest : List Char} (h : word? p s = some rest) :
    ∀ c ∈ s.take p.length, ∃ q ∈ p, sameLetter q c = true := by
  induction p generalizing s with
  | nil => simp
  | cons q p ih =>
      cases s with
      | nil => simp
      | cons d s =>
          rw [word?] at h
          split at h
          · next hq =>
              intro c hc
              rw [List.length_cons, List.take_succ_cons] at hc
              rcases List.mem_cons.mp hc with rfl | hc
              · exact ⟨q, List.mem_cons_self, hq⟩
              · obtain ⟨r, hr, hs⟩ := ih h c hc
                exact ⟨r, List.mem_cons_of_mem q hr, hs⟩
          · cases h

theorem exists_of_methodName? {s name rest : List Char} (h : methodName? s = some (name, rest)) :
    ∃ p ∈ methodNames, ∃ rest, word? p s = some rest ∧ name = s.take p.length := by
  obtain ⟨p, hp, h⟩ := List.exists_of_findSome?_eq_some h
  obtain ⟨r, hr, h⟩ := Option.bind_eq_some_iff.mp h
  split at h
  · cases h
    exact ⟨p, hp, rest, hr, rfl⟩
  · cases h

theorem exists_of_exportHere? {s name rest : List Char} (h : exportHere? s = some (name, rest)) :
    ∃ t, methodName? t = some (name, rest) := by
  unfold exportHere? at h
  obtain ⟨a, -, h⟩ := Option.bind_eq_some_iff.mp h
  obtain ⟨b, -, h⟩ := Option.bind_eq_some_iff.mp h
  obtain ⟨c, -, h⟩ := Option.bind_eq_some_iff.mp h
  obtain ⟨d, -, h⟩ := Option.bind_eq_some_iff.mp h
  exact ⟨d, h⟩

/-- An exported name was found as the name of a method. -/
theorem exists_of_mem_exportsFrom {skip : Nat} {s name : List Char} (h : name ∈ exportsFrom skip s) :
    ∃ t rest, methodName? t = some (name, rest) := by
  fun_induction exportsFrom skip s with
  | case1 => simp at h
  | case2 skip c rest ih => exact ih h
  | case3 c rest found behind he ih =>
      rcases List.mem_cons.mp h with rfl | h
      · obtain ⟨t, ht⟩ := exists_of_exportHere? he
        exact ⟨t, behind, ht⟩
      · exact ih h
  | case4 c rest he ih => exact ih h

end Source

/-- A sign that no letter of a method stands for is not in the names of methods. -/
theorem not_mem_upper_of_mem_exportedMethods {source : List Char} {m : Method} {c : Char}
    (h : m ∈ exportedMethods source) (hc : IsSign c)
    (hs : ∀ p ∈ Source.methodNames, p.all fun q => !sameLetter q c) : c ∉ upper m := by
  intro hm
  rw [exportedMethods, Method.sort, (List.mergeSort_perm _ _).mem_iff, List.mem_eraseDups] at h
  obtain ⟨name, hn, rfl⟩ := List.mem_map.mp h
  obtain ⟨t, rest, ht⟩ := Source.exists_of_mem_exportsFrom hn
  obtain ⟨p, hp, rest, hw, rfl⟩ := Source.exists_of_methodName? ht
  have hmem := mem_of_mem_lower hc (mem_of_mem_upper hc hm)
  obtain ⟨q, hq, hsame⟩ := Source.sameLetter_of_word? hw c hmem
  have hother := List.all_eq_true.mp (hs p hp) q hq
  rw [hsame] at hother
  cases hother

end RouteScribe
