import RouteScribe.Proofs.Json.Numerals
import RouteScribe.Proofs.Json.Reading

/-! # The indented form is strict JSON

A value in which every object names its members once and every number is finite is written as strict
JSON that stands for it, at any level of indentation (`denotes_render`).  Of a double precision
number in it this asks that its text is read back as the number (`Binary64.ReadsBack`). -/

namespace RouteScribe

/-- The text of a number in JSON is read as the number. -/
def Binary64.ReadsBack (x : Binary64) : Prop :=
  Json.readNumber (Text.ofChars (Json.realLayout.write x)) = .ok (.real x, [])

/-- The number is read back if it is a double precision number. -/
def Number.ReadsBack : Number → Prop
  | .integer _ => True
  | .real x => x.ReadsBack

namespace Json

/-! ### Numbers -/

theorem write_finite {x : Binary64} (hx : x.isFinite = true) :
    realLayout.write x = realLayout.finite x := by
  have hb : x.biased ≠ 2047 := by simpa [Binary64.isFinite] using hx
  simp [Binary64.Layout.write, Binary64.isNaN, Binary64.isInfinite, hb]

theorem numberText_numeral {n : Number} (hf : n.IsFinite) (hb : n.ReadsBack) :
    NumberText (Text.ofChars (numeral n)) n := by
  cases n with
  | integer n => exact numberText_integer n
  | real x =>
      obtain ⟨y, hy⟩ := numberText_finite realLayout x
      rw [← write_finite hf] at hy
      have hread := readNumber_append hy trivial ends_nil
      rw [List.append_nil] at hread
      rw [Number.ReadsBack, Binary64.ReadsBack, hread] at hb
      cases hb
      exact hy

/-! ### Strings -/

/-- What is written for one code point reads as this code point. -/
structure WritesOne (t : Text) (c : CodePoint) (p : Piece) : Prop where
  body : ∀ {u : Text} {ps : List Piece}, StringBody u ps → StringBody (t ++ u) (p :: ps)
  joins : ∀ ps : List Piece, joinPieces none (p :: ps) = c :: joinPieces none ps

theorem writesOne_short {e : CodePoint} {x : Char} (h : shortEscape? e = some x) :
    WritesOne [.scalar '\\', e] (.scalar x) (.plain (.scalar x)) :=
  ⟨fun hu => .short h hu, fun _ => rfl⟩

theorem hex4?_hexChar : ∀ n < 0x20, hex4? (hexChar (n / 4096 % 16)) (hexChar (n / 256 % 16))
    (hexChar (n / 16 % 16)) (hexChar (n % 16)) = some n := by
  decide

theorem writesOne_unit {c : Char} (hc : c.toNat < 0x20) :
    WritesOne (Text.ofChars (unitEscape c.toNat)) (.scalar c) (.unit c.toNat) := by
  refine ⟨fun hu => .unit (hex4?_hexChar c.toNat hc) hu, fun ps => ?_⟩
  have hhigh : isHigh c.toNat = false := by simp [isHigh]; omega
  have hcode : CodePoint.ofCode c.toNat = .scalar c := by
    rw [CodePoint.ofCode, dif_neg (by omega), Char.ofNat_toNat]
  simp [joinPieces, hhigh, hcode]

theorem writesOne_escaped (c : CodePoint) : ∃ p, WritesOne (escaped .minimal c) c p := by
  unfold escaped
  dsimp only
  -- seven characters have an escape of one letter
  iterate 7
    split
    · next h => exact ⟨_, by rw [h]; exact writesOne_short rfl⟩
  split
  · next h =>
      cases c with
      | scalar c => exact ⟨_, writesOne_unit h⟩
      | surrogate u =>
          simp only [CodePoint.code] at h
          omega
  · next hq hb _ _ _ _ _ hc =>
      exact ⟨.plain c, fun hu => .plain hq hb (Nat.not_lt.mp hc) hu, fun _ => rfl⟩

theorem stringText_quoted (s : Text) : StringText (quoted .minimal s) s := by
  obtain ⟨ps, hbody, hjoin⟩ : ∃ ps, StringBody (s.flatMap (escaped .minimal)) ps ∧
      joinPieces none ps = s := by
    induction s with
    | nil => exact ⟨[], .nil, rfl⟩
    | cons c s ih =>
        obtain ⟨ps, hbody, hjoin⟩ := ih
        obtain ⟨p, hp⟩ := writesOne_escaped c
        exact ⟨p :: ps, hp.body hbody, by rw [hp.joins, hjoin]⟩
  have h := StringText.mk hbody
  rwa [hjoin] at h

/-! ### Containers -/

theorem blank_newline (level : Nat) : Blank (newline level) := by
  intro c hc
  rcases List.mem_cons.mp hc with rfl | hc
  · rfl
  · rw [List.eq_of_mem_replicate hc]
    rfl

theorem blank_nil : Blank [] := fun _ h => nomatch h

section Containers

variable (inner outer : Nat)

theorem items_render {v : Json} {vs : List Json}
    (h : ∀ w ∈ v :: vs, Denotes (render .minimal inner w) w) :
    Items (newline inner ++ (render .minimal inner v ++
      (renderItems .minimal inner vs ++ newline outer))) (v :: vs) := by
  obtain ⟨hv, hvs⟩ := List.forall_mem_cons.mp h
  induction vs generalizing v with
  | nil => exact .one (.mk (blank_newline inner) hv (blank_newline outer))
  | cons w vs ih =>
      have hr := ih hvs (List.forall_mem_cons.mp hvs).1 (List.forall_mem_cons.mp hvs).2
      have hi := Items.cons (.mk (blank_newline inner) hv blank_nil) hr
      simpa [renderItems] using hi

theorem members_render {m : Text × Json} {ms : List (Text × Json)}
    (h : ∀ e ∈ m :: ms, Denotes (render .minimal inner e.2) e.2) :
    Members (newline inner ++ (quoted .minimal m.1 ++ (.scalar ':' :: .scalar ' ' ::
      (render .minimal inner m.2 ++ (renderMembers .minimal inner ms ++ newline outer)))))
      (m :: ms) := by
  have hspace : Blank [.scalar ' '] := by simp [Blank, isSpace]
  obtain ⟨hm, hms⟩ := List.forall_mem_cons.mp h
  induction ms generalizing m with
  | nil =>
      have hi := Item.mk hspace hm (blank_newline outer)
      exact .one (.mk (blank_newline inner) (stringText_quoted m.1) blank_nil hi)
  | cons e ms ih =>
      have hr := ih hms (List.forall_mem_cons.mp hms).1 (List.forall_mem_cons.mp hms).2
      have hi := Item.mk hspace hm blank_nil
      have h := Members.cons (.mk (blank_newline inner) (stringText_quoted m.1) blank_nil hi) hr
      simpa [renderMembers] using h

end Containers

/-- A regular value is written as strict JSON that stands for it. -/
theorem denotes_render {v : Json} (hv : v.Regular)
    (hb : v.Holds Number.ReadsBack fun _ => True) (level : Nat) :
    Denotes (render .minimal level v) v := by
  induction v using rec_mem generalizing level with
  | null => exact .null
  | bool b =>
      cases b with
      | true => exact .isTrue
      | false => exact .isFalse
  | num n => exact .num (numberText_numeral hv hb)
  | str s => exact .str (stringText_quoted s)
  | arr vs ih =>
      cases vs with
      | nil => exact .emptyArr blank_nil
      | cons v vs =>
          have hi := items_render (level + 1) level fun w hw =>
            ih w hw (holds_arr.mp hv w hw) (holds_arr.mp hb w hw) (level + 1)
          simpa [render] using Denotes.arr hi
  | obj ms ih =>
      cases ms with
      | nil => exact .emptyObj blank_nil
      | cons m ms =>
          have hm := members_render (level + 1) level fun e he =>
            ih e he ((holds_obj.mp hv).2 e he) ((holds_obj.mp hb).2 e he) (level + 1)
          simpa [render] using Denotes.obj hm (holds_obj.mp hv).1

end Json
end RouteScribe
