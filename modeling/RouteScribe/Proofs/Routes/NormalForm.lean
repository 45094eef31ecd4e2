import RouteScribe.Proofs.Routes.Discovery

/-! # The normal form of API paths

Whatever the text of a route file is, its API path is a slash and some names with one slash between
neighbours, and every one of them is a name that is kept when a path is read
(`exists_apiPath_eq`): none is empty, none is a single point, and no slash stands at the end.

The names of the directory have this form because a path is read before it is shown again.  Braces
for brackets do not disturb it: they change no slash and no point, so the pieces of the text are
changed one by one (`pieces_map`). -/

namespace RouteScribe

namespace Route

variable {s : List Char} {ns ms : List FileName}

/-! ### Brackets and braces -/

theorem bracedFrom_false_append (h : '[' ∉ s) (t : List Char) :
    bracedFrom false (s ++ t) = s ++ bracedFrom false t := by
  induction s with
  | nil => rfl
  | cons c s ih =>
      rw [List.mem_cons, not_or] at h
      rw [List.cons_append, bracedFrom, if_neg (by simp [Ne.symm h.1]), ih h.2]
      rfl

/-- The bracket that a brace may stand for. -/
def asBracket (c : Char) : Char := if c = '\x7b' then '[' else if c = '\x7d' then ']' else c

theorem asBracket_eq_iff {d : Char} (hd : d ∉ ['[', ']', '\x7b', '\x7d']) (c : Char) :
    asBracket c = d ↔ c = d := by
  simp only [List.mem_cons, List.not_mem_nil, or_false, not_or] at hd
  unfold asBracket
  split
  · next hc => exact ⟨fun h => absurd h.symm hd.1, fun h => absurd (h ▸ hc) hd.2.2.1⟩
  · split
    · next hc => exact ⟨fun h => absurd h.symm hd.2.1, fun h => absurd (h ▸ hc) hd.2.2.2⟩
    · exact Iff.rfl

/-- Nothing but brackets is changed. -/
theorem map_bracedFrom (inside : Bool) (s : List Char) :
    (bracedFrom inside s).map asBracket = s.map asBracket := by
  induction s generalizing inside with
  | nil => cases inside <;> rfl
  | cons c s ih =>
      cases inside with
      | true =>
          rw [bracedFrom]
          split
          · next hc => rw [List.map_cons, List.map_cons, ih, hc]; rfl
          · rw [List.map_cons, List.map_cons, ih]
      | false =>
          rw [bracedFrom]
          split
          · next hc =>
              rw [Bool.and_eq_true, decide_eq_true_eq] at hc
              rw [List.map_cons, List.map_cons, ih, hc.1]
              rfl
          · rw [List.map_cons, List.map_cons, ih]

/-- Names stay names where brackets become braces. -/
theorem exists_braced_joined (h : ∀ n ∈ ns, FileName.Proper n) :
    ∃ ms, (∀ m ∈ ms, FileName.Proper m) ∧ braced (joined ['/'] ns) = joined ['/'] ms := by
  rcases eq_or_ne ns [] with rfl | hne
  · exact ⟨[], nofun, rfl⟩
  · refine ⟨pieces '/' (braced (joined ['/'] ns)), ?_, (joined_pieces _ _).symm⟩
    have hslash : ∀ c, asBracket c = '/' ↔ c = '/' := asBracket_eq_iff (by decide)
    have hpieces : (pieces '/' (braced (joined ['/'] ns))).map (List.map asBracket) =
        ns.map (List.map asBracket) := by
      rw [← pieces_map hslash, braced, map_bracedFrom, pieces_map hslash,
        pieces_joined hne fun n hn => (h n hn).no_slash]
    intro m hm
    obtain ⟨n, hn, heq⟩ := List.mem_map.mp (hpieces ▸ List.mem_map_of_mem hm)
    refine ⟨?_, ?_, not_mem_of_mem_pieces hm⟩
    · rintro rfl
      exact (h n hn).ne_nil (List.map_eq_nil_iff.mp heq)
    · rintro rfl
      obtain ⟨c, cs, rfl⟩ := List.exists_cons_of_ne_nil (h n hn).ne_nil
      obtain ⟨hc, hcs⟩ := List.cons.inj heq
      have hpoint : c = '.' := (asBracket_eq_iff (by decide) c).mp hc
      refine (h _ hn).ne_point ?_
      rw [List.map_eq_nil_iff.mp hcs, hpoint]

/-! ### API paths -/

/-- The point is no name. -/
theorem joined_ne_point (h : ∀ n ∈ ns, FileName.Proper n) : joined ['/'] ns ≠ ['.'] := by
  intro heq
  have hnil : ns = [] := by
    rw [← Path.namesOf_joined h, heq]
    rfl
  rw [hnil] at heq
  cases heq

/-- Names that are joined begin and end with their own characters, which are no slashes. -/
theorem ends_joined (h : ∀ n ∈ ns, FileName.Proper n) (c : Char)
    (hc : c ∈ (joined ['/'] ns).head? ∨ c ∈ (joined ['/'] ns).getLast?) : c ≠ '/' := by
  obtain ⟨n, hn, hc⟩ := mem_of_mem_ends_joined (fun n hn => (h n hn).ne_nil) hc
  rintro rfl
  exact (h n hn).no_slash hc

/-- The slashes of the root are taken away, and one is put in front. -/
theorem apiPath_of_directory {a : Anchor} (hdir : directory s = a.shown ++ joined ['/'] ns)
    (hbraced : braced (joined ['/'] ns) = joined ['/'] ms) (h : ∀ m ∈ ms, FileName.Proper m) :
    apiPath s = '/' :: joined ['/'] ms := by
  have hroot : ∀ c ∈ a.shown, (c == '/') = true := by cases a <;> simp [Anchor.shown]
  have hbracket : '[' ∉ a.shown := fun hc => absurd (hroot _ hc) (by decide)
  have htrim := trimBy_append hroot (List.forall_mem_nil _)
    fun c hc => beq_false_of_ne (ends_joined h c hc)
  rw [List.append_nil, ← hbraced, braced, ← bracedFrom_false_append hbracket, ← hdir] at htrim
  have hpath : apiPath s =
      if '/' :: joined ['/'] ms = ['/', '.'] then ['/'] else '/' :: joined ['/'] ms := by
    rw [apiPath, braced, htrim, ← hbraced, braced]
  rw [hpath]
  exact if_neg fun heq => joined_ne_point h (List.cons.inj heq).2

/-- **The normal form.**  An API path is a slash and names with one slash between neighbours. -/
theorem exists_apiPath_eq (file : List Char) :
    ∃ ms, (∀ m ∈ ms, FileName.Proper m) ∧ apiPath file = '/' :: joined ['/'] ms := by
  have hnames : ∀ n ∈ (Path.ofChars (withSlashes file)).parent.names, FileName.Proper n :=
    fun n hn => Path.proper_of_mem_namesOf ((List.dropLast_sublist _).subset hn)
  obtain ⟨ms, hms, hbraced⟩ := exists_braced_joined hnames
  cases hdot : ((Path.ofChars (withSlashes file)).parent.anchor = .relative &&
      (Path.ofChars (withSlashes file)).parent.names.isEmpty) with
  | true =>
      refine ⟨[], nofun, ?_⟩
      have hdir : directory file = ['.'] := by rw [directory, Path.shown, if_pos hdot]
      rw [apiPath, hdir]
      rfl
  | false =>
      refine ⟨ms, hms, apiPath_of_directory (a := ?_) ?_ hbraced hms⟩
      · exact (Path.ofChars (withSlashes file)).parent.anchor
      · rw [directory, Path.shown, if_neg (by simp [hdot])]

end Route
end RouteScribe
