import RouteScribe.Settings.Servers
import RouteScribe.Proofs.Text.Split
import RouteScribe.Proofs.Text.Trim

/-! # Which servers a line lists

`Server.Lists` says what a line lists, apart from any search: items with commas between them, each
an address, or an address and a description with a bar between them, with blanks around both; items
without an address count for nothing.  A line is read as exactly what it lists
(`Server.ofLine_eq_iff`), so writing down servers and reading them gives the servers again, and a
line is refused exactly if all its items are without an address (`Server.read_lists`). -/

namespace RouteScribe

/-! ### Cutting at the first separator -/

section cut

variable {α : Type} [DecidableEq α] {sep : α} {s : List α}

theorem cutAt_of_not_mem (h : sep ∉ s) : cutAt sep s = (s, none) := by
  induction s with
  | nil => rfl
  | cons c s ih =>
      rw [List.mem_cons, not_or] at h
      rw [cutAt, if_neg (Ne.symm h.1), ih h.2]

theorem cutAt_append (h : sep ∉ s) (rest : List α) :
    cutAt sep (s ++ sep :: rest) = (s, some rest) := by
  induction s with
  | nil => simp [cutAt]
  | cons c s ih =>
      rw [List.mem_cons, not_or] at h
      rw [List.cons_append, cutAt, if_neg (Ne.symm h.1), ih h.2]

/-- A list without the separator, and a list with it. -/
theorem cutAt_cases (sep : α) (s : List α) :
    sep ∉ s ∨ ∃ front rest, sep ∉ front ∧ s = front ++ sep :: rest := by
  by_cases h : sep ∈ s
  · obtain ⟨front, rest, hs, hfront⟩ := List.eq_append_cons_of_mem h
    exact .inr ⟨front, rest, hfront, hs⟩
  · exact .inl h

end cut

namespace Server

/-! ### What a line lists -/

/-- Blanks only. -/
def Blanks (s : List Char) : Prop := ∀ c ∈ s, isBlank c = true

/-- The text is there, and there are no blanks at its ends. -/
structure Trimmed (s : List Char) : Prop where
  ne_nil : s ≠ []
  trim : trim s = s

/-- The address of a server as it is written. -/
structure IsUrl (s : List Char) : Prop extends Trimmed s where
  comma : ',' ∉ s
  bar : '|' ∉ s

/-- The description of a server as it is written.  It may hold bars. -/
structure IsDescription (s : List Char) : Prop extends Trimmed s where
  comma : ',' ∉ s

/-- A text with blanks around it. -/
inductive Around (t : List Char) : List Char → Prop
  | intro {a b : List Char} (ha : Blanks a) (hb : Blanks b) : Around t (a ++ (t ++ b))

/-- What an item of a line lists. -/
inductive Item : List Char → Option Server → Prop
  | bare {s url : List Char} (hs : Around url s) (hu : IsUrl url) :
      Item s (some ⟨Text.ofChars url, none⟩)
  | undescribed {s url d : List Char} (hs : Around url s) (hu : IsUrl url) (hd : Blanks d) :
      Item (s ++ '|' :: d) (some ⟨Text.ofChars url, none⟩)
  | described {s url d description : List Char} (hs : Around url s) (hu : IsUrl url)
      (hd : Around description d) (ht : IsDescription description) :
      Item (s ++ '|' :: d) (some ⟨Text.ofChars url, some (Text.ofChars description)⟩)
  | idle {s : List Char} (hs : Blanks s) : Item s none
  | idleBar {s rest : List Char} (hs : Blanks s) (hr : ',' ∉ rest) : Item (s ++ '|' :: rest) none

/-- The line lists these servers: it is a row of items, each given here with what it lists. -/
def Lists (line : List Char) (servers : List Server) : Prop :=
  ∃ items : List (List Char × Option Server), (∀ i ∈ items, Item i.1 i.2) ∧
    line = joined [','] (items.map Prod.fst) ∧ servers = items.filterMap Prod.snd

/-- A server that can be written down. -/
structure Plain (s : Server) : Prop where
  url : ∃ u, s.url = Text.ofChars u ∧ IsUrl u
  description : ∀ t ∈ s.description, ∃ d, t = Text.ofChars d ∧ IsDescription d

/-! ### Items -/

variable {s t item : List Char}

theorem Blanks.not_mem (h : Blanks s) {c : Char} (hc : isBlank c = false) : c ∉ s := by
  intro hm
  rw [h c hm] at hc
  cases hc

theorem Around.not_mem (h : Around t s) {c : Char} (hc : isBlank c = false) (ht : c ∉ t) :
    c ∉ s := by
  obtain ⟨ha, hb⟩ := h
  simp only [List.mem_append, not_or]
  exact ⟨ha.not_mem hc, ht, hb.not_mem hc⟩

theorem Around.trim_eq (h : Around t s) (ht : Trimmed t) : trim s = t := by
  obtain ⟨ha, hb⟩ := h
  exact trimBy_around ha hb ht.trim

theorem blanks_iff : Blanks s ↔ trim s = [] := trimBy_eq_nil_iff.symm

/-- A text is blank, or there is a trimmed text with blanks around it. -/
theorem blanks_or_around (s : List Char) : Blanks s ∨ Trimmed (trim s) ∧ Around (trim s) s := by
  by_cases h : trim s = []
  · exact .inl (blanks_iff.mpr h)
  · obtain ⟨a, b, ha, hb, hs⟩ := exists_trimBy isBlank s
    have haround := Around.intro (t := trim s) ha hb
    rw [trim, ← hs] at haround
    exact .inr ⟨⟨h, trimBy_trimBy isBlank s⟩, haround⟩

/-- A description, unless it is empty. -/
def described (d : List Char) : Option Text := if d.isEmpty then none else some (Text.ofChars d)

/-- The server of an item from its two parts. -/
theorem ofItem?_eq {d : Option (List Char)} (h : cutAt '|' item = (s, d)) :
    ofItem? item =
      if trim s = [] then none
      else some ⟨Text.ofChars (trim s), described (trim (d.getD []))⟩ := by
  unfold ofItem?
  rw [h]
  dsimp only
  split
  · next ht => rw [if_pos ht]
  · next ht => rw [if_neg ht]; rfl

theorem described_of_blanks (h : Blanks s) : described (trim s) = none := by
  rw [blanks_iff.mp h]
  rfl

theorem described_of_trimmed (h : Trimmed s) : described s = some (Text.ofChars s) := by
  rw [described, if_neg (by simpa using h.ne_nil)]

theorem blanks_nil : Blanks [] := List.forall_mem_nil _

theorem Around.mem (h : Around t s) {c : Char} (hc : c ∈ t) : c ∈ s := by
  obtain ⟨-, -⟩ := h
  exact List.mem_append_right _ (List.mem_append_left _ hc)

/-- What stands in an item is what is read from it. -/
theorem Item.ofItem?_eq {m : Option Server} (h : Item item m) : ofItem? item = m := by
  have hbar : isBlank '|' = false := by decide
  cases h with
  | bare hs hu =>
      rw [Server.ofItem?_eq (cutAt_of_not_mem (hs.not_mem hbar hu.bar)), hs.trim_eq hu.toTrimmed,
        if_neg hu.ne_nil, Option.getD_none, described_of_blanks blanks_nil]
  | undescribed hs hu hd =>
      rw [Server.ofItem?_eq (cutAt_append (hs.not_mem hbar hu.bar) _), hs.trim_eq hu.toTrimmed,
        if_neg hu.ne_nil, Option.getD_some, described_of_blanks hd]
  | described hs hu hd ht =>
      rw [Server.ofItem?_eq (cutAt_append (hs.not_mem hbar hu.bar) _), hs.trim_eq hu.toTrimmed,
        if_neg hu.ne_nil, Option.getD_some, hd.trim_eq ht.toTrimmed,
        described_of_trimmed ht.toTrimmed]
  | idle hs =>
      rw [Server.ofItem?_eq (cutAt_of_not_mem (hs.not_mem hbar)), if_pos (blanks_iff.mp hs)]
  | idleBar hs hr =>
      rw [Server.ofItem?_eq (cutAt_append (hs.not_mem hbar) _), if_pos (blanks_iff.mp hs)]

theorem Item.no_comma {m : Option Server} (h : Item item m) : ',' ∉ item := by
  have hcomma : isBlank ',' = false := by decide
  have hsides {s d : List Char} (hs : ',' ∉ s) (hd : ',' ∉ d) : ',' ∉ s ++ '|' :: d := by
    simp only [List.mem_append, List.mem_cons, not_or]
    exact ⟨hs, by decide, hd⟩
  cases h with
  | bare hs hu => exact hs.not_mem hcomma hu.comma
  | undescribed hs hu hd => exact hsides (hs.not_mem hcomma hu.comma) (hd.not_mem hcomma)
  | described hs hu hd ht =>
      exact hsides (hs.not_mem hcomma hu.comma) (hd.not_mem hcomma ht.comma)
  | idle hs => exact hs.not_mem hcomma
  | idleBar hs hr => exact hsides (hs.not_mem hcomma) hr

/-- Every text without a comma is an item. -/
theorem item_ofItem? (h : ',' ∉ item) : Item item (ofItem? item) := by
  rcases cutAt_cases '|' item with hbar | ⟨s, d, hbar, rfl⟩
  · rw [ofItem?_eq (cutAt_of_not_mem hbar)]
    rcases blanks_or_around item with hs | ⟨ht, hs⟩
    · rw [if_pos (blanks_iff.mp hs)]
      exact .idle hs
    · rw [if_neg ht.ne_nil, Option.getD_none, described_of_blanks blanks_nil]
      exact .bare hs ⟨ht, fun hc => h (hs.mem hc), fun hc => hbar (hs.mem hc)⟩
  · rw [List.mem_append, List.mem_cons, not_or, not_or] at h
    rw [ofItem?_eq (cutAt_append hbar d), Option.getD_some]
    rcases blanks_or_around s with hs | ⟨ht, hs⟩
    · rw [if_pos (blanks_iff.mp hs)]
      exact .idleBar hs h.2.2
    · have hu : IsUrl (trim s) := ⟨ht, fun hc => h.1 (hs.mem hc), fun hc => hbar (hs.mem hc)⟩
      rw [if_neg ht.ne_nil]
      rcases blanks_or_around d with hd | ⟨hdt, hd⟩
      · rw [described_of_blanks hd]
        exact .undescribed hs hu hd
      · rw [described_of_trimmed hdt]
        exact .described hs hu hd ⟨hdt, fun hc => h.2.2 (hd.mem hc)⟩

/-! ### Lines -/

variable {line : List Char} {servers : List Server}

/-- A line is read as exactly what it lists. -/
theorem ofLine_eq_iff : ofLine line = servers ↔ Lists line servers := by
  constructor
  · rintro rfl
    refine ⟨(pieces ',' line).map fun item => (item, ofItem? item), ?_, ?_, ?_⟩
    · rw [List.forall_mem_map]
      exact fun item hitem => item_ofItem? (not_mem_of_mem_pieces hitem)
    · rw [List.map_map]
      exact ((congrArg _ (List.map_id _)).trans (joined_pieces ',' line)).symm
    · rw [List.filterMap_map]
      rfl
  · rintro ⟨items, hitems, rfl, rfl⟩
    have hread : (items.map Prod.fst).filterMap ofItem? = items.filterMap Prod.snd := by
      rw [List.filterMap_map]
      exact List.filterMap_congr fun i hi => (hitems i hi).ofItem?_eq
    by_cases hne : items.map Prod.fst = []
    · -- A line without any item is the line with one empty item.
      rw [List.map_eq_nil_iff.mp hne]
      rfl
    · rw [ofLine, pieces_joined hne, hread]
      rw [List.forall_mem_map]
      exact fun i hi => (hitems i hi).no_comma

theorem parse?_eq_some_iff : parse? line = some servers ↔ servers ≠ [] ∧ ofLine line = servers := by
  unfold parse?
  cases ofLine line with
  | nil => simp [eq_comm]
  | cons s rest =>
      simp only [Option.some.injEq]
      exact ⟨fun h => ⟨h ▸ List.cons_ne_nil s rest, h⟩, fun h => h.2⟩

theorem parse?_eq_none_iff : parse? line = none ↔ ofLine line = [] := by
  unfold parse?
  cases ofLine line <;> simp

theorem fst_cutAt (item : List Char) : (cutAt '|' item).1 = item.takeWhile (· != '|') := by
  induction item with
  | nil => rfl
  | cons c item ih => by_cases hc : c = '|' <;> simp [cutAt, hc, ih]

theorem ofItem?_eq_none_iff : ofItem? item = none ↔ Blanks (item.takeWhile (· != '|')) := by
  rw [blanks_iff, ← fst_cutAt, ofItem?_eq (Prod.eta _).symm]
  split
  · next h => exact iff_of_true rfl h
  · next h => exact iff_of_false (by simp) h

/-! ### Writing servers down -/

/-- The item of a server that can be written down. -/
theorem Plain.exists_item {s : Server} (h : s.Plain) : ∃ item, Item item (some s) := by
  have haround (t : List Char) : Around t t := by
    simpa using Around.intro (t := t) blanks_nil blanks_nil
  obtain ⟨url, description⟩ := s
  obtain ⟨u, rfl, hu⟩ := h.url
  cases description with
  | none => exact ⟨u, .bare (haround u) hu⟩
  | some t =>
      obtain ⟨d, rfl, hd⟩ := h.description t rfl
      exact ⟨_, .described (haround u) hu (haround d) hd⟩

theorem Item.plain {s : Server} (h : Item item (some s)) : s.Plain := by
  cases h with
  | bare hs hu | undescribed hs hu hd => exact ⟨⟨_, rfl, hu⟩, nofun⟩
  | described hs hu hd ht => exact ⟨⟨_, rfl, hu⟩, fun t h => ⟨_, (Option.some.inj h).symm, ht⟩⟩

/-- Exactly the lists of plain servers can be written down. -/
theorem exists_lists_iff : (∃ line, Lists line servers) ↔ ∀ s ∈ servers, s.Plain := by
  constructor
  · rintro ⟨line, items, hitems, -, rfl⟩ s hs
    obtain ⟨i, hi, hsome⟩ := List.mem_filterMap.mp hs
    exact (hsome ▸ hitems i hi).plain
  · intro h
    induction servers with
    | nil => exact ⟨[], [], List.forall_mem_nil _, rfl, rfl⟩
    | cons s servers ih =>
        obtain ⟨hs, hservers⟩ := List.forall_mem_cons.mp h
        obtain ⟨item, hitem⟩ := hs.exists_item
        obtain ⟨-, items, hitems, -, rfl⟩ := ih hservers
        exact ⟨_, (item, some s) :: items, List.forall_mem_cons.mpr ⟨hitem, hitems⟩, rfl, rfl⟩

/-- A line is read as the servers that it lists, in their order and whatever blanks and idle items
stand between them; every list of plain servers has such a line; and a line is refused exactly if
none of its items has text before its first bar. -/
theorem read_lists :
    (∀ line servers, parse? line = some servers ↔ servers ≠ [] ∧ Lists line servers) ∧
    (∀ servers : List Server, (∃ line, Lists line servers) ↔ ∀ s ∈ servers, s.Plain) ∧
    (∀ line, parse? line = none ↔ ∀ item ∈ pieces ',' line, Blanks (item.takeWhile (· != '|'))) := by
  refine ⟨?_, fun servers => exists_lists_iff, ?_⟩
  · intro line servers
    rw [parse?_eq_some_iff, ofLine_eq_iff]
  · intro line
    rw [parse?_eq_none_iff, ofLine, List.filterMap_eq_nil_iff]
    exact forall₂_congr fun item _ => ofItem?_eq_none_iff

end Server
end RouteScribe
