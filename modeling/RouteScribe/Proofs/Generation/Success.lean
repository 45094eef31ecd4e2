import RouteScribe.Proofs.Generation.Outcome

/-! # When a generation calls itself a success

The line that tells of a success is printed in one place only, behind a document that has been
written after a survey without failures (`success_finish`).  Such a survey was complete: every
selected file owned its path and could be read, and every call succeeded
(`Survey.Faithful.complete`), so the document has every method of every file (`has_document_iff`).
-/

namespace RouteScribe

/-- The line that tells of a success. -/
def successLine : Log.Entry := .line .success "SUCCESS! OpenAPI specs generated at".toList

/-- The message is a line of success. -/
def isSuccess : Log.Entry → Bool
  | .line .success _ _ => true
  | _ => false

/-! ### The messages of a survey -/

namespace Survey

variable {s : Setting} {files : List (List Char)} {file : List Char}

/-- No event is the message of a success. -/
def IsQuiet (es : List SurveyEvent) : Prop := ∀ x, .noted x ∈ es → isSuccess x = false

theorem isQuiet_callEvents (c : RouteQuery × Description) : IsQuiet (callEvents s file c) := by
  intro x hx
  unfold callEvents endEvents at hx
  cases h : c.2.outcome with
  | ok o => simp [h] at hx
  | error e =>
      simp only [h, List.mem_cons, reduceCtorEq, SurveyEvent.noted.injEq, List.not_mem_nil, or_false,
        false_or] at hx
      rw [hx]
      rfl

theorem isQuiet_fileEvents (index total : Nat) : IsQuiet (fileEvents s index total file) := by
  intro x hx
  simp only [fileEvents, List.mem_cons, reduceCtorEq, false_or] at hx
  unfold readEvents at hx
  split at hx
  · simp only [unreadEvents, List.mem_cons, reduceCtorEq, SurveyEvent.noted.injEq, List.not_mem_nil,
      or_false] at hx
    rw [hx]
    rfl
  · split at hx
    · simp only [emptyEvents, List.mem_cons, reduceCtorEq, SurveyEvent.noted.injEq, List.not_mem_nil,
        or_false] at hx
      rw [hx]
      rfl
    · simp only [openingEvent, closingEvent, List.cons_append, List.mem_cons, List.mem_append,
        List.mem_flatMap, SurveyEvent.noted.injEq, List.not_mem_nil, or_false] at hx
      rcases hx with rfl | ⟨c, -, hx⟩ | rfl
      · rfl
      · exact isQuiet_callEvents c x hx
      · rfl

theorem isQuiet_sequential (s : Setting) (files : List (List Char)) :
    IsQuiet (sequential s files) := by
  intro x hx
  simp only [sequential, claimEvents, foundEvent, events_ofFiles, List.cons_append, List.mem_cons,
    List.mem_append, List.mem_flatMap, SurveyEvent.noted.injEq] at hx
  rcases hx with rfl | ⟨d, -, hx⟩ | ⟨⟨file, i⟩, -, hx⟩
  · rfl
  · simp only [duplicateEvents, List.mem_cons, reduceCtorEq, SurveyEvent.noted.injEq,
      List.not_mem_nil, or_false] at hx
    rw [hx]
    rfl
  · exact isQuiet_fileEvents _ _ x hx

/-- A survey prints no line of success. -/
theorem isSuccess_entries {pool : Pool} (hp : pool.active < pool.limit) (hs : s.root.NulFree)
    (hf : ∀ file ∈ files, '\x00' ∉ file) (schedule : Schedule) :
    ∀ x ∈ (run s pool files schedule).entries, isSuccess x = false := by
  intro x hx
  obtain ⟨ev, hev, hm⟩ := List.mem_filterMap.mp hx
  refine isQuiet_sequential s files x ((events_run_perm hp hs hf schedule).mem_iff.mp ?_)
  cases ev <;> cases hm
  exact hev

/-! ### Surveys without failures -/

/-- Every file owns its path, every file can be read, and every call succeeds. -/
structure Complete (s : Setting) (files : List (List Char)) : Prop where
  owners : owners files = files
  answers : ∀ file ∈ files, ∃ text, source s file = .ok text ∧
    ∀ m ∈ exportedMethods text, ∃ o, answer s file m = .ok o

theorem Faithful.complete {e : Ended} (h : Faithful s files e) (hf : e.result.failures = []) :
    Complete s files := by
  have hnil := List.Perm.nil_eq (hf ▸ h.failures)
  obtain ⟨hd, hc⟩ := List.append_eq_nil_iff.mp hnil.symm
  have howners : Survey.owners files = files := by
    rw [Survey.owners, List.filter_eq_self]
    intro file hm
    by_contra ho
    have hmem : file ∈ files.filter fun f => !owns files f :=
      List.mem_filter.mpr ⟨hm, by simpa using ho⟩
    rw [List.map_eq_nil_iff, doubles, List.map_eq_nil_iff] at hd
    rw [hd] at hmem
    exact absurd hmem List.not_mem_nil
  refine ⟨howners, ?_⟩
  intro file hm
  have hff := List.flatMap_eq_nil_iff.mp hc file (howners.symm ▸ hm)
  unfold failuresOf at hff
  split at hff
  · cases hff
  · next text ht =>
      refine ⟨text, ht, ?_⟩
      intro m hmem
      have hcall := List.filterMap_eq_nil_iff.mp hff m hmem
      unfold callFailure? at hcall
      split at hcall
      · cases hcall
      · next o ho => exact ⟨o, ho⟩

end Survey

/-! ### The line of success -/

/-- The document has an operation for a path and a method of this upper-case name. -/
def Document.Has (doc : Document) (path name : List Char) : Prop :=
  ∃ m op, Assoc.find? doc.paths (Text.ofChars path) (Text.ofChars m) = some op ∧ upper m = name

/-- Every path and every method of the document is a text of characters. -/
def Document.IsPlain (doc : Document) : Prop :=
  ∀ path method op, Assoc.find? doc.paths path method = some op →
    ∃ p m, path = Text.ofChars p ∧ method = Text.ofChars m

variable {w : Workplace} {o : GeneratorOptions} {p : Provider} {f : OutputFormat} {d : Describer}

theorem isPlain_document (o : GeneratorOptions) (r : SurveyResult) :
    (Generation.document o r).IsPlain := by
  intro path method op h
  obtain ⟨p, m, hp, hm, -⟩ := (SurveyResult.find?_pathMap r path method op).mp h
  exact ⟨p, m, hp, hm⟩

/-- The line of success stands behind a document that has been written after a survey without
failures. -/
theorem success_finish {e : Survey.Ended} {entries : List Log.Entry}
    (hq : ∀ x ∈ entries, isSuccess x = false)
    (h : successLine ∈ (Generation.finish w o entries e).entries) :
    e.result.failures = [] ∧
      (Generation.finish w o entries e).document = some (Generation.document o e.result) ∧
      ∃ path, (Generation.finish w o entries e).outcome = .ok (some path) := by
  have hentries : successLine ∉ entries := fun hm => Bool.noConfusion (hq _ hm)
  have hsummary : successLine ∉ Generation.summary e.result := by
    simp [successLine, Generation.summary]
  unfold Generation.finish at h ⊢
  dsimp only at h ⊢
  split at h
  · rw [List.mem_append, List.mem_singleton] at h
    rcases h with h | h
    · exact absurd h hentries
    · unfold Generation.nothingFound at h
      split at h <;> cases h
  · next hn =>
      rw [if_neg hn]
      split at h
      · rw [List.mem_append] at h
        rcases h with h | h
        · exact absurd h hentries
        · exact absurd h hsummary
      · next path disk hw =>
          refine ⟨?_, rfl, path, rfl⟩
          rw [List.mem_append, List.mem_append] at h
          rcases h with (h | h) | h
          · exact absurd h hentries
          · exact absurd h hsummary
          · unfold Generation.closing at h
            split at h
            · next hf => exact List.length_eq_zero_iff.mp hf
            · simp [successLine] at h

theorem isSuccess_opening (o : GeneratorOptions) (p : Provider) :
    ∀ x ∈ Generation.opening o p, isSuccess x = false := by
  intro x hx
  simp only [Generation.opening, List.mem_cons, List.not_mem_nil, or_false] at hx
  rcases hx with rfl | rfl | rfl <;> rfl

theorem isSuccess_timing (w : Workplace) : ∀ x ∈ w.timing, isSuccess x = false := by
  intro x hx
  simp only [Workplace.timing, List.mem_cons, List.not_mem_nil, or_false] at hx
  rcases hx with rfl | rfl <;> rfl

/-- The document of a complete survey has every method of every file, and no others. -/
theorem has_document_iff {files : List (List Char)} {e : Survey.Ended}
    (he : Survey.Faithful (w.setting o d) files e) (hc : Survey.Complete (w.setting o d) files)
    (path name : List Char) :
    (Generation.document o e.result).Has path name ↔
      ∃ file ∈ files, Route.apiPath file = path ∧
        ∃ m ∈ Survey.methodsOf (w.setting o d) file, upper m = name := by
  constructor
  · rintro ⟨m, op, hf, hm⟩
    obtain ⟨path', m', hp, hm', hf⟩ := (SurveyResult.find?_pathMap _ _ _ _).mp hf
    cases SurveyResult.ofChars_injective hp
    cases SurveyResult.ofChars_injective hm'
    obtain ⟨file, text, ho, ht, hmem, -⟩ := (he.operations _ _ _).mp hf
    exact ⟨file, Survey.mem_of_owner? ho, Survey.apiPath_of_owner? ho, m,
      Survey.mem_methodsOf.mpr ⟨text, ht, hmem⟩, hm⟩
  · rintro ⟨file, hfile, rfl, m, hm, rfl⟩
    obtain ⟨text, ht, ha⟩ := hc.answers file hfile
    obtain ⟨text', ht', hmem⟩ := Survey.mem_methodsOf.mp hm
    rw [ht] at ht'
    cases ht'
    obtain ⟨op, hop⟩ := ha m hmem
    refine ⟨m, op, (SurveyResult.find?_pathMap _ _ _ _).mpr ⟨_, m, rfl, rfl, ?_⟩, rfl⟩
    rw [he.operations]
    exact ⟨file, text, Survey.mem_owners.mp (hc.owners.symm ▸ hfile), ht, hmem, hop⟩

/-- **What the line of success means**: the document has been written, and it has all methods of all
selected files. -/
theorem success_generate (hw : w.disk.WellFormed) (hc : 1 ≤ o.concurrency)
    (h : w.registry.check o.provider o.key o.format = .ok (p, f))
    (hs : successLine ∈ (generate w o).entries) :
    ∃ es d, Begins w o p f es ∧ w.describerFor o = .ok d ∧
      Survey.Complete (w.setting o d) (o.selected (.directory es)) ∧
      ∃ doc path, (generate w o).document = some doc ∧ (generate w o).outcome = .ok (some path) ∧
        doc.IsPlain ∧ ∀ path name, doc.Has path name ↔
          ∃ file ∈ o.selected (.directory es), Route.apiPath file = path ∧
            ∃ m ∈ Survey.methodsOf (w.setting o d) file, upper m = name := by
  have hopening := isSuccess_opening o p
  cases hl : Route.locate w.limits.searching w.disk o.dir with
  | error e =>
      rw [generate_unlocated h hl] at hs
      exact Bool.noConfusion (hopening _ hs)
  | ok found =>
      obtain ⟨es, hfound, hsearched, -⟩ := (Route.locate_eq_ok_iff hw).mp hl
      have hb : Begins w o p f es := ⟨h, hfound, hsearched⟩
      rcases generate_begins hw hc hb with ⟨-, entry, he, hg⟩ | ⟨-, error, -, hg⟩ |
        ⟨-, d, pool, hd, -, hp, hg⟩
      · rw [hg, List.mem_append, List.mem_singleton] at hs
        rcases hs with hs | rfl
        · exact Bool.noConfusion (hopening _ hs)
        · simp [successLine, Generation.noFiles, Generation.noneSelected] at he
      · rw [hg] at hs
        exact Bool.noConfusion (hopening _ hs)
      · have hfaithful := faithful_surveyed hw hfound d hp
        have ht := hw.find hfound
        have hsub := Route.select_sublist (o.routes.getD []) (Route.filesOf (.directory es))
        have hquiet : ∀ x ∈ Generation.opening o p ++
            (w.surveyed o d pool (o.selected (.directory es))).entries ++ w.timing,
            isSuccess x = false := by
          intro x hx
          rw [List.mem_append, List.mem_append] at hx
          rcases hx with (hx | hx) | hx
          · exact hopening x hx
          · exact Survey.isSuccess_entries hp (Disk.nulFree_of_find hfound)
              (fun file hf => Route.nulFree_filesOf ht (hsub.mem hf)) _ x hx
          · exact isSuccess_timing w x hx
        rw [hg] at hs ⊢
        obtain ⟨hf, hdoc, path, hout⟩ := success_finish hquiet hs
        have hcomplete := hfaithful.complete hf
        exact ⟨es, d, hb, hd, hcomplete, _, path, hdoc, hout, isPlain_document o _,
          has_document_iff hfaithful hcomplete⟩

end RouteScribe
