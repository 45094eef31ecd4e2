import RouteScribe.Proofs.Pool.SingleSlot
import RouteScribe.Proofs.Survey.Faithful
import RouteScribe.Proofs.Survey.Timing

/-! # A survey with a single slot

In a pool of one slot a fair survey works on its files one after the other, whatever the readings
and the calls take: behind the reports of the claims, the events are one block for each claimed
file, in the order of the list (`single_slot`).  `Block` says what is in the block of a file: the
file is read, its calls begin in the order of the methods, and the line of progress is the last of
all.

The order of the blocks is that of the jobs of the pool (`Run.trace_settle_fair`), and the block of
a file is what its script tells (`block_slowScript`). -/

namespace RouteScribe

/-- The line of progress, which says that a file is done. -/
def SurveyEvent.isProgress : SurveyEvent → Bool
  | noted (.line .log _ _) => true
  | _ => false

namespace Survey

open Access (begun ended)

variable {s : Setting} {extra index total : Nat} {file : List Char}

/-- What is told of a file while nothing is told of another one. -/
structure Block (s : Setting) (index total : Nat) (file : List Char) (es : List SurveyEvent) :
    Prop where
  /-- The file is read before anything else is done with it. -/
  opened : [.readBegun file, .readEnded file] <+: es
  /-- The file is read once, and its calls begin in the order of its methods. -/
  begun : begun es = accesses s file
  /-- The methods stand in their order, each of them once. -/
  ordered : (methodsOf s file).Pairwise fun m n => Method.le m n = true ∧ m ≠ n
  /-- Everything that begins ends. -/
  ended : (ended es).Perm (accesses s file)
  /-- The line of progress of a file with methods is the last event. -/
  closed : methodsOf s file ≠ [] →
    es.getLast? = some (closingEvent index total file (methodsOf s file))
  /-- There is no other line of progress. -/
  progress : es.filter SurveyEvent.isProgress =
    if methodsOf s file = [] then [] else [closingEvent index total file (methodsOf s file)]
  /-- These are the events of the file where each call is waited for before the next one. -/
  complete : s.root.NulFree → '\x00' ∉ file → es.Perm (fileEvents s index total file)

/-! ### The order of the methods -/

theorem ordered_methodsOf (s : Setting) (file : List Char) :
    (methodsOf s file).Pairwise fun m n => Method.le m n = true ∧ m ≠ n := by
  refine List.Pairwise.and ?_ (nodup_methodsOf s file)
  unfold methodsOf
  split
  · exact .nil
  · exact List.pairwise_mergeSort Method.le_trans Method.le_total _

/-! ### The calls of a file -/

variable {cs : List (RouteQuery × Description)} {k : Nat}

/-- An event that begins nothing and is no line of progress. -/
def IsAside (e : SurveyEvent) : Prop := Access.begun? e = none ∧ e.isProgress = false

theorem isAside_of_mem_endEvents {q : RouteQuery} {outcome : Except (List Char) Operation}
    {e : SurveyEvent} (h : e ∈ endEvents s file q outcome) : IsAside e := by
  unfold endEvents at h
  cases outcome <;> simp only [List.mem_cons, List.not_mem_nil, or_false] at h
  · rcases h with rfl | rfl | rfl <;> exact ⟨rfl, rfl⟩
  · rcases h with rfl | rfl <;> exact ⟨rfl, rfl⟩

/-- In the later rounds calls end. -/
theorem isAside_of_mem_laterRound {e : SurveyEvent} (h : e ∈ laterRound s file cs k) :
    IsAside e := by
  obtain ⟨⟨q, d⟩, -, hc⟩ := List.mem_flatMap.mp h
  dsimp only at hc
  split at hc
  · exact isAside_of_mem_endEvents hc
  · exact absurd hc List.not_mem_nil

/-- In the first round calls begin, and some end at once. -/
theorem cases_of_mem_firstRound {e : SurveyEvent} (h : e ∈ firstRound s file cs) :
    (∃ c ∈ cs, e = .callBegun file c.1 c.2.request) ∨ IsAside e := by
  obtain ⟨c, hmem, hc⟩ := List.mem_flatMap.mp h
  rcases List.mem_cons.mp hc with rfl | hc
  · exact .inl ⟨c, hmem, rfl⟩
  · split at hc
    · exact .inr (isAside_of_mem_endEvents hc)
    · exact absurd hc List.not_mem_nil

/-- The events of all rounds. -/
def rounds (s : Setting) (file : List Char) (cs : List (RouteQuery × Description)) :
    List SurveyEvent :=
  firstRound s file cs ++ (List.range' 1 (longest cs)).flatMap (laterRound s file cs)

theorem begun_rounds : begun (rounds s file cs) = cs.map fun c => .call file c.1 := by
  have hend : ∀ (q : RouteQuery) (d : Description),
      (if d.turns = 0 then endEvents s file q d.outcome else []).filterMap Access.begun? = [] := by
    intro q d
    rw [List.filterMap_eq_nil_iff]
    intro e he
    split at he
    · exact (isAside_of_mem_endEvents he).1
    · exact absurd he List.not_mem_nil
  have hlater : ((List.range' 1 (longest cs)).flatMap (laterRound s file cs)).filterMap
      Access.begun? = [] := by
    rw [List.filterMap_eq_nil_iff]
    intro e he
    obtain ⟨k, -, he⟩ := List.mem_flatMap.mp he
    exact (isAside_of_mem_laterRound he).1
  rw [rounds, begun, List.filterMap_append, hlater, List.append_nil, firstRound,
    List.filterMap_flatMap]
  simp only [List.filterMap_cons, Access.begun?, hend]
  exact List.map_eq_flatMap.symm

theorem progress_rounds : (rounds s file cs).filter SurveyEvent.isProgress = [] := by
  rw [List.filter_eq_nil_iff]
  intro e he
  rcases List.mem_append.mp he with he | he
  · rcases cases_of_mem_firstRound he with ⟨c, -, rfl⟩ | haside
    · exact Bool.false_ne_true
    · rw [haside.2]
      exact Bool.false_ne_true
  · obtain ⟨k, -, he⟩ := List.mem_flatMap.mp he
    rw [(isAside_of_mem_laterRound he).2]
    exact Bool.false_ne_true

/-! ### The block of a file -/

/-- Behind the reading of a file its methods are described, or there are none and nothing begins. -/
theorem readScript_cases (s : Setting) (index total : Nat) (file : List Char) :
    let es := (readScript s index total file (source s file)).events
    (methodsOf s file = [] ∧ ∀ e ∈ es, IsAside e) ∨
      (methodsOf s file ≠ [] ∧ es = openingEvent file (methodsOf s file) ::
        (rounds s file (calls s file (methodsOf s file)) ++
          [closingEvent index total file (methodsOf s file)])) := by
  unfold methodsOf
  cases hr : source s file with
  | error fault =>
      refine .inl ⟨rfl, ?_⟩
      intro e he
      unfold readScript at he
      split at he
      · exact absurd he List.not_mem_nil
      · simp only [Script.events_emitAll, Script.events, unreadEvents, List.append_nil,
          List.mem_cons, List.not_mem_nil, or_false] at he
        rcases he with rfl | rfl <;> exact ⟨rfl, rfl⟩
      · next heq => cases heq
  | ok text =>
      dsimp only
      cases hm : exportedMethods text with
      | nil =>
          refine .inl ⟨rfl, ?_⟩
          intro e he
          simp only [readScript, hm, Script.events_emitAll, Script.events, emptyEvents,
            List.append_nil, List.mem_cons, List.not_mem_nil, or_false] at he
          rcases he with rfl | rfl <;> exact ⟨rfl, rfl⟩
      | cons m ms =>
          refine .inr ⟨List.cons_ne_nil _ _, ?_⟩
          simp only [readScript, hm, Script.events, callScript, Script.events_emitAll,
            events_laterRounds, Script.events_pause, rounds, List.append_assoc]

theorem begun_slowScript :
    begun (slowScript s extra index total file).events = accesses s file := by
  have hread : begun (slowScript s extra index total file).events =
      .read file :: begun (readScript s index total file (source s file)).events := by
    rw [events_slowScript]
    rfl
  rw [hread, accesses]
  congr 1
  rcases readScript_cases s index total file with ⟨hm, hq⟩ | ⟨-, he⟩
  · rw [hm, List.map_nil]
    exact List.filterMap_eq_nil_iff.mpr fun e he => (hq e he).1
  · rw [he, begun, openingEvent, List.filterMap_cons_none rfl, List.filterMap_append]
    change begun _ ++ [] = _
    rw [List.append_nil, begun_rounds, calls, List.map_map]
    rfl

theorem progress_slowScript :
    (slowScript s extra index total file).events.filter SurveyEvent.isProgress =
      if methodsOf s file = [] then [] else [closingEvent index total file (methodsOf s file)] := by
  have hread : (slowScript s extra index total file).events.filter SurveyEvent.isProgress =
      (readScript s index total file (source s file)).events.filter SurveyEvent.isProgress := by
    rw [events_slowScript]
    rfl
  rw [hread]
  rcases readScript_cases s index total file with ⟨hm, hq⟩ | ⟨hm, he⟩
  · rw [if_pos hm]
    exact List.filter_eq_nil_iff.mpr fun e he => by simp [(hq e he).2]
  · rw [if_neg hm, he, openingEvent, List.filter_cons_of_neg Bool.false_ne_true,
      List.filter_append, progress_rounds]
    rfl

/-- What a file tells is a block. -/
theorem block_slowScript :
    Block s index total file (slowScript s extra index total file).events where
  opened := ⟨_, events_slowScript.symm⟩
  begun := begun_slowScript
  ordered := ordered_methodsOf s file
  ended := ended_slowScript_perm
  closed := by
    intro hm
    rcases readScript_cases s index total file with ⟨hn, -⟩ | ⟨-, he⟩
    · exact absurd hn hm
    · rw [events_slowScript, he]
      simp [List.getLast?_cons]
  progress := progress_slowScript
  complete := by
    intro hs hf
    have he : (slowScript s extra index total file).events =
        (fileScript s index total file).events := events_slowScript
    exact he ▸ events_fileScript_perm hs hf

/-! ### All files -/

/-- **One file after the other.**  In a pool of a single slot that nobody has taken, whatever the
readings and the calls take, the events of a fair survey are the reports of the claims and then one
block for each claimed file, in the order of the list; the block at a place is what the file at that
place tells. -/
theorem single_slot {pool : Pool} (hl : pool.limit = 1) (ha : pool.active = 0) (s : Setting)
    (τ : Timing) (files : List (List Char)) :
    let claimed := (Claims.ofFiles files).files
    let r := (Run.start pool (timedScripts s τ claimed)).settle .fair
    ∃ blocks : List (List SurveyEvent),
      (runTimed s τ pool files .fair).events = claimEvents files ++ blocks.flatten ∧
      r.trace = blocks.zipIdx.flatMap (fun b => b.1.map fun e => (b.2, e)) ∧
      blocks.length = claimed.length ∧
      ∀ i file es, claimed[i]? = some file → blocks[i]? = some es →
        Block { s with describer := τ.describer i } (i + 1) claimed.length file es := by
  intro claimed r
  have htrace : r.trace = ((timedScripts s τ claimed).map Script.events).zipIdx.flatMap
      fun b => b.1.map fun e => (b.2, e) := by
    have h := Run.trace_settle_fair (p := pool) (by rw [hl, ha]) (timedScripts s τ claimed)
    rw [List.zipIdx_map, List.flatMap_map]
    exact h
  refine ⟨(timedScripts s τ claimed).map Script.events, ?_, htrace, ?_, ?_⟩
  · have hevents : r.events = ((timedScripts s τ claimed).map Script.events).flatten := by
      rw [Run.events, htrace, List.map_flatMap]
      simp only [List.map_map, Function.comp_def, List.map_id']
      rw [List.flatMap_def]
      exact congrArg List.flatten (List.zipIdx_map_fst 0 _)
    change claimEvents files ++ r.events = _
    rw [hevents]
  · rw [List.length_map, length_timedScripts]
  · intro i file es hf hes
    rw [List.getElem?_map, timedScripts_get? s τ hf] at hes
    cases hes
    exact block_slowScript

/-- Two files in a pool of one slot.  The first one is read more slowly, and its first call takes
longer than the other one; still it is done before the second file is read. -/
theorem single_slot_slow_first :
    let source := "export const POST\nexport const GET".toList
    let s : Setting :=
      { disk := ⟨.directory (["a", "b"].map fun name => (name.toList, .directory
          [("route.js".toList, .file (source.map fun c => c.toNat.toUInt8))])), []⟩
        root := ⟨.root, []⟩
        describer := ⟨[], fun q => ⟨if q.method = "get".toList then 2 else 0, .ok default, none⟩⟩ }
    let τ : Timing := ⟨fun i => 3 - i, fun _ => s.describer⟩
    let calls (file : List Char) : List Access :=
      .read file :: ["get".toList, "post".toList].map fun m => .call file (query s file m)
    ∃ pool, Pool.make 1 = .ok pool ∧ pool.limit = 1 ∧ pool.active = 0 ∧
      begun (runTimed s τ pool ["a/route.js".toList, "b/route.js".toList] .fair).events =
        calls "a/route.js".toList ++ calls "b/route.js".toList := by
  intro source s τ calls
  obtain ⟨pool, hp, -⟩ := Pool.exists_make (by decide : (1 : Int) ≤ 1)
  have hl : pool.limit = 1 := Pool.limit_make hp
  have ha : pool.active = 0 := Pool.active_make hp
  refine ⟨pool, hp, hl, ha, ?_⟩
  obtain ⟨blocks, he, -, hn, hb⟩ :=
    single_slot hl ha s τ ["a/route.js".toList, "b/route.js".toList]
  have hclaimed : (Claims.ofFiles ["a/route.js".toList, "b/route.js".toList]).files =
      ["a/route.js".toList, "b/route.js".toList] := by decide +kernel
  rw [hclaimed] at hn hb
  obtain ⟨first, second, rfl⟩ := List.length_eq_two.mp hn
  have hfirst := (hb 0 _ first rfl rfl).begun
  have hsecond := (hb 1 _ second rfl rfl).begun
  have hmethods : exportedMethods source = ["get".toList, "post".toList] := by
    have hnames : ((Source.exports source).map lower).eraseDups =
        ["post".toList, "get".toList] := by decide +kernel
    refine exportedMethods_eq_of_perm (hnames ▸ .swap _ _ _) ?_
    exact List.pairwise_pair.mpr (by decide +kernel)
  have hcalls : ∀ file, Survey.source s file = .ok source → accesses s file = calls file := by
    intro file h
    simp only [accesses, methodsOf, h, hmethods, calls]
  have hnone : begun (claimEvents ["a/route.js".toList, "b/route.js".toList]) = [] := by
    decide +kernel
  rw [he, begun, List.filterMap_append, List.flatten_cons, List.flatten_cons, List.flatten_nil,
    List.append_nil, List.filterMap_append]
  change begun _ ++ (begun first ++ begun second) = _
  rw [hnone, hfirst, hsecond, List.nil_append]
  exact congrArg₂ (· ++ ·) (hcalls _ (by decide +kernel)) (hcalls _ (by decide +kernel))

end Survey
end RouteScribe
