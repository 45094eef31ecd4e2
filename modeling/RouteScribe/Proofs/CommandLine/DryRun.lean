import RouteScribe.Proofs.CommandLine.Rows
import RouteScribe.Proofs.Files.Resolve
import RouteScribe.Proofs.Generation.Success

/-! # The dry run

`list-routes` shows what `generate` would do.  `Predicts` says that its rows tell the routes that
are asked about, and the whole document when the generation calls itself a success.

The two commands do not look for the directory in the same way: `generate` takes the steps upwards
in the path first, `list-routes` follows the path as it is written, and what is long or deep for the
one need not be so for the other.  Where both get through the directory they see the same files with
the same texts, and the prediction is right (`predicts_of_seen`).  Where one of them does not, the
prediction is right only if there was nothing to ask about and nothing to announce
(`predicts_iff`). -/

namespace RouteScribe
namespace CommandLine

/-- The rows tell what a generation did that began on a disk and wrote in a format what it had
dumped. -/
structure Predicts (rows : List Log.Row) (dumper : Dumper) (before : Disk) (format : List Char)
    (g : Generated) : Prop where
  /-- The routes that were asked about are those in the first row of each path. -/
  calls : ∀ route, route ∈ g.queries.map RouteQuery.route ↔ route ∈ announced (firstRows rows)
  /-- A success has written the routes of all rows, and no file was unreadable. -/
  success : successLine ∈ g.entries →
    (∀ r ∈ rows, cell r "methods" ≠ unreadable) ∧
    ∃ doc path, g.document = some doc ∧ g.outcome = .ok (some path) ∧
      doc.Written dumper format before path g.disk ∧ doc.IsPlain ∧
      ∀ path name, doc.Has path name ↔
        ∃ r ∈ rows, cell r "path" = path ∧ name ∈ namesIn (cell r "methods")

/-- Both commands get through a directory: `list-routes` through the written path, with room for so
many levels, and `generate` through the path in which the steps upwards have been taken. -/
structure SeenByBoth (room : Nat) (written : Path) (w : Workplace) (o : GeneratorOptions)
    (es : List (FileName × FileTree)) : Prop where
  found : w.disk.find written = .ok (.directory es)
  listed : Route.Searchable room written (.directory es)
  searched : Route.Searchable w.limits.searching o.dir (.directory es)

variable {w : Workplace} {o : GeneratorOptions} {p : Provider} {f : OutputFormat} {l : ListCall}
  {es : List (FileName × FileTree)} {file : List Char} {room : Nat} {d : Describer}

/-! ### The rows and the selected files -/

theorem rows_eq_nil {e : Route.DiscoveryError} {d : Disk}
    (h : Route.locate room d l.dir = .error e) : l.rows room d = [] := by
  rw [ListCall.rows, ListCall.files, h]
  rfl

theorem rows_eq_map (ho : o.routes.getD [] = GenerateCall.patterns l.routes) {d : Disk}
    (h : Route.locate room d l.dir = .ok (Route.filesOf (.directory es))) :
    l.rows room d = (o.selected (.directory es)).map (routeRow d l.dir) := by
  rw [ListCall.rows, ListCall.files, h]
  dsimp only [Except.map]
  rw [tableRows_routeEntries, ← ho, GeneratorOptions.selected]

theorem methodsOf_eq (s : Survey.Setting) (file : List Char) :
    Survey.methodsOf s file =
      match (Survey.source s file).toOption with
      | some text => exportedMethods text
      | none => [] := by
  unfold Survey.methodsOf
  cases Survey.source s file <;> rfl

theorem SeenByBoth.rows_eq (hw : w.disk.WellFormed) (h : SeenByBoth room l.dir w o es)
    (ho : o.routes.getD [] = GenerateCall.patterns l.routes) :
    l.rows room w.disk = (o.selected (.directory es)).map (routeRow w.disk l.dir) :=
  rows_eq_map ho ((Route.locate_eq_ok_iff hw).mpr ⟨es, h.found, h.listed, rfl⟩)

section seen

variable (hw : w.disk.WellFormed) (hdir : o.dir = l.dir.resolve w.disk.here)
  (h : SeenByBoth room l.dir w o es)
include hw hdir h

/-- The path with the steps upwards taken leads to the same directory. -/
theorem SeenByBoth.find_dir : w.disk.find o.dir = .ok (.directory es) := by
  have hshort := h.searched.short [] (Route.isLookedAt_nil es)
  rw [Path.below_nil] at hshort
  rw [hdir] at hshort ⊢
  exact Disk.find_resolve hw h.found hshort

/-- Both commands read the same text of a file. -/
theorem SeenByBoth.toOption_source (hf : file ∈ o.selected (.directory es)) (d : Describer) :
    (Survey.source (w.setting o d) file).toOption =
      (w.disk.readText (l.dir.join (Path.ofChars file))).toOption := by
  have ht := hw.find h.found
  have hfile := (Route.select_sublist (o.routes.getD []) (Route.filesOf (.directory es))).mem hf
  have hfind := h.find_dir hw hdir
  have hwritten := Route.fault?_join_of_searchable ht (Disk.nulFree_of_find h.found) h.listed hfile
  have htaken := Route.fault?_join_of_searchable ht (Disk.nulFree_of_find hfind) h.searched hfile
  have hshort := (Path.fault?_eq_none_iff.mp (Disk.fault?_of_find hfind)).2
  unfold Survey.source Workplace.setting
  dsimp only
  rw [hdir] at htaken hshort ⊢
  exact Disk.readText_join_resolve hw h.found (Route.relative_filesOf ht hfile) hshort hwritten htaken

/-- The row of a file names the methods that are described of it. -/
theorem SeenByBoth.namesIn_row (hf : file ∈ o.selected (.directory es)) (d : Describer) :
    namesIn (cell (routeRow w.disk l.dir file) "methods") =
      (Survey.methodsOf (w.setting o d) file).map upper := by
  rw [cell_methods, namesIn_methodsCell, methodsOf_eq, h.toOption_source hw hdir hf]
  cases (w.disk.readText (l.dir.join (Path.ofChars file))).toOption <;> rfl

variable (ho : o.routes.getD [] = GenerateCall.patterns l.routes)
include ho

/-- The first rows announce what is due. -/
theorem SeenByBoth.mem_announced_iff (d : Describer) (route : List Char) :
    route ∈ announced (firstRows (l.rows room w.disk)) ↔
      route ∈ (Survey.due (w.setting o d) (o.selected (.directory es))).map RouteQuery.route := by
  rw [h.rows_eq hw ho, firstRows_map]
  constructor
  · intro hr
    obtain ⟨r, hr, hname⟩ := List.mem_flatMap.mp hr
    obtain ⟨file, hfile, rfl⟩ := List.mem_map.mp hr
    rw [h.namesIn_row hw hdir (Survey.mem_of_mem_owners hfile) d] at hname
    obtain ⟨name, hmem, rfl⟩ := List.mem_map.mp hname
    obtain ⟨m, hm, rfl⟩ := List.mem_map.mp hmem
    exact List.mem_map_of_mem (Survey.mem_due.mpr ⟨file, hfile, m, hm, rfl⟩)
  · intro hr
    obtain ⟨q, hq, rfl⟩ := List.mem_map.mp hr
    obtain ⟨file, hfile, m, hm, rfl⟩ := Survey.mem_due.mp hq
    have hn := h.namesIn_row hw hdir (Survey.mem_of_mem_owners hfile) d
    refine List.mem_flatMap.mpr ⟨_, List.mem_map_of_mem hfile, ?_⟩
    rw [hn]
    exact List.mem_map_of_mem (List.mem_map_of_mem hm)

/-- The rows have the methods of all selected files. -/
theorem SeenByBoth.exists_row_iff (d : Describer) (path name : List Char) :
    (∃ r ∈ l.rows room w.disk, cell r "path" = path ∧ name ∈ namesIn (cell r "methods")) ↔
      ∃ file ∈ o.selected (.directory es), Route.apiPath file = path ∧
        ∃ m ∈ Survey.methodsOf (w.setting o d) file, upper m = name := by
  rw [h.rows_eq hw ho]
  constructor
  · rintro ⟨r, hr, rfl, hname⟩
    obtain ⟨file, hfile, rfl⟩ := List.mem_map.mp hr
    rw [h.namesIn_row hw hdir hfile d] at hname
    obtain ⟨m, hm, rfl⟩ := List.mem_map.mp hname
    exact ⟨file, hfile, rfl, m, hm, rfl⟩
  · rintro ⟨file, hfile, rfl, m, hm, rfl⟩
    refine ⟨_, List.mem_map_of_mem hfile, rfl, ?_⟩
    rw [h.namesIn_row hw hdir hfile d]
    exact List.mem_map_of_mem hm

/-- Where every file has been read, no row says otherwise. -/
theorem SeenByBoth.ne_unreadable
    (hc : Survey.Complete (w.setting o d) (o.selected (.directory es)))
    {r : Log.Row} (hr : r ∈ l.rows room w.disk) : cell r "methods" ≠ unreadable := by
  rw [h.rows_eq hw ho] at hr
  obtain ⟨file, hfile, rfl⟩ := List.mem_map.mp hr
  obtain ⟨text, ht, -⟩ := hc.answers file hfile
  rw [cell_methods, ne_eq, methodsCell_eq_unreadable_iff, ← h.toOption_source hw hdir hfile d, ht]
  simp [Except.toOption]

end seen

/-! ### The prediction -/

variable {dumper : Dumper} {before : Disk} {format : List Char} {g : Generated}

/-- Where nothing was asked about and nothing is announced, the prediction is right. -/
theorem predicts_of_silent {rows : List Log.Row} (hq : g.queries = [])
    (ha : announced (firstRows rows) = []) (hs : successLine ∉ g.entries) :
    Predicts rows dumper before format g := by
  refine ⟨?_, fun h => absurd h hs⟩
  intro route
  simp [hq, ha]

/-- Where nothing was asked about, a prediction announces nothing, and where nothing is announced, it
tells that nothing was asked about. -/
theorem Predicts.silent {rows : List Log.Row} (h : Predicts rows dumper before format g)
    (hs : rows = [] ∨ g.queries = []) :
    g.queries = [] ∧ announced (firstRows rows) = [] := by
  rcases hs with rfl | hq
  · refine ⟨List.eq_nil_iff_forall_not_mem.mpr fun q hq => ?_, rfl⟩
    have hannounced := (h.calls q.route).mp (List.mem_map_of_mem hq)
    simp [announced, firstRows] at hannounced
  · refine ⟨hq, List.eq_nil_iff_forall_not_mem.mpr fun route hr => ?_⟩
    have hcall := (h.calls route).mpr hr
    simp [hq] at hcall

/-- A success has described some route, so something was asked about. -/
theorem queries_ne_nil_of_success (hw : w.disk.WellFormed) (hc : 1 ≤ o.concurrency)
    (h : w.registry.check o.provider o.key o.format = .ok (p, f))
    (hs : successLine ∈ (generate w o).entries) : (generate w o).queries ≠ [] := by
  intro hq
  obtain ⟨es, d, hb, hd, -, doc, path, hdoc, -⟩ := success_generate hw hc h hs
  have hdocument := (surveyed_generate hw hc hb hd).document
  rw [hdoc] at hdocument
  obtain ⟨path, m, op, q, hmem, -⟩ := hdocument.mp rfl
  rw [hq] at hmem
  exact absurd hmem List.not_mem_nil

/-- Where both commands get through the directory, the prediction is right. -/
theorem predicts_of_seen (hw : w.disk.WellFormed) (hc : 1 ≤ o.concurrency)
    (h : w.registry.check o.provider o.key o.format = .ok (p, f))
    (hdir : o.dir = l.dir.resolve w.disk.here)
    (ho : o.routes.getD [] = GenerateCall.patterns l.routes)
    (hseen : SeenByBoth room l.dir w o es) (hd : w.describerFor o = .ok d) :
    Predicts (l.rows room w.disk) w.limits.dumper w.disk o.format (generate w o) := by
  have hb : Begins w o p f es := ⟨h, hseen.find_dir hw hdir, hseen.searched⟩
  refine ⟨?_, ?_⟩
  · intro route
    have hq := (queries_generate hw hc hb hd).map RouteQuery.route
    rw [hq.mem_iff, hseen.mem_announced_iff hw hdir ho d]
  · intro hs
    obtain ⟨es', d', hb', hd', hcomplete, doc, path, hdoc, hout, hplain, hhas⟩ :=
      success_generate hw hc h hs
    cases hb.found.symm.trans hb'.found
    have hwritten := ((surveyed_generate hw hc hb hd).written doc path hdoc hout).2
    refine ⟨fun r => hseen.ne_unreadable hw hdir ho hcomplete, doc, path, hdoc, hout,
      hwritten, hplain, ?_⟩
    intro path name
    rw [hhas, hseen.exists_row_iff hw hdir ho d']

/-- Where one of the commands does not get through the directory, or nothing describes what is found,
there are no rows or no calls. -/
theorem silent_of_not_seen (hw : w.disk.WellFormed) (hc : 1 ≤ o.concurrency)
    (h : w.registry.check o.provider o.key o.format = .ok (p, f))
    (hdir : o.dir = l.dir.resolve w.disk.here)
    (hno : ¬ ((∃ es, SeenByBoth room l.dir w o es) ∧ w.CanDescribe p)) :
    l.rows room w.disk = [] ∨ (generate w o).queries = [] := by
  cases hlist : Route.locate room w.disk l.dir with
  | error e => exact .inl (rows_eq_nil hlist)
  | ok found =>
      right
      obtain ⟨es, hfound, hlisted, -⟩ := (Route.locate_eq_ok_iff hw).mp hlist
      cases hl : Route.locate w.limits.searching w.disk o.dir with
      | error e =>
          rw [generate_unlocated h hl]
      | ok found' =>
          obtain ⟨es', hfound', hsearched, -⟩ := (Route.locate_eq_ok_iff hw).mp hl
          have hshort := (Path.fault?_eq_none_iff.mp (Disk.fault?_of_find hfound')).2
          have hsame := Disk.find_resolve hw hfound (hdir ▸ hshort)
          cases (hdir ▸ hfound').symm.trans hsame
          rcases describerFor_cases h with ⟨hcan, -⟩ | ⟨-, part, -, herror⟩
          · exact absurd ⟨⟨es, hfound, hlisted, hsearched⟩, hcan⟩ hno
          · rcases generate_begins hw hc ⟨h, hfound', hsearched⟩ with ⟨-, entry, -, hg⟩ |
              ⟨-, error, -, hg⟩ | ⟨-, d, pool, hd, -⟩
            · rw [hg]
            · rw [hg]
              rfl
            · cases hd.symm.trans herror

theorem routes_of_options? {c : GenerateCall} {registry : Registry} {env : Environment}
    {here : List FileName} (h : c.options? registry env here = some o) :
    o.dir = c.dir.resolve here ∧ o.routes.getD [] = GenerateCall.patterns c.routes ∧
      o.concurrency = c.concurrency := by
  have hp : (if (GenerateCall.patterns c.routes).isEmpty then none
      else some (GenerateCall.patterns c.routes)).getD [] = GenerateCall.patterns c.routes := by
    cases GenerateCall.patterns c.routes <;> rfl
  unfold GenerateCall.options? at h
  split at h
  · obtain ⟨servers, -, h⟩ := Option.bind_eq_some_iff.mp h
    cases h
    exact ⟨rfl, hp, rfl⟩
  · cases h
    exact ⟨rfl, hp, rfl⟩

/-- **What the dry run predicts.**  For a generation with valid settings and a listing of the same
directory and routes, the rows tell the calls, and the document of a success, exactly if both
commands get through the directory and there is something that describes what is found, or else
nothing was asked about and nothing is announced. -/
theorem predicts_iff (i : Invocation) (env : Environment) (c : GenerateCall) (l : ListCall)
    (hdir : l.dir = c.dir) (hroutes : l.routes = c.routes)
    (ho : c.options? i.registry env i.disk.here = some o)
    (h : i.registry.check o.provider o.key o.format = .ok (p, f)) (hc : 1 ≤ c.concurrency)
    (hw : i.disk.WellFormed) (w : Workplace) (hdisk : w.disk = i.disk)
    (hregistry : w.registry = i.registry) :
    Predicts (l.rows i.limits.listing i.disk) w.limits.dumper i.disk o.format (generate w o) ↔
      (∃ es, SeenByBoth i.limits.listing c.dir w o es) ∧ w.CanDescribe p ∨
      (generate w o).queries = [] ∧
        announced (firstRows (l.rows i.limits.listing i.disk)) = [] := by
  obtain ⟨hresolve, hpatterns, hcount⟩ := routes_of_options? ho
  rw [← hdisk] at hw hresolve ⊢
  rw [← hregistry] at h
  rw [← hcount] at hc
  rw [← hdir] at hresolve ⊢
  rw [← hroutes] at hpatterns
  by_cases hseen : (∃ es, SeenByBoth i.limits.listing l.dir w o es) ∧ w.CanDescribe p
  · refine iff_of_true ?_ (.inl hseen)
    obtain ⟨⟨es, hes⟩, hcan⟩ := hseen
    rcases describerFor_cases h with ⟨-, d, hd⟩ | ⟨hcannot, -⟩
    · exact predicts_of_seen hw hc h hresolve hpatterns hes hd
    · exact absurd hcan hcannot
  · constructor
    · exact fun hp => .inr (hp.silent (silent_of_not_seen hw hc h hresolve hseen))
    · rintro (hs | ⟨hq, ha⟩)
      · exact absurd hs hseen
      · exact predicts_of_silent hq ha fun hs => queries_ne_nil_of_success hw hc h hs hq

/-- A disk with the single route file `app/route.ts`. -/
def oneRoute : Disk :=
  ⟨.directory [("app".toList, .directory [("route.ts".toList,
    .file ("export const GET".toList.map fun c => c.toNat.toUInt8))])], []⟩

theorem wellFormed_oneRoute : oneRoute.WellFormed := by
  have happ : FileName.Legal "app".toList := by constructor <;> decide +kernel
  have hroute : FileName.Legal "route.ts".toList := by constructor <;> decide +kernel
  exact ⟨⟨by decide +kernel, happ, ⟨by decide +kernel, hroute, trivial, trivial⟩, trivial⟩, rfl⟩

/-- A call on a disk. -/
def callOn (disk : Disk) : Invocation :=
  { arguments := [], env := [], disk, clock := [], color := false
    registry := .builtin, answer := fun _ => .failure [] }

/-- A generation for a directory. -/
def generateIn (dir : Path) : GenerateCall :=
  { dir, outputFile := .ofString "openapi", format := "yaml".toList, routes := none, info := default
    servers := none, provider := defaultProviderName, model := none, key := some ['k']
    concurrency := 1, verbose := false }

/-- The options of the generation for `app`. -/
def belowApp : GeneratorOptions :=
  { dir := mixedRoot, outputFile := ⟨.root, ["openapi".toList]⟩, key := some ['k']
    info := some default, servers := some Server.usual, concurrency := 1 }

/-- A place for that generation where every route is described. -/
def describedOn (disk : Disk) : Workplace :=
  { (callOn disk).workplace with describer := some ⟨[], fun _ => ⟨1, .ok default, none⟩⟩ }

/-- The rows of the routes below `app`. -/
def rowsOn (disk : Disk) : List Log.Row :=
  ListCall.rows ⟨.ofString "app", none⟩ (callOn disk).limits.listing disk

/-- The calls for files of all kinds are predicted, and a success is predicted with its document. -/
theorem predicts_mixed_routes :
    (generateIn (.ofString "app")).options? .builtin [] [] = some belowApp ∧
      Predicts (rowsOn mixedRoutes) (.ofLimit 259) mixedRoutes belowApp.format
        (generate (describedOn mixedRoutes) belowApp) ∧
      ((generate (describedOn mixedRoutes) belowApp).queries.map RouteQuery.route).Perm
        ["GET /accounts".toList, "POST /accounts".toList, "PUT /users".toList] ∧
      Predicts (rowsOn oneRoute) (.ofLimit 259) oneRoute belowApp.format
        (generate (describedOn oneRoute) belowApp) ∧
      (generate (describedOn oneRoute) belowApp).entries.any isSuccess := by
  have hpredicts : ∀ (tree : FileTree) (es : List (FileName × FileTree)),
      let disk : Disk := ⟨tree, []⟩
      disk.WellFormed → disk.find (.ofString "app") = .ok (.directory es) →
        disk.find mixedRoot = .ok (.directory es) →
        Route.searchFault? 970 (.ofString "app") (.directory es) = none →
        Route.searchFault? 950 mixedRoot (.directory es) = none →
        Predicts (rowsOn disk) (.ofLimit 259) disk belowApp.format
          (generate (describedOn disk) belowApp) := by
    intro tree es disk hw hfound htaken hlisted hsearched
    refine (predicts_iff (callOn disk) [] (generateIn (.ofString "app")) ⟨.ofString "app", none⟩ rfl rfl
      rfl rfl (by decide) hw (describedOn disk) rfl rfl).mpr (.inl ⟨⟨es, hfound, ?_, ?_⟩, nofun⟩)
    · exact Route.searchable_of_find hw hfound hlisted
    · exact Route.searchable_of_find hw htaken hsearched
  have hqueries := queries_generate (w := describedOn mixedRoutes) (o := belowApp)
    wellFormed_mixedRoutes (by decide) ⟨rfl, rfl, searchable_mixed⟩ rfl
  rw [selected_mixed rfl] at hqueries
  refine ⟨rfl, ?_, ?_, ?_, by decide +kernel⟩
  · exact hpredicts _ _ wellFormed_mixedRoutes rfl rfl (by decide +kernel) (by decide +kernel)
  · exact ((hqueries.trans (.of_eq (due_mixed _))).map RouteQuery.route).trans
      (.of_eq (by decide +kernel))
  · exact hpredicts _ _ wellFormed_oneRoute rfl rfl (by decide +kernel) (by decide +kernel)

/-- A step upwards out of a directory that does not exist is taken by `generate` and stops
`list-routes`. -/
theorem not_predicts_step_upwards :
    ∃ o, (generateIn (.ofString "none/../app")).options? .builtin [] [] = some o ∧
      ¬ Predicts (ListCall.rows ⟨.ofString "none/../app", none⟩ 970 oneRoute) (.ofLimit 259) oneRoute
        o.format (generate (describedOn oneRoute) o) := by
  refine ⟨_, rfl, ?_⟩
  intro h
  have hrows : ListCall.rows ⟨.ofString "none/../app", none⟩ 970 oneRoute = [] := by decide +kernel
  have hcall := (h.calls "GET /".toList).mp (by decide +kernel)
  rw [hrows] at hcall
  exact absurd hcall (by decide)

end CommandLine
end RouteScribe
