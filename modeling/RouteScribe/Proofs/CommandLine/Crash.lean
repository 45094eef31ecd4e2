import RouteScribe.Proofs.Generation.Failure

/-! # Calls that do not crash

Every call of the program ends with the exit code 0, 1 or 2; a crash is the failure that no message
reports.  `Invocation.Sound` lists what keeps a call from crashing: the environment files can be
loaded, the paths hold no NUL, looking for the directory of `list-routes` meets no name that is too
long, its search meets no directory that lies too deep, and the generation of `generate` is
manageable.  Nothing else can go wrong (`run_clean_iff`). -/

namespace RouteScribe
namespace CommandLine

/-- The call has ended with an exit code of the program and without a crash. -/
def Finished.Clean (f : Finished) : Prop := f.crash = none ∧ f.exitCode ≤ 2

/-! ### What the arguments ask for -/

/-- The command that arguments name, with the arguments behind it. -/
def called? (arguments : List (List Char)) : Option (Command × List (List Char)) :=
  match Options.parse [.showHelp] false arguments {} with
  | .error _ => none
  | .ok p =>
    if p.has "help" then none
    else
      match p.rest with
      | [] => none
      | name :: rest => (command? name).map fun c => (c, rest)

theorem eq_of_called? {arguments rest : List (List Char)} {c : Command}
    (h : called? arguments = some (c, rest)) : c = generateCommand ∨ c = listCommand := by
  unfold called? at h
  split at h
  · cases h
  · split at h
    · cases h
    · split at h
      · cases h
      · obtain ⟨c', hc, he⟩ := Option.map_eq_some_iff.mp h
        cases he
        simpa [commands] using List.mem_of_find?_eq_some hc

/-- The number of files at once is left out, or it is one that is taken. -/
def Parsed.CountIsTaken (p : Parsed) : Prop :=
  ∀ v, p.value? "concurrency" = some v → ∃ n, countOf countOption v = .ok n

/-- The value of an option with a usual value. -/
def Parsed.valueOr (p : Parsed) (option : String) (usual : List Char) : List Char :=
  (p.value? option).getD usual

/-- The environment files of the working directory, loaded in turn. -/
def Invocation.loaded (i : Invocation) : Except EnvFile.LoadError Unit × EnvFile.Loaded :=
  EnvFile.load i.disk ⟨.root, i.disk.here⟩ i.env

/-- The call comes to a command with settings, in an environment that has been loaded. -/
structure Invocation.Asks (i : Invocation) (c : Command) (env : Environment) (p : Parsed) :
    Prop where
  named : ∃ arguments, called? i.arguments = some (c, arguments) ∧
    Options.parse c.allOptions true arguments {} = .ok p
  loads : i.loaded.1 = .ok ()
  env : i.loaded.2.env = env
  noHelp : p.has "help" = false

/-- The paths that `generate` is given hold no NUL. -/
def Parsed.PathsNulFree (p : Parsed) : Prop :=
  '\x00' ∉ p.valueOr "dir" usualDir ∧ '\x00' ∉ p.valueOr "output-file" "openapi".toList

/-- Nothing makes `generate` crash with these settings. -/
structure GenerateCall.Safe (i : Invocation) (env : Environment) (p : Parsed) : Prop where
  /-- The paths hold no NUL, or the settings are refused before they are looked at. -/
  paths : p.CountIsTaken → p.PathsNulFree
  /-- Nothing escapes from the generation. -/
  manageable : p.rest = [] → ∀ call, GenerateCall.ofParsed env p = .ok call →
    ∀ o, call.options? i.registry env i.disk.here = some o → Manageable i.workplace o

/-- Nothing makes `list-routes` crash with these settings. -/
structure ListCall.Safe (i : Invocation) (p : Parsed) : Prop where
  /-- The path holds no NUL. -/
  path : '\x00' ∉ p.valueOr "dir" usualDir
  /-- The disk can tell whether it is a directory. -/
  reached : p.rest = [] → ∀ fault,
    i.disk.isDirectory (.ofChars (p.valueOr "dir" usualDir)) ≠ .error fault
  /-- The search meets no directory that lies too deep. -/
  shallow : p.rest = [] → Route.locate i.limits.listing i.disk
    (.ofChars (p.valueOr "dir" usualDir)) ≠ .error .tooDeep

/-- Nothing that the call comes to makes it crash. -/
structure Invocation.Sound (i : Invocation) : Prop where
  /-- The environment files can be loaded when a command is named. -/
  environment : (called? i.arguments).isSome → i.loaded.1 = .ok ()
  generating : ∀ env p, i.Asks generateCommand env p → GenerateCall.Safe i env p
  listing : ∀ env p, i.Asks listCommand env p → ListCall.Safe i p

/-! ### Calls that are read -/

theorem pathOf_eq (value : List Char) :
    pathOf value = if '\x00' ∈ value then .error .nullPath else .ok (Path.ofChars value) := by
  simp [pathOf]

theorem one_le_of_countOf {v : List Char} {n : Int} (h : countOf countOption v = .ok n) :
    1 ≤ n := by
  unfold countOf at h
  split at h
  · cases h
  · split at h
    · cases h
    · next hn =>
        cases h
        exact Int.not_lt.mp hn

theorem bind_paths {p : Parsed} (h : p.PathsNulFree) (make : Path → Path → GenerateCall) :
    ((pathOf (p.valueOr "dir" usualDir)).bind fun dir =>
      (pathOf (p.valueOr "output-file" "openapi".toList)).bind fun file => .ok (make dir file)) =
      .ok (make (.ofChars (p.valueOr "dir" usualDir))
        (.ofChars (p.valueOr "output-file" "openapi".toList))) := by
  rw [pathOf_eq, if_neg h.1, pathOf_eq, if_neg h.2]
  rfl

theorem bind_paths_of_not {p : Parsed} (h : ¬ p.PathsNulFree)
    (make : Path → Path → GenerateCall) :
    ((pathOf (p.valueOr "dir" usualDir)).bind fun dir =>
      (pathOf (p.valueOr "output-file" "openapi".toList)).bind fun file => .ok (make dir file)) =
      .error .nullPath := by
  rw [pathOf_eq, pathOf_eq]
  by_cases hd : '\x00' ∈ p.valueOr "dir" usualDir
  · rw [if_pos hd]
    rfl
  · have hf : '\x00' ∈ p.valueOr "output-file" "openapi".toList := by
      by_contra hf
      exact h ⟨hd, hf⟩
    rw [if_neg hd, if_pos hf]
    rfl

/-- The number of files at once is read first, and then the paths. -/
theorem ofParsed_cases (env : Environment) (p : Parsed) :
    (¬ p.CountIsTaken ∧ ∃ e, GenerateCall.ofParsed env p = .error (.usage e)) ∨
    (p.CountIsTaken ∧ ¬ p.PathsNulFree ∧ GenerateCall.ofParsed env p = .error .nullPath) ∨
    p.PathsNulFree ∧ ∃ call, GenerateCall.ofParsed env p = .ok call ∧ 1 ≤ call.concurrency ∧
      call.outputFile.NulFree := by
  unfold GenerateCall.ofParsed Parsed.CountIsTaken
  have hl : (1 : Int) ≤ Pool.usualLimit := by decide
  cases p.value? "concurrency" with
  | none =>
      by_cases hp : p.PathsNulFree
      · exact .inr (.inr ⟨hp, _, bind_paths hp _, hl, Path.nulFree_ofChars hp.2⟩)
      · exact .inr (.inl ⟨by simp, hp, bind_paths_of_not hp _⟩)
  | some v =>
      dsimp only
      cases hv : countOf countOption v with
      | error e => exact .inl ⟨by simp [hv], e, rfl⟩
      | ok n =>
          have hn := one_le_of_countOf hv
          by_cases hp : p.PathsNulFree
          · exact .inr (.inr ⟨hp, _, bind_paths hp _, hn, Path.nulFree_ofChars hp.2⟩)
          · exact .inr (.inl ⟨by simp [hv], hp, bind_paths_of_not hp _⟩)

theorem outputFile_of_options? {c : GenerateCall} {registry : Registry} {env : Environment}
    {here : List FileName} {o : GeneratorOptions} (h : c.options? registry env here = some o) :
    o.outputFile = c.outputFile.resolve here := by
  unfold GenerateCall.options? at h
  split at h
  · obtain ⟨servers, -, h⟩ := Option.bind_eq_some_iff.mp h
    cases h
    rfl
  · cases h
    rfl

/-! ### Commands that are carried out -/

variable {i : Invocation} {env : Environment} {p : Parsed}

theorem clean_said {exitCode : Nat} (h : exitCode ≤ 2) (toErr : Bool) (ls : List (List Char)) :
    (i.said exitCode toErr ls).Clean := ⟨rfl, h⟩

theorem not_clean_crashed (before : Log.Output) (crash : Crash) :
    ¬ (i.crashed before crash).Clean := fun h => nomatch h.1

/-- A call that has been read is clean if nothing is left of its arguments and the command is clean.
-/
theorem clean_carryOut_iff {α : Type} (c : Command) (call : Except CallError α)
    (run : α → Finished) : (i.carryOut c p call run).Clean ↔
      call ≠ .error .nullPath ∧ ∀ x, call = .ok x → p.rest = [] → (run x).Clean := by
  unfold Invocation.carryOut
  cases call with
  | error e =>
      cases e with
      | usage e => exact iff_of_true (clean_said (Nat.le_refl 2) _ _) (by simp)
      | nullPath => exact iff_of_false (not_clean_crashed _ _) (by simp)
  | ok x =>
      by_cases hp : p.rest = []
      · simp [hp]
      · have hp' : p.rest.isEmpty = false := by simpa using hp
        simp only [hp', Bool.false_eq_true, if_false]
        exact iff_of_true (clean_said (Nat.le_refl 2) _ _) (by simp [hp])

theorem locate_eq_unreachable_iff (room : Nat) {d : Disk} {root : Path} {fault : FileFault} :
    Route.locate room d root = .error (.unreachable fault) ↔ d.isDirectory root = .error fault := by
  unfold Route.locate
  cases d.isDirectory root with
  | error f => simp
  | ok b =>
      cases b with
      | false => simp
      | true =>
          dsimp only
          split
          · simp
          · split
            · next fault _ => cases fault <;> simp [Route.DiscoveryError.ofFault]
            · simp

/-- Showing routes is clean unless the disk cannot tell whether the directory is one, or the search
goes too deep. -/
theorem clean_listCall_iff (c : ListCall) :
    (c.run i).Clean ↔ (∀ fault, i.disk.isDirectory c.dir ≠ .error fault) ∧
      Route.locate i.limits.listing i.disk c.dir ≠ .error .tooDeep := by
  simp only [ne_eq, ← locate_eq_unreachable_iff i.limits.listing]
  have hfailed : ∀ message, (i.failed {} message).Clean := fun _ => ⟨rfl, Nat.le_succ 1⟩
  unfold ListCall.run ListCall.files
  cases Route.locate i.limits.listing i.disk c.dir with
  | error e =>
      cases e with
      | notDirectory path => exact iff_of_true (hfailed _) (by simp)
      | unreadable path fault => exact iff_of_true (hfailed _) (by simp)
      | unreachable fault => exact iff_of_false (not_clean_crashed _ _) (by simp)
      | tooDeep => exact iff_of_false (not_clean_crashed _ _) (by simp)
  | ok found =>
      refine iff_of_true ?_ (by simp)
      dsimp only [Except.map]
      split
      · next h => cases h
      · exact clean_said (Nat.zero_le 2) _ _
      · exact ⟨rfl, Nat.zero_le 2⟩

/-- Making a document is clean if the generation is manageable. -/
theorem clean_generateCall_iff (hw : i.disk.WellFormed) {c : GenerateCall}
    (hc : 1 ≤ c.concurrency) (hb : c.outputFile.NulFree) :
    (c.run i env).Clean ↔ ∀ o, c.options? i.registry env i.disk.here = some o →
      Manageable i.workplace o := by
  unfold GenerateCall.run
  cases ho : c.options? i.registry env i.disk.here with
  | none => exact iff_of_true ⟨rfl, Nat.le_succ 1⟩ (by simp)
  | some o =>
      have hcount : 1 ≤ o.concurrency := (routes_of_options? ho).2.2 ▸ hc
      have hfile : o.outputFile.NulFree := by
        rw [outputFile_of_options? ho]
        refine hb.resolve fun n hn => ?_
        exact (hw.tree.legal (Option.isSome_of_eq_some hw.here) n hn).no_null
      simp only [Option.some.injEq, forall_eq']
      refine Iff.trans ?_ (expected_generate_iff (w := i.workplace) hw hcount hfile)
      cases hg : (generate i.workplace o).outcome with
      | ok path => exact iff_of_true ⟨rfl, Nat.zero_le 2⟩ (by simp)
      | error e =>
          have he := isReported_generate_iff (w := i.workplace) hw hcount hg
          simp only [Except.error.injEq, forall_eq']
          rw [← he]
          cases hr : isReported e with
          | true => exact iff_of_true ⟨rfl, Nat.le_succ 1⟩ rfl
          | false => exact iff_of_false (fun h => nomatch h.1) (by simp)

theorem clean_generate_iff (hw : i.disk.WellFormed) (env : Environment) (p : Parsed) :
    (i.carryOut generateCommand p (GenerateCall.ofParsed env p) (GenerateCall.run i env)).Clean ↔
      GenerateCall.Safe i env p := by
  rw [clean_carryOut_iff]
  rcases ofParsed_cases env p with ⟨hcount, e, he⟩ | ⟨hcount, hpaths, he⟩ |
    ⟨hpaths, call, he, hone, hfile⟩
  · rw [he]
    refine iff_of_true (by simp) ⟨fun h => absurd h hcount, ?_⟩
    intro _ call hcall
    rw [he] at hcall
    cases hcall
  · rw [he]
    exact iff_of_false (by simp) fun h => hpaths (h.paths hcount)
  · rw [he]
    constructor
    · rintro ⟨-, h⟩
      refine ⟨fun _ => hpaths, ?_⟩
      intro hr call' hcall
      cases he.symm.trans hcall
      exact (clean_generateCall_iff hw hone hfile).mp (h call rfl hr)
    · intro h
      refine ⟨by simp, ?_⟩
      intro call' hcall hr
      cases hcall
      exact (clean_generateCall_iff hw hone hfile).mpr (h.manageable hr call he)

theorem clean_list_iff (p : Parsed) :
    (i.carryOut listCommand p (ListCall.ofParsed p) (ListCall.run i)).Clean ↔
      ListCall.Safe i p := by
  have heq : ListCall.ofParsed p =
      (pathOf (p.valueOr "dir" usualDir)).bind fun dir => .ok ⟨dir, p.value? "routes"⟩ := rfl
  rw [clean_carryOut_iff, heq, pathOf_eq]
  by_cases hd : '\x00' ∈ p.valueOr "dir" usualDir
  · rw [if_pos hd]
    exact iff_of_false (fun h => h.1 rfl) fun h => h.path hd
  · rw [if_neg hd]
    constructor
    · rintro ⟨-, h⟩
      exact ⟨hd, fun hr => ((clean_listCall_iff _).mp (h _ rfl hr)).1,
        fun hr => ((clean_listCall_iff _).mp (h _ rfl hr)).2⟩
    · intro h
      refine ⟨nofun, ?_⟩
      intro call hcall hr
      cases hcall
      exact (clean_listCall_iff _).mpr ⟨h.reached hr, h.shallow hr⟩

/-! ### The whole call -/

theorem clean_of_called?_eq_none (h : called? i.arguments = none) : i.run.Clean := by
  have htwo : ∀ toErr ls, (i.said 2 toErr ls).Clean := clean_said (Nat.le_refl 2)
  have hzero : ∀ toErr ls, (i.said 0 toErr ls).Clean := clean_said (Nat.zero_le 2)
  unfold called? at h
  unfold Invocation.run
  split
  · exact htwo _ _
  · split
    · exact htwo _ _
    · next p hp =>
        rw [hp] at h
        split
        · exact hzero _ _
        · next hh =>
            simp only [if_neg hh] at h
            split
            · exact htwo _ _
            · next name arguments hr =>
                rw [hr] at h
                have hc : command? name = none := by simpa using h
                rw [hc]
                dsimp only [Invocation.noCommand]
                split
                · exact htwo _ _
                · split
                  · exact hzero _ _
                  · exact htwo _ _

theorem run_of_called? {c : Command} {arguments : List (List Char)}
    (h : called? i.arguments = some (c, arguments)) : i.run = i.runLoaded c arguments := by
  have hne : i.arguments.isEmpty = false := by
    cases ha : i.arguments with
    | nil =>
        rw [ha] at h
        cases h
    | cons => rfl
  unfold called? at h
  unfold Invocation.run
  rw [hne]
  simp only [Bool.false_eq_true, if_false]
  cases hp : Options.parse [.showHelp] false i.arguments {} with
  | error e =>
      rw [hp] at h
      cases h
  | ok p =>
      simp only [hp] at h
      cases hh : p.has "help" with
      | true =>
          rw [hh] at h
          cases h
      | false =>
          rw [hh] at h
          cases hr : p.rest with
          | nil =>
              rw [hr] at h
              cases h
          | cons name rest =>
              rw [hr] at h
              obtain ⟨c', hc, he⟩ := Option.map_eq_some_iff.mp h
              cases he
              simp [hh, hr, hc]

/-- A command that is named runs in the environment of the files that are loaded. -/
theorem clean_runLoaded_iff (c : Command) (arguments : List (List Char)) :
    (i.runLoaded c arguments).Clean ↔
      i.loaded.1 = .ok () ∧ (i.runCommand i.loaded.2.env c arguments).Clean := by
  unfold Invocation.runLoaded Invocation.loaded
  cases hl : EnvFile.load i.disk ⟨.root, i.disk.here⟩ i.env with
  | mk outcome l =>
      cases outcome with
      | error e => exact iff_of_false (not_clean_crashed _ _) (by simp)
      | ok u => exact ⟨fun h => ⟨rfl, h⟩, fun h => h.2⟩

/-- A command is clean if it is clean with the settings that it is given. -/
theorem clean_runCommand_iff (c : Command) (arguments : List (List Char)) :
    (i.runCommand env c arguments).Clean ↔
      ∀ p, Options.parse c.allOptions true arguments {} = .ok p → p.has "help" = false →
        (if c.name = generateCommand.name then
          i.carryOut c p (GenerateCall.ofParsed env p) (GenerateCall.run i env)
        else i.carryOut c p (ListCall.ofParsed p) (ListCall.run i)).Clean := by
  unfold Invocation.runCommand
  cases Options.parse c.allOptions true arguments {} with
  | error e => exact iff_of_true (clean_said (Nat.le_refl 2) _ _) (by simp)
  | ok p =>
      cases hh : p.has "help" with
      | true => exact iff_of_true (by simpa [hh] using clean_said (Nat.zero_le 2) _ _) (by simp [hh])
      | false => simp [hh]

theorem asks_iff {c c' : Command} {arguments : List (List Char)}
    (h : called? i.arguments = some (c, arguments)) : i.Asks c' env p ↔
      c' = c ∧ Options.parse c.allOptions true arguments {} = .ok p ∧ i.loaded.1 = .ok () ∧
        i.loaded.2.env = env ∧ p.has "help" = false := by
  constructor
  · rintro ⟨⟨arguments', hc, hp⟩, hl, he, hh⟩
    cases h.symm.trans hc
    exact ⟨rfl, hp, hl, he, hh⟩
  · rintro ⟨rfl, hp, hl, he, hh⟩
    exact ⟨⟨arguments, h, hp⟩, hl, he, hh⟩

/-- **Which calls do not crash.**  A call ends with the exit code 0, 1 or 2 and without a crash
exactly if nothing that it comes to is among the few things that no message reports. -/
theorem run_clean_iff (i : Invocation) (hw : i.disk.WellFormed) : i.run.Clean ↔ i.Sound := by
  cases hc : called? i.arguments with
  | none =>
      refine iff_of_true (clean_of_called?_eq_none hc) ⟨by simp [hc], ?_, ?_⟩
      all_goals
        rintro env p ⟨⟨arguments, h, -⟩, -⟩
        rw [hc] at h
        cases h
  | some named =>
      obtain ⟨c, arguments⟩ := named
      rw [run_of_called? hc, clean_runLoaded_iff, clean_runCommand_iff]
      constructor
      · rintro ⟨hl, h⟩
        refine ⟨fun _ => hl, ?_, ?_⟩
        · intro env p ha
          obtain ⟨rfl, hp, -, rfl, hh⟩ := (asks_iff hc).mp ha
          exact (clean_generate_iff hw _ p).mp (h p hp hh)
        · intro env p ha
          obtain ⟨rfl, hp, -, rfl, hh⟩ := (asks_iff hc).mp ha
          exact (clean_list_iff p).mp (h p hp hh)
      · intro h
        have hl := h.environment (by rw [hc]; rfl)
        refine ⟨hl, ?_⟩
        intro p hp hh
        rcases eq_of_called? hc with rfl | rfl
        · exact (clean_generate_iff hw _ p).mpr
            (h.generating _ p ((asks_iff hc).mpr ⟨rfl, hp, hl, rfl, hh⟩))
        · exact (clean_list_iff p).mpr
            (h.listing _ p ((asks_iff hc).mpr ⟨rfl, hp, hl, rfl, hh⟩))

/-- A call that shows the routes of `app`. -/
def listApp : Invocation :=
  { callOn oneRoute with arguments := ["list-routes".toList, "--dir".toList, "app".toList] }

theorem called?_listApp :
    called? listApp.arguments = some (listCommand, ["--dir".toList, "app".toList]) := rfl

/-- This call is clean. -/
theorem clean_listApp : listApp.disk.WellFormed ∧ listApp.run.Clean := by
  refine ⟨wellFormed_oneRoute, (run_clean_iff listApp wellFormed_oneRoute).mpr ⟨?_, ?_, ?_⟩⟩
  · intro _
    decide +kernel
  · intro env p ha
    have hname := congrArg Command.name ((asks_iff called?_listApp).mp ha).1
    exact absurd hname (by decide)
  · intro env p ha
    obtain ⟨-, hp, -⟩ := (asks_iff called?_listApp).mp ha
    cases (show _ = Except.ok p from hp)
    refine ⟨by decide +kernel, fun _ fault hf => ?_, fun _ hl => ?_⟩
    · have hd : listApp.disk.isDirectory (.ofString "app") = .ok true := by decide +kernel
      cases hd.symm.trans hf
    · have hfound : Route.locate 970 oneRoute (.ofString "app") = .ok ["route.ts".toList] := by
        decide +kernel
      cases hfound.symm.trans hl

/-- The same call where the file `.env` is not text. -/
def listWithEnv : Invocation :=
  { listApp with disk := ⟨.directory [(".env".toList, .file [0xFF])], []⟩ }

/-- No message reports that this file cannot be loaded. -/
theorem not_clean_listWithEnv : listWithEnv.disk.WellFormed ∧ ¬ listWithEnv.run.Clean := by
  have hname : FileName.Legal ".env".toList := by constructor <;> decide +kernel
  refine ⟨⟨⟨by decide +kernel, hname, trivial, trivial⟩, rfl⟩, ?_⟩
  intro h
  rw [run_of_called? (i := listWithEnv) called?_listApp, clean_runLoaded_iff] at h
  exact absurd h.1 (by decide +kernel)

end CommandLine
end RouteScribe
