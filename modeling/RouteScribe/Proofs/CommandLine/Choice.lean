import RouteScribe.Proofs.CommandLine.Crash
import RouteScribe.Proofs.Settings.Loading

/-! # Which provider, model and key a run uses

A setting of `generate` comes from an option, and else from a variable, whose value is that of the
process or else the first one in the environment files (`Invocation.bound?`).  A variable that is
set to an empty text keeps it and so hides the files, but it chooses no provider and no model.  An
option with an empty key counts as none, and one with an empty model asks for the default model.
`Uses` says what a run does with the choice, and `settings_precedence` that every call of `generate`
does so or is refused before anything is done. -/

namespace RouteScribe
namespace CommandLine

/-! ### The choice -/

/-- The text unless there is none or an empty one. -/
def nonempty? : Option (List Char) → Option (List Char)
  | some (c :: rest) => some (c :: rest)
  | _ => none

/-- The value of a variable for a call, where these are the texts of the environment files: that of
the process, or else the first in the files. -/
def Invocation.bound? (i : Invocation) (texts : List (Option (List Char))) (name : List Char) :
    Option (List Char) :=
  (i.env.get? name).or (EnvFile.firstValue? texts name)

namespace Parsed

variable (p : Parsed) (bound? : List Char → Option (List Char)) (provider : Provider)

/-- The chosen provider: that of the option, or else of the variable if it is not empty, or else the
usual one. -/
def chosenProvider : List Char :=
  ((p.value? "provider").or (nonempty? (bound? "LLM_PROVIDER".toList))).getD "anthropic".toList

/-- The chosen model of a provider: that of the option, or else of the variable, and the default one
of the provider in the place of an empty one or none. -/
def chosenModel : List Char :=
  (nonempty? ((p.value? "model").or (bound? "LLM_MODEL".toList))).getD provider.defaultModel

/-- The chosen key for a provider: that of the option if it is not empty, or else the value of the
variable of this provider. -/
def chosenKey : Option (List Char) :=
  (nonempty? (p.value? "api-key")).or
    (if provider.keyVariable = [] then none else bound? provider.keyVariable)

/-- No line of servers is given, or one with a server in it. -/
def HasServers : Prop := ∀ line, p.value? "servers" = some line → (Server.parse? line).isSome

/-- The arguments of `generate` can be carried out. -/
structure IsReady : Prop where
  rest : p.rest = []
  count : p.CountIsTaken
  paths : p.PathsNulFree
  servers : p.HasServers

end Parsed

/-- The call generates a document with these options, in which the provider, the model and the key
are the chosen ones. -/
structure Invocation.Uses (i : Invocation) (bound? : List Char → Option (List Char)) (p : Parsed)
    (o : GeneratorOptions) : Prop where
  /-- The call succeeds if the generation does. -/
  exitCode : i.run.exitCode = 0 ↔ ∃ file, (generate i.workplace o).outcome = .ok file
  /-- The call does to the disk what the generation does. -/
  disk : i.run.disk = (generate i.workplace o).disk
  provider : o.provider = p.chosenProvider bound?
  /-- For each call of the generation a known provider is asked, as far as there is something to ask:
  for the chosen model, with the chosen key. -/
  requests : ∀ provider, i.registry.get? o.provider = some provider →
    i.run.requests = (generate i.workplace o).queries.filterMap fun q => (q.request i.disk
      ⟨provider.fullName (p.chosenModel bound? provider), p.chosenKey bound? provider,
        provider.params⟩).toOption
  /-- Nothing else is asked: every request of the call is for this model, with this key. -/
  asked : ∀ request ∈ i.run.requests, ∃ provider, i.registry.get? o.provider = some provider ∧
    request.model = provider.fullName (p.chosenModel bound? provider) ∧
      request.key = p.chosenKey bound? provider
  /-- An unknown provider is refused. -/
  unknown : i.registry.get? o.provider = none → (generate i.workplace o).outcome =
    .error (.configuration (.unknownProvider o.provider i.registry.names))

/-! ### Settings that are read -/

variable {i : Invocation} {env : Environment} {p : Parsed}

theorem ofParsed_settings (env : Environment) (hcount : p.CountIsTaken) (hpaths : p.PathsNulFree) :
    ∃ call, GenerateCall.ofParsed env p = .ok call ∧
      call.provider = ((p.value? "provider").or
        (nonempty? (env.get? "LLM_PROVIDER".toList))).getD "anthropic".toList ∧
      call.model = (p.value? "model").or (nonempty? (env.get? "LLM_MODEL".toList)) ∧
      call.key = p.value? "api-key" ∧ call.servers = p.value? "servers" := by
  unfold GenerateCall.ofParsed
  have hor (x y : Option (List Char)) : (x.orElse fun _ => y) = x.or y := Option.orElse_eq_or
  cases hc : p.value? "concurrency" with
  | none => exact ⟨_, bind_paths hpaths _, by rw [← hor]; rfl, by rw [← hor]; rfl, rfl, rfl⟩
  | some v =>
      obtain ⟨n, hn⟩ := hcount v hc
      dsimp only
      rw [hn]
      exact ⟨_, bind_paths hpaths _, by rw [← hor]; rfl, by rw [← hor]; rfl, rfl, rfl⟩

theorem countIsTaken_of_ofParsed {c : GenerateCall} (h : GenerateCall.ofParsed env p = .ok c) :
    p.CountIsTaken := by
  rcases ofParsed_cases env p with ⟨-, e, he⟩ | ⟨hcount, -, -⟩ | ⟨hpaths, -⟩
  · cases he.symm.trans h
  · exact hcount
  · intro v hv
    unfold GenerateCall.ofParsed at h
    rw [hv] at h
    cases hn : countOf countOption v with
    | ok n => exact ⟨n, rfl⟩
    | error e =>
        dsimp only at h
        rw [hn] at h
        cases h

theorem options?_settings {c : GenerateCall} (hservers : ∀ line, c.servers = some line →
    (Server.parse? line).isSome) (registry : Registry) (env : Environment) (here : List FileName) :
    ∃ o, c.options? registry env here = some o ∧ o.provider = c.provider ∧ o.model = c.model ∧
      o.key = registry.resolveKey env c.provider c.key := by
  unfold GenerateCall.options?
  cases hs : c.servers with
  | none => exact ⟨_, rfl, rfl, rfl, rfl⟩
  | some line =>
      obtain ⟨servers, hparse⟩ := Option.isSome_iff_exists.mp (hservers line hs)
      dsimp only
      rw [hparse]
      exact ⟨_, rfl, rfl, rfl, rfl⟩

theorem options?_eq_none {c : GenerateCall} {line : List Char} (hs : c.servers = some line)
    (hparse : Server.parse? line = none) (registry : Registry) (env : Environment)
    (here : List FileName) : c.options? registry env here = none := by
  unfold GenerateCall.options?
  rw [hs]
  dsimp only
  rw [hparse]
  rfl

/-- The call has failed before anything was done. -/
structure Invocation.DoesNothing (i : Invocation) (f : Finished) : Prop where
  exitCode : f.exitCode ≠ 0
  disk : f.disk = i.disk
  requests : f.requests = []

/-- A call ends in the same way as another, apart from its output. -/
structure Finished.EndsAs (f g : Finished) : Prop where
  exitCode : f.exitCode = g.exitCode
  disk : f.disk = g.disk
  requests : f.requests = g.requests

theorem Finished.EndsAs.doesNothing {f g : Finished} (h : f.EndsAs g) (hg : i.DoesNothing g) :
    i.DoesNothing f :=
  ⟨h.exitCode ▸ hg.exitCode, h.disk.trans hg.disk, h.requests.trans hg.requests⟩

theorem doesNothing_misusedBy (c : Command) (e : UsageError) : i.DoesNothing (i.misusedBy c e) :=
  ⟨Nat.succ_ne_zero 1, rfl, rfl⟩

/-- A call that comes to `generate` does what its arguments say. -/
theorem run_of_asks (h : i.Asks generateCommand env p) : i.run.EndsAs
    (i.carryOut generateCommand p (GenerateCall.ofParsed env p) (GenerateCall.run i env)) := by
  obtain ⟨⟨arguments, hcalled, hp⟩, hloads, henv, hhelp⟩ := h
  rw [run_of_called? hcalled]
  unfold Invocation.runLoaded Invocation.runCommand
  unfold Invocation.loaded at hloads henv
  generalize EnvFile.load i.disk ⟨.root, i.disk.here⟩ i.env = r at hloads henv
  obtain ⟨result, l⟩ := r
  cases hloads
  cases henv
  simp only [hp, hhelp, Bool.false_eq_true, if_false, if_true]
  exact ⟨rfl, rfl, rfl⟩

theorem carryOut_of_ofParsed {c : GenerateCall} (hrest : p.rest = [])
    (hc : GenerateCall.ofParsed env p = .ok c) :
    i.carryOut generateCommand p (GenerateCall.ofParsed env p) (GenerateCall.run i env) =
      c.run i env := by
  unfold Invocation.carryOut
  rw [hc, hrest]
  rfl

/-- Arguments that are not ready are refused. -/
theorem doesNothing_of_not_ready (h : ¬ p.IsReady) : i.DoesNothing
    (i.carryOut generateCommand p (GenerateCall.ofParsed env p) (GenerateCall.run i env)) := by
  cases hc : GenerateCall.ofParsed env p with
  | error e =>
      cases e with
      | usage e => exact doesNothing_misusedBy _ e
      | nullPath => exact ⟨Nat.succ_ne_zero 0, rfl, rfl⟩
  | ok c =>
      unfold Invocation.carryOut
      by_cases hrest : p.rest = []
      · have hcount := countIsTaken_of_ofParsed hc
        have hpaths : p.PathsNulFree := by
          rcases ofParsed_cases env p with ⟨-, e, he⟩ | ⟨-, -, he⟩ | ⟨hpaths, -⟩
          · cases he.symm.trans hc
          · cases he.symm.trans hc
          · exact hpaths
        obtain ⟨line, hline, hparse⟩ : ∃ line, p.value? "servers" = some line ∧
            Server.parse? line = none := by
          by_contra hnone
          refine h ⟨hrest, hcount, hpaths, fun line hline => ?_⟩
          by_contra hparse
          exact hnone ⟨line, hline, Option.not_isSome_iff_eq_none.mp hparse⟩
        obtain ⟨c', hc', -, -, -, hservers⟩ := ofParsed_settings env hcount hpaths
        cases hc.symm.trans hc'
        have hopts := options?_eq_none (hservers.trans hline) hparse i.registry env i.disk.here
        simp only [hrest, List.isEmpty_nil, if_true, GenerateCall.run, hopts]
        exact ⟨Nat.succ_ne_zero 0, rfl, rfl⟩
      · simp only [List.isEmpty_iff, hrest, if_false]
        exact doesNothing_misusedBy _ _

theorem run_of_options? {c : GenerateCall} {o : GeneratorOptions}
    (h : c.options? i.registry env i.disk.here = some o) :
    ((c.run i env).exitCode = 0 ↔ ∃ file, (generate i.workplace o).outcome = .ok file) ∧
      (c.run i env).disk = (generate i.workplace o).disk ∧
        (c.run i env).requests = (generate i.workplace o).requests := by
  unfold GenerateCall.run
  rw [h]
  dsimp only
  cases (generate i.workplace o).outcome with
  | ok file => exact ⟨iff_of_true rfl ⟨file, rfl⟩, rfl, rfl⟩
  | error e =>
      refine ⟨iff_of_false ?_ nofun, rfl, rfl⟩
      cases he : isReported e <;> simp [Invocation.failed, Invocation.crashed, he]

/-! ### What the settings mean for a provider -/

theorem chosenModel_eq (p : Parsed) (bound? : List Char → Option (List Char))
    (provider : Provider) :
    provider.model ((p.value? "model").or (nonempty? (bound? "LLM_MODEL".toList))) =
      p.chosenModel bound? provider := by
  unfold Parsed.chosenModel
  rcases p.value? "model" with _ | _ | ⟨c, flag⟩
  · rcases bound? "LLM_MODEL".toList with _ | _ | ⟨c, value⟩ <;> rfl
  · rfl
  · rfl

theorem chosenKey_eq {registry : Registry} {name : List Char} {provider : Provider}
    (h : registry.get? name = some provider) (p : Parsed) (env : Environment) :
    registry.resolveKey env name (p.value? "api-key") = p.chosenKey env.get? provider := by
  have hkey : registry.key? env name =
      if provider.keyVariable = [] then none else env.get? provider.keyVariable := by
    simp [Registry.key?, h, Provider.key?]
  unfold Parsed.chosenKey
  rcases p.value? "api-key" with _ | _ | ⟨c, flag⟩
  · exact hkey
  · exact hkey
  · rfl

/-- A request is for the model of the client, with its key. -/
theorem of_request {q : RouteQuery} {disk : Disk} {client : ModelClient} {request : ModelRequest}
    (h : (q.request disk client).toOption = some request) :
    request.model = client.model ∧ request.key = client.key := by
  cases hr : q.request disk client with
  | error e =>
      rw [hr] at h
      cases h
  | ok r =>
      rw [hr] at h
      cases h
      obtain ⟨source, -, hhandler⟩ := bind_eq_ok_iff.mp hr
      split at hhandler
      · cases hhandler
      · cases hhandler
        exact ⟨rfl, rfl⟩

/-- The request that comes with a description is the one to the client. -/
theorem request_describer (client : ModelClient) (name : List Char) (disk : Disk) (room : Nat)
    (remarks : Remarks) (answer : ModelRequest → ModelReply) (delay : RouteQuery → Nat)
    (q : RouteQuery) :
    ((client.describer name disk room remarks answer delay).describe q).request =
      (q.request disk client).toOption := by
  unfold ModelClient.describer RouteQuery.ask
  dsimp only
  cases q.request disk client <;> rfl

/-- A generation in a call asks a known provider with the model and the key of its options. -/
theorem requests_workplace {o : GeneratorOptions} {provider : Provider}
    (h : i.registry.get? o.provider = some provider) : (generate i.workplace o).requests =
      (generate i.workplace o).queries.filterMap fun q =>
        (q.request i.disk (provider.client o.key o.model)).toOption := by
  rcases requests_generate i.workplace o with ⟨hq, hr⟩ | ⟨d, hd, hr⟩
  · rw [hq, hr]
    rfl
  · obtain ⟨ready, hready, rfl⟩ := map_eq_ok_iff.mp hd
    have hclient : ready.client = provider.client o.key o.model := by
      change i.registry.create o.provider o.key o.model = .ok ready at hready
      rw [Registry.create_of_get? h] at hready
      split at hready
      · cases hready
      · cases hready
        rfl
    rw [hr, ← hclient]
    exact List.filterMap_congr fun q _ => request_describer _ _ _ _ _ _ _ q

/-- Arguments that are ready are carried out with the chosen settings. -/
theorem exists_uses (hasks : i.Asks generateCommand env p) (hp : p.IsReady) :
    ∃ o, i.Uses env.get? p o := by
  obtain ⟨c, hc, hprovider, hmodel, hkey, hline⟩ := ofParsed_settings env hp.count hp.paths
  obtain ⟨o, ho, hoprovider, homodel, hokey⟩ := options?_settings (c := c)
    (fun line hl => hp.servers line (hline ▸ hl)) i.registry env i.disk.here
  have hends : i.run.EndsAs (c.run i env) := carryOut_of_ofParsed hp.rest hc ▸ run_of_asks hasks
  obtain ⟨hexit, hdisk, hrequests⟩ := run_of_options? ho
  have hunknown : i.registry.get? o.provider = none → generate i.workplace o =
      ⟨.error (.configuration (.unknownProvider o.provider i.registry.names)), [], i.disk, [], [], [],
        none⟩ := by
    intro hnone
    have hcheck : i.registry.check o.provider o.key o.format =
        .error (.unknownProvider o.provider i.registry.names) := by
      rw [Registry.check, Registry.find, hnone]
      rfl
    exact generate_rejected (w := i.workplace) hcheck
  have hknown : ∀ provider, i.registry.get? o.provider = some provider → i.run.requests =
      (generate i.workplace o).queries.filterMap fun q => (q.request i.disk
        ⟨provider.fullName (p.chosenModel env.get? provider), p.chosenKey env.get? provider,
          provider.params⟩).toOption := by
    intro provider hget
    rw [hends.requests, hrequests, requests_workplace hget, Provider.client, homodel, hmodel,
      chosenModel_eq, hokey, hkey, ← hoprovider, chosenKey_eq hget]
  refine ⟨o, hends.exitCode ▸ hexit, hends.disk.trans hdisk, hoprovider.trans hprovider, hknown,
    ?_, fun hnone => by rw [hunknown hnone]⟩
  intro request hr
  cases hget : i.registry.get? o.provider with
  | none =>
      rw [hends.requests, hrequests, hunknown hget] at hr
      cases hr
  | some provider =>
      rw [hknown provider hget] at hr
      obtain ⟨q, -, hq⟩ := List.mem_filterMap.mp hr
      exact ⟨provider, rfl, of_request hq⟩

/-- **Where the settings of a run come from.**  The environment files load exactly if the
environment can hold what they add to it.  Then a variable that is set keeps its value, every other
one has its first value in the files, and a call of `generate` uses the provider, the model and the
key that are chosen by its options and by these values, unless its arguments are refused. -/
theorem settings_precedence {i : Invocation} {texts : List (Option (List Char))}
    (hshow : List.Forall₂ (fun name text =>
      EnvFile.Shows i.disk (Path.join ⟨.root, i.disk.here⟩ (Path.ofChars name)) text)
      EnvFile.usualNames texts) (hplain : EnvFile.Plain i.env texts) :
    (i.loaded.1 = .ok () ↔ ∀ name v, i.env.get? name = none →
      EnvFile.firstValue? texts name = some v → EnvFile.CanBind name v) ∧
    (i.loaded.1 = .ok () → ∀ name, i.loaded.2.env.get? name = i.bound? texts name) ∧
    ∀ env p, i.Asks generateCommand env p →
      (p.IsReady → ∃ o, i.Uses (i.bound? texts) p o) ∧ (¬ p.IsReady → i.DoesNothing i.run) := by
  obtain ⟨hok, henv⟩ := EnvFile.load_precedence hshow hplain
  refine ⟨hok, henv, fun env p hasks => ⟨fun hready => ?_, fun hready => ?_⟩⟩
  · have hbound : env.get? = i.bound? texts := by
      funext name
      rw [← hasks.env]
      exact henv hasks.loads name
    exact hbound ▸ exists_uses hasks hready
  · exact (run_of_asks hasks).doesNothing (doesNothing_of_not_ready hready)

/-- The texts of two environment files, and of two that are missing. -/
def layeredTexts : List (Option (List Char)) :=
  [some "OPENAI_API_KEY=one\nOPENAI_API_KEY=two\n".toList,
    some "LLM_PROVIDER=openai\nOPENAI_API_KEY=three\n".toList, none, none]

/-- A call of `generate` for one route, where a model is set but empty and the files name a provider
and keys. -/
def layeredCall : Invocation :=
  { callOn ⟨.directory [
      (".env".toList, .file (asciiBytes "OPENAI_API_KEY=one\nOPENAI_API_KEY=two\n")),
      (".env.local".toList, .file (asciiBytes "LLM_PROVIDER=openai\nOPENAI_API_KEY=three\n")),
      ("app".toList, .directory [("api".toList, .directory [("route.ts".toList, .file
        (asciiBytes "export async function GET() \x7b\n  return 1;\n\x7d\n"))])])], []⟩ with
    arguments := ["generate".toList]
    env := [("LLM_MODEL".toList, [])] }

/-- The call uses the provider of the second file with its default model, and the last key of the
first file: so it asks for its one route. -/
theorem settings_precedence_layered : ∃ o,
    layeredCall.Uses (layeredCall.bound? layeredTexts) {} o ∧ o.provider = "openai".toList ∧
      layeredCall.run.requests.map (fun r => (r.model, r.key)) =
        [("openai/gpt-4o-mini".toList, some "two".toList)] := by
  have hshow : List.Forall₂ (fun name text => EnvFile.Shows layeredCall.disk
      (Path.join ⟨.root, layeredCall.disk.here⟩ (Path.ofChars name)) text)
      EnvFile.usualNames layeredTexts := by
    have hmissing (name : List Char) (h : layeredCall.disk.isFile
        (Path.join ⟨.root, layeredCall.disk.here⟩ (Path.ofChars name)) = .ok false) :
        EnvFile.Shows layeredCall.disk
          (Path.join ⟨.root, layeredCall.disk.here⟩ (Path.ofChars name)) none := h
    exact .cons ⟨by decide +kernel, by decide +kernel⟩ <|
      .cons ⟨by decide +kernel, by decide +kernel⟩ <|
      .cons (hmissing _ (by decide +kernel)) <| .cons (hmissing _ (by decide +kernel)) .nil
  have hplain : EnvFile.Plain layeredCall.env layeredTexts := by
    refine ⟨?_, by decide +kernel, ?_⟩
    all_goals
      intro s hs
      simp only [layeredTexts, List.mem_cons, Option.some.injEq, List.not_mem_nil, or_false,
        reduceCtorEq] at hs
      rcases hs with rfl | rfl <;> decide +kernel
  obtain ⟨-, -, huses⟩ := settings_precedence hshow hplain
  obtain ⟨o, ho⟩ := (huses layeredCall.loaded.2.env {}
    ⟨⟨[], rfl, rfl⟩, by decide +kernel, rfl, rfl⟩).1
    ⟨rfl, nofun, ⟨by decide +kernel, by decide +kernel⟩, nofun⟩
  refine ⟨o, ho, ?_, by decide +kernel⟩
  rw [ho.provider]
  decide +kernel

end CommandLine
end RouteScribe
