import RouteScribe.Pool.Script
import RouteScribe.Routes.ApiPath
import RouteScribe.Survey.Basic

/-!
# What is done with one route file

The file is read once, then its methods are described, all at the same time.  A description takes a
number of turns; those that take equally long end in the order of the methods.  A file that cannot
be read is a failure, and so is a description that fails; neither touches the rest.
-/

namespace RouteScribe

/-- What a describer gives for a method: after how many turns, the operation or why there is none,
and what a model was asked, if one was.  The error is one that the survey catches and counts.  A call
that is cancelled or interrupted gives no description, and no survey here meets one. -/
structure Description where
  turns : Nat
  outcome : Except (List Char) Operation
  request : Option ModelRequest

/-- Something that describes methods of routes. -/
structure Describer where
  name : List Char
  describe : RouteQuery → Description

namespace Describer

/-- The name of a describer in messages. -/
def shownName (d : Describer) : List Char := if d.name.isEmpty then "provider".toList else d.name

end Describer

/-- The describer that asks a model, whose replies can be read to a depth and are remarked upon where
they are wrong.  The file is read again in a turn of its own; then the model takes its time. -/
def ModelClient.describer (c : ModelClient) (name : List Char) (disk : Disk) (room : Nat)
    (remarks : Remarks) (answer : ModelRequest → ModelReply)
    (delay : RouteQuery → Nat := fun _ => 0) : Describer :=
  { name
    describe := fun q =>
      let (request, outcome) := q.ask disk c room answer
      { turns := delay q + 1, outcome := outcome.mapError (·.message remarks), request } }

namespace Survey

/-- What a survey works on. -/
structure Setting where
  disk : Disk
  root : Path
  describer : Describer

/-- Texts with a comma and a blank between neighbours. -/
def listed (ss : List (List Char)) : List Char := joined [',', ' '] ss

/-- The query for a method of a file. -/
def query (s : Setting) (file : List Char) (method : Method) : RouteQuery :=
  { path := s.root.join (Path.ofChars file)
    method
    route := upper method ++ ' ' :: Route.apiPath file }

/-- The events at the end of a call. -/
def endEvents (s : Setting) (file : List Char) (q : RouteQuery)
    (outcome : Except (List Char) Operation) : List SurveyEvent :=
  .callEnded file q ::
    match outcome with
    | .ok o => [.described (Route.apiPath file) q.method o]
    | .error e =>
      [.noted (.line .error ("Error processing \"".toList ++ q.route ++ "\" with ".toList ++
          s.describer.shownName ++ ':' :: ' ' :: e) none),
        .failed ⟨q.route, file, e⟩]

/-- The calls for the methods of a file. -/
def calls (s : Setting) (file : List Char) (methods : List Method) :
    List (RouteQuery × Description) :=
  methods.map fun m => (query s file m, s.describer.describe (query s file m))

/-- The events of the first round: all calls begin, and those that take no turn end at once. -/
def firstRound (s : Setting) (file : List Char) (cs : List (RouteQuery × Description)) :
    List SurveyEvent :=
  cs.flatMap fun (q, d) =>
    .callBegun file q d.request :: if d.turns = 0 then endEvents s file q d.outcome else []

/-- The events of a later round: the calls of so many turns end. -/
def laterRound (s : Setting) (file : List Char) (cs : List (RouteQuery × Description)) (k : Nat) :
    List SurveyEvent :=
  cs.flatMap fun (q, d) => if d.turns = k then endEvents s file q d.outcome else []

/-- The rounds from the `k`-th on. -/
def laterRounds {ρ : Type} (s : Setting) (file : List Char) (cs : List (RouteQuery × Description))
    (after : Script SurveyEvent ρ) : Nat → Nat → Script SurveyEvent ρ
  | 0, _ => after
  | left + 1, k =>
    .turn (.emitAll (laterRound s file cs k) (laterRounds s file cs after left (k + 1)))

/-- The turns of the longest call. -/
def longest (cs : List (RouteQuery × Description)) : Nat := (cs.map fun c => c.2.turns).foldl max 0

/-- Makes the calls and waits for all of them. -/
def callScript {ρ : Type} (s : Setting) (file : List Char) (cs : List (RouteQuery × Description))
    (after : Script SurveyEvent ρ) : Script SurveyEvent ρ :=
  .emitAll (firstRound s file cs) (laterRounds s file cs after (longest cs) 1)

/-- The file could not be read. -/
def unreadEvents (file : List Char) (fault : ReadFault) : List SurveyEvent :=
  [.noted (.line .error ("Cannot read \"".toList ++ file ++ "\": ".toList ++ fault.message) none),
    .failed ⟨Route.apiPath file, file, fault.message⟩]

/-- The file has no methods. -/
def emptyEvents (file : List Char) : List SurveyEvent :=
  [.noted (.line .warn ("No HTTP methods found for ".toList ++ Route.apiPath file) none),
    .skipped file]

/-- The methods of the file are about to be described. -/
def openingEvent (file : List Char) (methods : List Method) : SurveyEvent :=
  .noted (.line .debug ("Processing ".toList ++ file)
    (some (.obj [("path", .str (Text.ofChars (Route.apiPath file))),
      ("methods", .str (Text.ofChars (listed methods)))])))

/-- The file is done. -/
def closingEvent (index total : Nat) (file : List Char) (methods : List Method) : SurveyEvent :=
  .noted (.line .log ('[' :: Nat.toDigits 10 index ++ '/' :: Nat.toDigits 10 total ++
    ']' :: ' ' :: Route.apiPath file ++ ' ' :: '(' :: listed (methods.map upper) ++ [')']) none)

/-- What is done with a file once it has been read. -/
def readScript (s : Setting) (index total : Nat) (file : List Char) :
    Except ReadFault (List Char) → Script SurveyEvent (Except FileFault Unit)
  | .error (.unreachable ⟨.nullCharacter, path⟩) => .finish (.error ⟨.nullCharacter, path⟩)
  | .error fault => .emitAll (unreadEvents file fault) (.finish (.ok ()))
  | .ok source =>
    match exportedMethods source with
    | [] => .emitAll (emptyEvents file) (.finish (.ok ()))
    | methods =>
      .emit (openingEvent file methods) (.turn (callScript s file (calls s file methods)
        (.pause 2 (.emit (closingEvent index total file methods) (.finish (.ok ()))))))

/-- What is done with a file, the `index`-th of `total`. -/
def fileScript (s : Setting) (index total : Nat) (file : List Char) :
    Script SurveyEvent (Except FileFault Unit) :=
  .emit (.readBegun file) (.turn (.emit (.readEnded file)
    (readScript s index total file (s.disk.readText (s.root.join (Path.ofChars file))))))

end Survey

end RouteScribe
