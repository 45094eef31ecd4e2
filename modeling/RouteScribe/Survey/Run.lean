import RouteScribe.Pool.Run
import RouteScribe.Survey.Claim
import RouteScribe.Survey.FileScript

/-!
# Running a survey

The paths of the files are claimed in order, then the files that may be read are worked on in a
pool, each in a slot of its own.  The events of the whole survey are those of the claims and those
of the pool's run.
-/

namespace RouteScribe

namespace Survey

/-- A survey that has ended: its events, whether a file name could not be used at all, and the pool
after it. -/
structure Ended where
  events : List SurveyEvent
  outcome : Except FileFault Unit
  pool : Pool

namespace Ended

/-- What the survey has found. -/
def result (e : Ended) : SurveyResult := SurveyResult.ofEvents e.events

/-- The messages of the survey. -/
def entries (e : Ended) : List Log.Entry := e.events.filterMap SurveyEvent.message?

/-- The files that were opened, in this order. -/
def reads (e : Ended) : List (List Char) := e.events.filterMap SurveyEvent.read?

/-- The queries of the calls, in the order in which they began. -/
def queries (e : Ended) : List RouteQuery := e.events.filterMap SurveyEvent.query?

/-- What a model was asked, in the order in which the calls began. -/
def requests (e : Ended) : List ModelRequest := e.events.filterMap SurveyEvent.request?

end Ended

/-- The message with the number of files. -/
def foundEvent (count : Nat) : SurveyEvent :=
  .noted (.line .info ("Routes found: ".toList ++ Nat.toDigits 10 count) none)

/-- The events before the first file is read. -/
def claimEvents (files : List (List Char)) : List SurveyEvent :=
  foundEvent files.length :: (Claims.ofFiles files).events

/-- The scripts of the files that have been claimed. -/
def scripts (s : Setting) (claimed : List (List Char)) :
    List (Script SurveyEvent (Except FileFault Unit)) :=
  claimed.zipIdx.map fun (file, i) => fileScript s (i + 1) claimed.length file

/-- Surveys files in a pool. -/
def run (s : Setting) (pool : Pool) (files : List (List Char)) (schedule : Schedule := .fair) :
    Ended :=
  let claimed := (Claims.ofFiles files).files
  let (outcome, r, pool) := pool.run (scripts s claimed) schedule
  { events := claimEvents files ++ r.events, outcome := outcome.map fun _ => (), pool }

end Survey

end RouteScribe
