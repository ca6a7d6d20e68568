import Lox.Diagnostic.Rendering
import Lox.Scan.Basic
import Lox.Source.Collection

/-!
# Sessions

A session holds a collection of sources and one report, and takes steps on them in any order.

## Main definitions

* `Session`: the sources and the report
* `Step`, `Answer`: the steps of a session and what they answer
* `Session.step`: the answer to a step, and the session after it
* `Session.run`: the answers to a list of steps, each with the session after it
-/

namespace Lox

/-- A collection of sources and a report. -/
structure Session where
  sources : Sources := .empty
  report : Report := .empty

/-- A step of a session. -/
inductive Step
  /-- A new source. -/
  | add (name text : String)
  /-- The source with a number. -/
  | source (id : UInt32)
  /-- A line of the source with a number. -/
  | line (id line : UInt32)
  /-- One more diagnostic. -/
  | push (d : Diagnostic)
  /-- An error told to the report as a listener. -/
  | tell (line : UInt32) (message : String)
  /-- A diagnostic told to the report as a listener. -/
  | tellFull (d : Diagnostic)
  /-- A scan that tells its faults to the report. -/
  | scan (source : String)
  /-- The end of all diagnostics. -/
  | clear
  /-- The diagnostics. -/
  | list
  /-- The diagnostics rendered against the source with a number. -/
  | render (id : UInt32) (coloured : Bool)

/-- What a step answers. -/
inductive Answer
  | done
  | id (id : UInt32)
  | source (source : Option Source)
  | line (text : Option String)
  | tokens (tokens : List Token)
  | diagnostics (ds : List Diagnostic)
  | text (text : String)

namespace Session

/-- The report of a session as a listener. -/
def listener : Listener Session :=
  Report.listener.within Session.report fun report session => { session with report }

/-- The answer to a step, and the session after it. -/
def step (session : Session) : Step → Answer × Session
  | .add name text =>
    let (id, sources) := session.sources.add (.ofText name text)
    (.id id, { session with sources })
  | .source id => (.source (session.sources.get? id), session)
  | .line id line => (.line ((session.sources.get? id).bind (·.line? line)), session)
  | .push d => (.done, { session with report := session.report.push d })
  | .tell line message => (.done, listener.plain line message session)
  | .tellFull d => (.done, listener.full d session)
  | .scan source =>
    let (tokens, session) := scanWith listener source session
    (.tokens tokens, session)
  | .clear => (.done, { session with report := session.report.clear })
  | .list => (.diagnostics session.report.toList, session)
  | .render id coloured =>
    (.text (session.report.render { source := session.sources.get? id, coloured }), session)

/-- The answers to a list of steps, each with the session after it. -/
def run (session : Session) : List Step → List (Answer × Session)
  | [] => []
  | s :: rest =>
    let (answer, next) := session.step s
    (answer, next) :: run next rest

end Session

end Lox
