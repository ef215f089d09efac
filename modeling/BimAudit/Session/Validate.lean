import BimAudit.Session.Run

/-!
# Sessions

A session audits models against documents, as often as it is asked to, one run after the other. It
keeps its configuration, how the last run ended, whether it has been broken off since the last run
began, and whether it has workers.

* `Session.validate`: a run, with the events that an observer sees and the report.
* `Session.startRun`, `Session.finishRun`: what comes before and after the steps of the run.
-/

namespace BimAudit

open Session (Config Setting Shared Strategy Event ModelSource RuleSource Run FileAudit)

/-- How far a session has come. -/
inductive Session.Phase where
  /-- Nothing has been audited. -/
  | idle
  /-- The last run came to its end. -/
  | complete
  /-- The last run was broken off. -/
  | aborted
deriving DecidableEq, Repr

/-- The word for a phase. -/
def Session.Phase.name : Session.Phase → String
  | idle => "idle"
  | complete => "complete"
  | aborted => "aborted"

/-- A session between two runs. -/
structure Session where
  config : Config := {}
  phase : Session.Phase := .idle
  aborted : Bool := false
  /-- There are workers left from earlier runs. -/
  pool : Bool := false

namespace Session

/-- Breaks the session off. Between runs this has no effect on the next one. -/
def abort (s : Session) : Session := { s with aborted := true, pool := false }

/-- The strategy for some models. -/
def chooseStrategy (s : Session) (files : List ModelSource) : Strategy :=
  .ofSizes s.config.largeFileBytes (files.map (·.size))

/-- The start of a run: the observer is told, and the workers are called if the models are audited
at the same time. -/
def startRun (s : Session) (t : Setting) : Run :=
  let strategy := s.chooseStrategy t.files
  let shared : Shared := { pool := s.pool, units := List.replicate t.files.length 0 }
  let shared := shared.emit t (.started strategy t.files.length)
  let (pooled, shared) :=
    if strategy = .parallelSmallFiles then shared.usePool t else (false, shared)
  { shared
    sequential := !pooled
    audits := t.files.zipIdx.map fun f => { file := f.1, position := f.2 } }

/-- The end of a run: the report is made and shown to the observer. -/
def finishRun (s : Session) (t : Setting) (r : Run) : Session × List Event × Audit.Report :=
  let report := r.report t
  let shared := r.shared.emit t (.complete report)
  let phase : Phase := if r.shared.aborted then .aborted else .complete
  ({ s with phase, aborted := shared.aborted, pool := shared.pool }, shared.events.reverse, report)

/-- Audits models against documents, where workers come if they are called, or do not. The observer
may break the session off while it handles the events with some numbers, the first event being
number zero. -/
def validate (s : Session) (workersCome : Bool) (breaksOff : Nat → Bool) (files : List ModelSource)
    (rules : List RuleSource) : Session × List Event × Audit.Report :=
  let t : Setting := ⟨s.config, files, rules, breaksOff, workersCome⟩
  s.finishRun t ((s.startRun t).exhaust t Run.eager)

end Session

end BimAudit
