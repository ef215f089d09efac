import BimAudit.Audit.Batch
import BimAudit.Session.Event
import BimAudit.Total

/-!
# Auditing one model

The audit of a model goes from one atomic step to the next: it reads the model chunk by chunk, takes
the documents in turn, and within a document the specifications. A specification that applies to
many entities may be handed to the workers; its result comes back in a queue, which is worked off
once the other specifications are through. At certain points the audit looks whether it has been
broken off.

What several audits share is in `Shared`: whether the session has been broken off, whether there are
workers, the units done, and the events so far.

* `FileAudit.move`: the next step of the audit itself.
* `FileAudit.begin`, `FileAudit.deliver`: the steps of the workers.
* `FileAudit.move_decreases` and its companions: every step brings the audit closer to its end.
-/

namespace BimAudit.Session

open Audit (SpecificationResult FileResult)
open Ids (Specification)

/-- What does not change in the course of a session. -/
structure Setting where
  config : Config
  files : List ModelSource
  rules : List RuleSource
  /-- The observer breaks the session off while it handles the event with this number. -/
  breaksOff : Nat → Bool
  /-- Workers that are called come and answer. It depends on the machine whether they do. -/
  workersCome : Bool

/-- Workers can be had: there are to be some, and they come when they are called. -/
def Setting.hasWorkers (t : Setting) : Bool := t.config.workerThreads ≠ some 0 && t.workersCome

/-- The units that there are for each model. -/
def Setting.unitsPerFile (t : Setting) : Nat :=
  1 + total (fun r => r.document.specifications.length) t.rules

/-- What the audits of all models share. -/
structure Shared where
  aborted : Bool := false
  /-- There are workers. -/
  pool : Bool := false
  /-- Whether there were workers when they were first asked for. -/
  poolReady : Option Bool := none
  /-- The units done, for every model. -/
  units : List Nat := []
  /-- The events so far, the last one first. -/
  events : List Event := []

namespace Shared

/-- Breaks the session off and lets the workers go. -/
def abort (s : Shared) : Shared := { s with aborted := true, pool := false }

/-- Shows an event to the observer. -/
def emit (t : Setting) (e : Event) (s : Shared) : Shared :=
  let s' := { s with events := e :: s.events }
  if t.breaksOff s.events.length then s'.abort else s'

/-- Asks for the workers. They are called at the first time, unless there are some already; if they
do not come then, nobody calls them again. -/
def usePool (t : Setting) (s : Shared) : Bool × Shared :=
  if s.aborted then (false, s)
  else
    let s := match s.poolReady with
      | some _ => s
      | none =>
        let ready := s.pool || t.hasWorkers
        { s with poolReady := some ready, pool := s.pool || ready }
    (s.poolReady = some true && s.pool, s)

/-- Asks for the workers for a specification that applies to some number of entities. Only audits
that may hand over ask, and only for specifications that apply to many entities. -/
def askPool (t : Setting) (delegates : Bool) (applicable : Nat) (s : Shared) : Bool × Shared :=
  if delegates && t.config.workerEntityThreshold < applicable then s.usePool t else (false, s)

end Shared

/-- A specification in the hands of the workers. -/
structure Task where
  /-- Its position in the document. -/
  position : Nat
  specification : Specification
  /-- The entities that it applies to. -/
  applicable : List Ifc.Entity

/-- The result of a task. -/
def Task.result (t : Setting) (k : Task) : Option SpecificationResult :=
  Audit.resultFor? t.config.strict k.specification k.applicable

/-- The audit of a model against one document. -/
structure DocumentAudit where
  /-- The specifications that are still to come. -/
  todo : List Specification
  /-- The position of the next one. -/
  position : Nat := 0
  /-- The audit has looked whether it is broken off before it takes the next specification. -/
  checked : Bool := false
  /-- The tasks that the workers have not begun. -/
  waiting : List Task := []
  /-- The tasks that the workers have begun. -/
  running : List Task := []
  /-- The results of the workers that have not been taken. -/
  queue : List (Nat × Option SpecificationResult) := []
  /-- A result was taken from the queue last. -/
  received : Bool := false
  /-- The results by position. -/
  results : List (Option SpecificationResult)

/-- Begins the audit against a document. -/
def DocumentAudit.ofRules (r : RuleSource) : DocumentAudit where
  todo := r.document.specifications
  results := List.replicate r.document.specifications.length none

/-- Where the audit of a model is. -/
inductive Stage where
  | ready
  | reading (r : Ifc.Reader)
  /-- Before the next document. -/
  | between (entities : List Ifc.Entity) (todo : List RuleSource) (done : List FileResult)
  | auditing (entities : List Ifc.Entity) (d : DocumentAudit) (todo : List RuleSource)
    (done : List FileResult)
  /-- At the end, with the results for the first documents, or without if the model was not read. -/
  | finished (results : Option (List FileResult))

/-- What remains to be done before progress is known to the observer. -/
inductive Announcement where
  | nothing
  /-- The units have to be made known to the other audits. -/
  | publish
  /-- The observer has to be told. -/
  | tell (units : List Nat)

/-- The audit of one model. -/
structure FileAudit where
  file : ModelSource
  /-- The position of the model. -/
  position : Nat
  stage : Stage := .ready
  /-- The units done. -/
  units : Nat := 0
  announcement : Announcement := .nothing

namespace FileAudit

/-- Closes the audit against a document. -/
def closeDocument (w : FileAudit) (es : List Ifc.Entity) (d : DocumentAudit)
    (todo : List RuleSource) (done : List FileResult) : FileAudit :=
  let result : FileResult := ⟨w.file.name, es.length, d.results.filterMap id⟩
  { w with stage := .between es todo (done ++ [result]) }

/-- One more unit is done. -/
def advance (w : FileAudit) (stage : Stage) : FileAudit :=
  { w with stage, units := w.units + 1, announcement := .publish }

/-- Takes the next specification, which is handed to the workers or dealt with at once. -/
def takeSpecification (t : Setting) (delegates : Bool) (s : Shared) (w : FileAudit)
    (es : List Ifc.Entity) (d : DocumentAudit) (spec : Specification) (rest : List Specification)
    (todo : List RuleSource) (done : List FileResult) : Shared × FileAudit :=
  let task : Task := ⟨d.position, spec, es.filter (Audit.appliesTo spec)⟩
  let (pool, s) := s.askPool t delegates task.applicable.length
  let d := { d with todo := rest, position := d.position + 1, checked := false }
  if pool then
    (s, { w with stage := .auditing es { d with waiting := d.waiting ++ [task] } todo done })
  else
    let results := d.results.set task.position (task.result t)
    (s, w.advance (.auditing es { d with results } todo done))

/-- The next step of the audit itself; none if it is at the end or has to wait for the workers. -/
def move (t : Setting) (delegates : Bool) (s : Shared) (w : FileAudit) :
    Option (Shared × FileAudit) :=
  match w.announcement with
  | .publish =>
    -- the count is published first, and told in a step of its own: others may come between
    let units := s.units.set w.position w.units
    some ({ s with units }, { w with announcement := .tell units })
  | .tell units =>
    some (s.emit t (.progress ⟨w.file.name, w.position, units, t.unitsPerFile⟩),
      { w with announcement := .nothing })
  | .nothing =>
    match w.stage with
    | .ready =>
      if s.aborted then some (s, { w with stage := .finished none })
      else
        let r := Ifc.Reader.ofText t.config.chunkLines w.file.name w.file.content.toList
        some (s, { w with stage := .reading r })
    | .reading r =>
      match r.advance with
      | (.done m, _) => some (s, w.advance (.between m.entities t.rules []))
      | (.pending _, r) =>
        some (s, { w with stage := if s.aborted then .finished none else .reading r })
    | .between es todo done =>
      match todo with
      | [] => some (s, { w with stage := .finished (some done) })
      | r :: todo =>
        some (s, { w with
          stage := if s.aborted then .finished (some done)
            else .auditing es (.ofRules r) todo done })
    | .auditing es d todo done =>
      match d.todo with
      | spec :: rest =>
        -- every specification is preceded by a look at the sign to stop
        if d.checked then some (w.takeSpecification t delegates s es d spec rest todo done)
        else
          let d := if s.aborted then { d with todo := [] } else { d with checked := true }
          some (s, { w with stage := .auditing es d todo done })
      | [] =>
        -- after each result taken, the sign to stop is looked at
        if d.received then
          some (s,
            if s.aborted then w.closeDocument es d todo done
            else { w with stage := .auditing es { d with received := false } todo done })
        else
          match d.queue with
          | (i, result) :: queue =>
            let d := { d with queue, received := true, results := d.results.set i result }
            some (s, w.advance (.auditing es d todo done))
          | [] =>
            -- nothing is queued: the document is done if no worker has a task left
            if d.waiting.isEmpty && d.running.isEmpty then some (s, w.closeDocument es d todo done)
            else none
    | .finished _ => none

/-- A worker begins a task, unless the session is broken off; the task is dropped then. -/
def begin (k : Nat) (s : Shared) (w : FileAudit) : Option FileAudit :=
  match w.stage with
  | .auditing es d todo done =>
    (d.waiting[k]?).map fun task =>
      let running := if s.aborted then d.running else d.running ++ [task]
      let d := { d with waiting := d.waiting.eraseIdx k, running }
      { w with stage := .auditing es d todo done }
  | _ => none

/-- A worker delivers the result of a task. -/
def deliver (t : Setting) (k : Nat) (w : FileAudit) : Option FileAudit :=
  match w.stage with
  | .auditing es d todo done =>
    (d.running[k]?).map fun task =>
      let queue := d.queue ++ [(task.position, task.result t)]
      let d := { d with running := d.running.eraseIdx k, queue }
      { w with stage := .auditing es d todo done }
  | _ => none

/-- The audit is at its end. -/
def isFinished (w : FileAudit) : Bool :=
  match w.announcement, w.stage with
  | .nothing, .finished _ => true
  | _, _ => false

/-- The results, once there are any. -/
def results? (w : FileAudit) : Option (List FileResult) :=
  match w.stage with
  | .finished results => results
  | _ => none

/-! ### Every audit comes to an end -/

/-- The steps that documents still to come may take. -/
def rulesCost (rs : List RuleSource) : Nat :=
  1 + total (fun r => 8 * r.document.specifications.length + 3) rs

/-- The steps that the audit against a document may still take. -/
def documentCost (d : DocumentAudit) : Nat :=
  1 + 8 * d.todo.length + (if d.checked then 0 else 1) + 6 * d.waiting.length
    + 5 * d.running.length + 4 * d.queue.length + (if d.received then 1 else 0)

/-- The steps that an announcement takes. -/
def announcementCost : Announcement → Nat
  | .nothing => 0
  | .publish => 2
  | .tell _ => 1

/-- The steps that the audit may still take, where reading counts by its phases. -/
def cost (t : Setting) (w : FileAudit) : Nat :=
  announcementCost w.announcement + match w.stage with
    | .ready => rulesCost t.rules + 6
    | .reading r => rulesCost t.rules + 3 + r.phasesLeft
    | .between _ todo _ => rulesCost todo
    | .auditing _ d todo _ => rulesCost todo + documentCost d
    | .finished _ => 0

/-- The work left within a phase of reading. -/
def readingCost (w : FileAudit) : Nat :=
  match w.stage with
  | .reading r => r.workLeft
  | _ => 0

theorem rulesCost_pos (rs : List RuleSource) : 0 < rulesCost rs := by
  simp only [rulesCost]; omega

theorem rulesCost_cons (r : RuleSource) (rs : List RuleSource) :
    rulesCost (r :: rs) = 8 * r.document.specifications.length + 3 + rulesCost rs := by
  simp only [rulesCost, total_cons]; omega

/-- To take on a specification makes the audit cheaper, whether it is handed over or not. -/
theorem cost_takeSpecification (t : Setting) (delegates : Bool) (s : Shared) {w : FileAudit}
    {es : List Ifc.Entity} {d : DocumentAudit} {spec : Specification} {rest : List Specification}
    {todo : List RuleSource} {done : List FileResult} (hw : w.announcement = .nothing)
    (hs : w.stage = .auditing es d todo done) (hd : d.todo = spec :: rest) (hc : d.checked = true) :
    (w.takeSpecification t delegates s es d spec rest todo done).2.cost t < w.cost t := by
  unfold takeSpecification
  generalize hp : s.askPool t delegates (es.filter (Audit.appliesTo spec)).length = p
  obtain ⟨pool, s'⟩ := p
  simp only [hp]
  cases pool <;>
    simp only [cost, advance, announcementCost, documentCost, hw, hs, hd, hc, List.length_append,
      List.length_cons, List.length_nil, Bool.false_eq_true, if_true, if_false] <;>
    omega

/-- **Every step of an audit brings it closer to its end.** -/
theorem move_decreases {t : Setting} {delegates : Bool} {s s' : Shared} {w w' : FileAudit}
    (h : w.move t delegates s = some (s', w')) :
    w'.cost t < w.cost t ∨ (w'.cost t = w.cost t ∧ w'.readingCost < w.readingCost) := by
  unfold move at h
  split at h
  · next hw =>
    cases h
    left; simp only [cost, announcementCost, hw]; omega
  · next hw =>
    cases h
    left; simp only [cost, announcementCost, hw]; omega
  · next hw =>
    split at h
    · next hs =>
      split at h <;> cases h
      · left; simp only [cost, announcementCost, hw, hs]; omega
      · left
        simp only [cost, announcementCost, hw, hs, Ifc.Reader.phasesLeft, Ifc.Reader.ofText]; omega
    · next r hs =>
      split at h
      · cases h
        left; simp only [cost, announcementCost, advance, hw, hs]; omega
      · next r' hr =>
        cases h
        by_cases ha : s.aborted = true
        · left; simp only [cost, announcementCost, hw, hs, ha, if_true]; omega
        · -- the reader goes on: either its phase or the work within the phase goes down
          have hlt := Ifc.Reader.advance_pending_decreases hr
          simp only [cost, announcementCost, readingCost, hw, hs, ha, Bool.false_eq_true, if_false]
          rcases Prod.lex_def.1 hlt with h | ⟨h, h'⟩
          · left; simp only at h; omega
          · right; simp only at h h'; exact ⟨by omega, h'⟩
    · next es todo done hs =>
      split at h <;> cases h
      · left
        have := rulesCost_pos ([] : List RuleSource)
        simp only [cost, announcementCost, hw, hs]; omega
      · next r todo =>
        left
        have := rulesCost_pos todo
        by_cases ha : s.aborted = true
        · simp only [cost, announcementCost, hw, hs, ha, if_true, rulesCost_cons]; omega
        · simp only [cost, announcementCost, hw, hs, ha, if_false, rulesCost_cons, documentCost,
            DocumentAudit.ofRules, List.length_nil, Bool.false_eq_true]
          omega
    · next es d todo done hs =>
      split at h
      · next spec rest hd =>
        split at h
        · next hc =>
          left
          have := cost_takeSpecification t delegates s hw hs hd hc
          simp only [Option.some.injEq] at h
          rw [h] at this
          exact this
        · next hc =>
          cases h
          left
          by_cases ha : s.aborted = true
          · simp only [cost, announcementCost, hw, hs, hd, ha, if_true, documentCost, hc, if_false,
              Bool.false_eq_true, List.length_cons, List.length_nil]
            omega
          · simp only [cost, announcementCost, hw, hs, hd, ha, documentCost, hc, if_false, if_true,
              Bool.false_eq_true, List.length_cons]
            omega
      · next hd =>
        split at h
        · next hr =>
          cases h
          left
          by_cases ha : s.aborted = true
          · simp only [cost, announcementCost, closeDocument, hw, hs, ha, if_true, documentCost]
            omega
          · simp only [cost, announcementCost, hw, hs, ha, if_false, documentCost, hr, if_true,
              Bool.false_eq_true]
            omega
        · next hr =>
          split at h
          · next i result queue hq =>
            cases h
            left
            simp only [cost, announcementCost, advance, hw, hs, documentCost, hq, hr, if_true,
              if_false, Bool.false_eq_true, List.length_cons]
            omega
          · split at h
            · cases h
              left
              simp only [cost, announcementCost, closeDocument, hw, hs, documentCost]
              omega
            · cases h
    · cases h

theorem length_eraseIdx_lt {α : Type} {l : List α} {k : Nat} {a : α} (h : l[k]? = some a) :
    (l.eraseIdx k).length + 1 = l.length := by
  have hk := (List.getElem?_eq_some_iff.1 h).1
  rw [List.length_eraseIdx_of_lt hk]
  omega

/-- A task costs less once it is begun. -/
theorem begin_decreases {t : Setting} {k : Nat} {s : Shared} {w w' : FileAudit}
    (h : w.begin k s = some w') : w'.cost t < w.cost t := by
  unfold begin at h
  split at h
  · next es d todo done hs =>
    obtain ⟨task, hk, rfl⟩ := Option.map_eq_some_iff.1 h
    have hl := length_eraseIdx_lt hk
    simp only [cost, hs, documentCost]
    by_cases ha : s.aborted = true
    · simp only [ha, if_true]; omega
    · simp only [ha, Bool.false_eq_true, if_false, List.length_append, List.length_cons,
        List.length_nil]
      omega
  · cases h

/-- A task costs less once it is delivered. -/
theorem deliver_decreases {t : Setting} {k : Nat} {w w' : FileAudit}
    (h : w.deliver t k = some w') : w'.cost t < w.cost t := by
  unfold deliver at h
  split at h
  · next es d todo done hs =>
    obtain ⟨task, hk, rfl⟩ := Option.map_eq_some_iff.1 h
    have hl := length_eraseIdx_lt hk
    simp only [cost, hs, documentCost, List.length_append, List.length_cons, List.length_nil]
    omega
  · cases h

end FileAudit

end BimAudit.Session
