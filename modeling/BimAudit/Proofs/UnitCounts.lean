import BimAudit.Proofs.DirectReport

/-!
# Units that are done and units that are left

An audit counts one unit for reading its model and one for each specification, whether it deals with
the specification at once or takes its result from the workers. No unit is counted twice, and none
gets lost unless the audit is broken off.

* `FileAudit.unitsLeft`: the units that an audit may still count.
* `FileAudit.keeps_of_moved`, `FileAudit.keeps_of_begin`, `FileAudit.keeps_of_deliver`: no step adds
  to the units done and left, and without the sign to stop none takes away from them.
* `Run.units_of_isFinished`: **a finished audit has counted no more units than there are, and all of
  them unless it was broken off.**
-/

namespace BimAudit.Session

/-- The units that some documents make. -/
def rulesUnits (rs : List RuleSource) : Nat :=
  total (fun r => r.document.specifications.length) rs

/-- The units of a document that have not been counted. -/
def DocumentAudit.unitsLeft (d : DocumentAudit) : Nat :=
  d.todo.length + d.waiting.length + d.running.length + d.queue.length

namespace FileAudit

/-- The units that an audit may still count. -/
def unitsLeft (t : Setting) (w : FileAudit) : Nat :=
  match w.stage with
  | .ready | .reading _ => t.unitsPerFile
  | .between _ todo _ => rulesUnits todo
  | .auditing _ d todo _ => d.unitsLeft + rulesUnits todo
  | .finished _ => 0

/-- All units are done or left, as long as there is no sign to stop; there are never more. -/
structure Counts (t : Setting) (aborted : Bool) (w : FileAudit) : Prop where
  le : w.units + w.unitsLeft t ≤ t.unitsPerFile
  eq : aborted = false → w.units + w.unitsLeft t = t.unitsPerFile

variable {t : Setting} {delegates aborted : Bool} {s s' : Shared} {w w' : FileAudit}

/-- The counts stay right when there is a sign to stop. -/
theorem Counts.mono {aborted' : Bool} (h : w.Counts t aborted)
    (ha : aborted = true → aborted' = true) : w.Counts t aborted' := by
  refine ⟨h.le, fun hf => h.eq ?_⟩
  cases haborted : aborted with
  | false => rfl
  | true => rw [ha haborted] at hf; cases hf

/-- A step takes no unit out of nowhere, and before the sign to stop it loses none. -/
def Keeps (t : Setting) (aborted : Bool) (w w' : FileAudit) : Prop :=
  w'.units + w'.unitsLeft t ≤ w.units + w.unitsLeft t ∧
    (aborted = false → w'.units + w'.unitsLeft t = w.units + w.unitsLeft t)

theorem keeps_of_eq (h : w'.units + w'.unitsLeft t = w.units + w.unitsLeft t) :
    Keeps t aborted w w' := ⟨Nat.le_of_eq h, fun _ => h⟩

/-- After the sign to stop it is enough that no units are added. -/
theorem keeps_of_aborted (ha : aborted = true)
    (h : w'.units + w'.unitsLeft t ≤ w.units + w.unitsLeft t) : Keeps t aborted w w' := by
  refine ⟨h, fun hf => ?_⟩
  rw [ha] at hf
  cases hf

theorem Counts.keeps (hw : w.Counts t aborted) (h : Keeps t aborted w w') :
    w'.Counts t aborted :=
  ⟨Nat.le_trans h.1 hw.le, fun ha => (h.2 ha).trans (hw.eq ha)⟩

/-- **No step of an audit counts a unit that was not left, and no unit gets lost.** -/
theorem keeps_of_moved (h : Moved t delegates s w s' w') : Keeps t s.aborted w w' := by
  cases h with
  | publish | tell => exact keeps_of_eq rfl
  | skip hw hs ha =>
    apply keeps_of_aborted ha
    simp only [unitsLeft]
    omega
  | start hw hs ha =>
    apply keeps_of_eq
    simp only [unitsLeft, hs]
  | read r r' m hw hs hr =>
    -- the unit of reading is done, those of all specifications are left
    have hunits : t.unitsPerFile = 1 + rulesUnits t.rules := rfl
    apply keeps_of_eq
    simp only [unitsLeft, advance, hs]
    omega
  | readOn r r' p hw hs hr ha =>
    apply keeps_of_eq
    simp only [unitsLeft, hs]
  | stopReading r r' p hw hs hr ha =>
    apply keeps_of_aborted ha
    simp only [unitsLeft]
    omega
  | finish es done hw hs =>
    have hunits : rulesUnits [] = 0 := rfl
    apply keeps_of_eq
    simp only [unitsLeft, hs]
    omega
  | openDocument es r todo done hw hs ha =>
    have hunits : rulesUnits (r :: todo)
        = r.document.specifications.length + rulesUnits todo := total_cons _ _ _
    apply keeps_of_eq
    simp only [unitsLeft, hs, DocumentAudit.unitsLeft, DocumentAudit.ofRules, List.length_nil]
    omega
  | stopBetween es r todo done hw hs ha =>
    apply keeps_of_aborted ha
    simp only [unitsLeft]
    omega
  | look es d spec rest todo done hw hs hd hc ha =>
    apply keeps_of_eq
    simp only [unitsLeft, hs, DocumentAudit.unitsLeft]
  | leaveOut es d spec rest todo done hw hs hd hc ha =>
    apply keeps_of_aborted ha
    simp only [unitsLeft, hs, DocumentAudit.unitsLeft, List.length_nil]
    omega
  | handOver es d spec rest todo done _ hw hs hd hc hp =>
    -- a specification to come becomes a task that waits
    apply keeps_of_eq
    simp only [unitsLeft, hs, DocumentAudit.unitsLeft, hd, List.length_append, List.length_cons,
      List.length_nil]
    omega
  | checkHere es d spec rest todo done _ hw hs hd hc hp =>
    apply keeps_of_eq
    simp only [unitsLeft, advance, hs, DocumentAudit.unitsLeft, hd, List.length_cons]
    omega
  | stopTaking es d todo done hw hs hd hr ha =>
    apply keeps_of_aborted ha
    simp only [unitsLeft, closeDocument, hs]
    omega
  | takeOn es d todo done hw hs hd hr ha =>
    apply keeps_of_eq
    simp only [unitsLeft, hs, DocumentAudit.unitsLeft]
  | take es d todo done i result queue hw hs hd hr hq =>
    -- a result that was queued is counted
    apply keeps_of_eq
    simp only [unitsLeft, advance, hs, DocumentAudit.unitsLeft, hq, List.length_cons]
    omega
  | close es d todo done hw hs hd hr hq hwait hrun =>
    apply keeps_of_eq
    simp only [unitsLeft, closeDocument, hs, DocumentAudit.unitsLeft, hd, hq, hwait, hrun,
      List.length_nil]
    omega

/-- A task that is begun is still one unit that is left. -/
theorem keeps_of_begin {k : Nat} (h : w.begin k s = some w') : Keeps t s.aborted w w' := by
  obtain ⟨es, d, todo, done, task, hs, hk, rfl⟩ := begin_eq_some h
  have hlength := length_eraseIdx_lt hk
  cases ha : s.aborted with
  | true =>
    -- the task is dropped
    apply keeps_of_aborted rfl
    simp only [unitsLeft, hs, DocumentAudit.unitsLeft, if_true]
    omega
  | false =>
    apply keeps_of_eq
    simp only [unitsLeft, hs, DocumentAudit.unitsLeft, Bool.false_eq_true, if_false,
      List.length_append, List.length_cons, List.length_nil]
    omega

/-- A task that is delivered is still one unit that is left. -/
theorem keeps_of_deliver {k : Nat} (h : w.deliver t k = some w') : Keeps t aborted w w' := by
  obtain ⟨es, d, todo, done, task, hs, hk, rfl⟩ := deliver_eq_some h
  have hlength := length_eraseIdx_lt hk
  apply keeps_of_eq
  simp only [unitsLeft, hs, DocumentAudit.unitsLeft, List.length_append, List.length_cons,
    List.length_nil]
  omega

end FileAudit

namespace Run

variable {t : Setting} {r r' : Run} {c : Choice}

/-- All audits count their units right. -/
def Counts (t : Setting) (r : Run) : Prop := ∀ w ∈ r.audits, w.Counts t r.shared.aborted

/-- All counts are right if that of the audit that has moved is. -/
theorem Counts.put {k : Nat} {w' : FileAudit} {s : Shared} (h : r.Counts t)
    (ha : r.shared.aborted = true → s.aborted = true) (hw' : w'.Counts t s.aborted) :
    ({ r.put k w' with shared := s } : Run).Counts t := by
  intro v hv
  rcases List.mem_or_eq_of_mem_set hv with hv | rfl
  · exact (h v hv).mono ha
  · exact hw'

/-- **No step of a run gets the counts wrong.** -/
theorem counts_of_step (h : r.step t c = some r') (hr : r.Counts t) : r'.Counts t := by
  have hmono := aborted_of_step h
  cases stepped_of_step h with
  | move hm hk hw =>
    have hcounts := (hr _ (List.mem_of_getElem? hk)).keeps (FileAudit.keeps_of_moved hw)
    exact hr.put hmono (hcounts.mono hmono)
  | begin hk hw =>
    have hcounts := (hr _ (List.mem_of_getElem? hk)).keeps (FileAudit.keeps_of_begin hw)
    exact hr.put id hcounts
  | deliver hk hw =>
    have hcounts := (hr _ (List.mem_of_getElem? hk)).keeps (FileAudit.keeps_of_deliver hw)
    exact hr.put id hcounts
  | abort ha => exact fun w hw => (hr w hw).mono hmono

/-- The counts are right in all states of a run. The induction is on its steps. -/
theorem counts_of_reaches (h : Reaches t r r') (hr : r.Counts t) : r'.Counts t :=
  h.keeps hr counts_of_step

/-- **A finished audit has counted no more units than there are, and all of them unless it was
broken off.** -/
theorem units_of_isFinished (hr : r.Counts t) {w : FileAudit} (hw : w ∈ r.audits)
    (hf : w.isFinished = true) :
    w.units ≤ t.unitsPerFile ∧ (r.shared.aborted = false → w.units = t.unitsPerFile) := by
  have hleft : w.unitsLeft t = 0 := by
    unfold FileAudit.isFinished at hf
    unfold FileAudit.unitsLeft
    split at hf
    · next hs => rw [hs]
    · cases hf
  obtain ⟨hle, heq⟩ := hr w hw
  rw [hleft] at hle heq
  exact ⟨hle, heq⟩

end Run

/-- At the start no unit is done and all are left. -/
theorem counts_startRun (s : Session) (t : Setting) : (s.startRun t).Counts t := by
  intro w hw
  rw [audits_startRun] at hw
  obtain ⟨f, -, rfl⟩ := List.mem_map.1 hw
  exact ⟨Nat.le_of_eq (Nat.zero_add _), fun _ => Nat.zero_add _⟩

end BimAudit.Session
