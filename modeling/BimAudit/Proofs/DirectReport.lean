import BimAudit.Proofs.AuditResults

/-!
# The report does not depend on the course of a run

`directReport` is the report that two nested loops make: every document against every model, in the
order in which they are given. A run may take its models at the same time or one after the other, it
may hand specifications to workers, and these may deliver in any order; unless the run is broken
off, it ends with the direct report.

* `Run.Sound`: what holds of a run at any time. `Run.sound_of_reaches`: no run loses it.
* `Run.report_of_finished`: **a finished run that was not broken off has the direct report.**
* `validate_eq_directReport`: the same of whole sessions; no run stops short or goes on for ever.
-/

namespace BimAudit.Session

open Audit (FileResult DocumentResult Report)

/-- The report of all models against all documents, one after the other. -/
def directReport (strict : Bool) (files : List ModelSource) (rules : List RuleSource) : Report where
  documents := rules.map fun r => ⟨r.name, files.map fun m => directResult strict m r⟩
  aborted := false

namespace Run

/-- What holds of a run: every audit is sound, and there is one for each model, in order. -/
structure Sound (t : Setting) (r : Run) : Prop where
  audits : ∀ w ∈ r.audits, w.Sound t r.shared.aborted
  order : r.audits.map (fun w => (w.file, w.position)) = t.files.zipIdx

variable {t : Setting} {r r' : Run} {c : Choice}

theorem set_eq_of_getElem? {α : Type} {l : List α} {k : Nat} {a : α} (h : l[k]? = some a) :
    l.set k a = l := by
  obtain ⟨hk, rfl⟩ := List.getElem?_eq_some_iff.1 h
  exact List.set_getElem_self hk

theorem filterMap_of_forall_some {α β : Type} {f : α → Option β} {g : α → β} {l : List α}
    (h : ∀ a ∈ l, f a = some (g a)) : l.filterMap f = l.map g := by
  induction l with
  | nil => rfl
  | cons a l ih =>
    rw [List.filterMap_cons_some (h a List.mem_cons_self), List.map_cons,
      ih fun b hb => h b (List.mem_cons_of_mem _ hb)]

theorem map_zipIdx_fst {α β : Type} (f : α → β) (l : List α) :
    l.zipIdx.map (fun a => f a.1) = l.map f := by
  have h := congrArg (List.map f) (List.zipIdx_map_fst 0 l)
  rw [List.map_map] at h
  exact h

/-- An audit may take the place of another one of the same model. -/
theorem Sound.put {k : Nat} {w w' : FileAudit} (h : r.Sound t) (hk : r.audits[k]? = some w)
    (hfile : w'.file = w.file ∧ w'.position = w.position) {s : Shared}
    (ha : r.shared.aborted = true → s.aborted = true) (hw' : w'.Sound t s.aborted) :
    ({ r.put k w' with shared := s } : Run).Sound t := by
  refine ⟨?_, ?_⟩
  · intro v hv
    rcases List.mem_or_eq_of_mem_set hv with hv | rfl
    · exact (h.audits v hv).mono ha
    · exact hw'
  · show (r.audits.set k w').map _ = _
    rw [List.map_set, hfile.1, hfile.2, ← h.order]
    apply set_eq_of_getElem?
    rw [List.getElem?_map, hk]
    rfl

/-- What is known of the results stays right in a step. -/
theorem sound_of_step (h : r.step t c = some r') (hr : r.Sound t) : r'.Sound t := by
  -- the sign to stop stays, so what is sound before it is sound behind it
  have hmono := aborted_of_step h
  cases stepped_of_step h with
  | move hm hk hw =>
    have hsound := FileAudit.sound_of_moved hw (hr.audits _ (List.mem_of_getElem? hk))
    exact hr.put hk hw.file hmono (hsound.mono hmono)
  | begin hk hw =>
    have hsound := FileAudit.sound_of_begin hw (hr.audits _ (List.mem_of_getElem? hk))
    exact hr.put hk (FileAudit.file_of_begin hw) id hsound
  | deliver hk hw =>
    have hsound := FileAudit.sound_of_deliver hw (hr.audits _ (List.mem_of_getElem? hk))
    exact hr.put hk (FileAudit.file_of_deliver hw) id hsound
  | abort ha => exact ⟨fun w hw => (hr.audits w hw).mono hmono, hr.order⟩

/-- What is known of the results stays right in a run. The induction is on its steps. -/
theorem sound_of_reaches (h : Reaches t r r') (hr : r.Sound t) : r'.Sound t :=
  h.keeps hr sound_of_step

theorem Sound.files (h : r.Sound t) : r.audits.map (·.file) = t.files := by
  have hfst := congrArg (List.map Prod.fst) h.order
  rw [List.map_map, List.zipIdx_map_fst] at hfst
  exact hfst

/-- The results of all models against all documents, model by model. -/
theorem Sound.fileResults (h : r.Sound t) (ha : r.shared.aborted = false)
    (hf : r.isFinished = true) :
    r.fileResults
      = t.files.map fun m => t.rules.map (directResult t.config.strict m) := by
  have hall : ∀ w ∈ r.audits, FileAudit.results? w
      = some (t.rules.map (directResult t.config.strict w.file)) := by
    intro w hw
    have hsound := h.audits w hw
    rw [ha] at hsound
    exact hsound.results (List.all_eq_true.1 hf w hw)
  unfold Run.fileResults
  rw [filterMap_of_forall_some hall, ← h.files, List.map_map]
  rfl

/-- **A finished run that was not broken off has the direct report.** -/
theorem report_of_finished (h : r.Sound t) (ha : r.shared.aborted = false)
    (hf : r.isFinished = true) : r.report t = directReport t.config.strict t.files t.rules := by
  -- the results stand model by model; a document takes its own from each of them
  have hdoc : ∀ d ∈ t.rules.zipIdx,
      (⟨d.1.name, r.fileResults.filterMap (·[d.2]?)⟩ : DocumentResult)
        = ⟨d.1.name, t.files.map fun m => directResult t.config.strict m d.1⟩ := by
    intro d hd
    have hget : t.rules[d.2]? = some d.1 := List.mem_zipIdx_iff_getElem?.1 hd
    have hrow : ∀ m ∈ t.files, (t.rules.map (directResult t.config.strict m))[d.2]?
        = some (directResult t.config.strict m d.1) := by
      intro m _
      rw [List.getElem?_map, hget]
      rfl
    rw [h.fileResults ha hf, List.filterMap_map]
    exact congrArg (DocumentResult.mk d.1.name) (filterMap_of_forall_some hrow)
  unfold report directReport
  rw [List.map_congr_left hdoc, ha, map_zipIdx_fst fun r : RuleSource =>
    (⟨r.name, t.files.map fun m => directResult t.config.strict m r⟩ : DocumentResult)]

end Run

/-! ### Sessions -/

variable {t : Setting}

theorem audits_startRun (s : Session) (t : Setting) :
    (s.startRun t).audits = t.files.zipIdx.map fun f => { file := f.1, position := f.2 } := rfl

/-- At the start no file has results that could be wrong. -/
theorem sound_startRun (s : Session) (t : Setting) : (s.startRun t).Sound t := by
  refine ⟨?_, ?_⟩
  · intro w hw
    rw [audits_startRun] at hw
    obtain ⟨f, -, rfl⟩ := List.mem_map.1 hw
    trivial
  · rw [audits_startRun, List.map_map]
    exact List.map_id _

/-- Nobody breaks a run off at its start. -/
theorem aborted_startRun (s : Session) (hb : ∀ n, t.breaksOff n = false) :
    (s.startRun t).shared.aborted = false := by
  unfold startRun
  simp only [Shared.emit, hb, Bool.false_eq_true, if_false]
  split
  · rw [Run.aborted_usePool_eq]
  · rfl

/-- The report that a session hands out. -/
theorem report_finishRun (s : Session) (t : Setting) (r : Run) :
    (s.finishRun t r).2.2 = r.report t := rfl

/-- **The report does not depend on the course of a run.** A session that nobody breaks off reports
what two nested loops over documents and models find. So does every other run, with any choice of
strategy, of specifications for the workers, of the order in which they deliver and of whose turn it
is, also if no workers come: no such run goes on for ever, none is stuck before all audits are
finished, and where it is finished and has not been broken off, the report is the same. -/
theorem validate_eq_directReport (s : Session) (workersCome : Bool) (files : List ModelSource)
    (rules : List RuleSource) :
    (s.validate workersCome (fun _ => false) files rules).2.2
        = directReport s.config.strict files rules ∧
      ∀ breaksOff : Nat → Bool,
        let t : Setting := ⟨s.config, files, rules, breaksOff, workersCome⟩
        (¬∃ f : Nat → Run, f 0 = s.startRun t ∧ ∀ n, ∃ c, (f n).step t c = some (f (n + 1))) ∧
        ∀ r, Run.Reaches t (s.startRun t) r →
          (r.isFinished = false → ∃ c, c ≠ .abort ∧ (r.step t c).isSome = true) ∧
          (r.isFinished = true → r.shared.aborted = false →
            (s.finishRun t r).2.2 = directReport s.config.strict files rules) := by
  refine ⟨?_, fun breaksOff => ⟨?_, fun r hr => ⟨?_, ?_⟩⟩⟩
  · -- the session takes the eager schedule to its end
    let t : Setting := ⟨s.config, files, rules, fun _ => false, workersCome⟩
    have hreach := Run.exhaust_reaches (t := t) Run.eager (s.startRun t)
    have hsound := Run.sound_of_reaches hreach (sound_startRun s _)
    refine Run.report_of_finished hsound ?_ (Run.exhaust_eager_isFinished _)
    rw [Run.aborted_exhaust_eager _ fun _ => rfl]
    exact aborted_startRun s fun _ => rfl
  · rintro ⟨f, -, hf⟩
    exact Run.not_endless f hf
  · intro hf
    obtain ⟨c, -, hc, hstep⟩ := Run.eager_possible hf
    exact ⟨c, hc, hstep⟩
  · intro hf ha
    rw [report_finishRun]
    exact Run.report_of_finished (Run.sound_of_reaches hr (sound_startRun s _)) ha hf

/-- A model with two walls, of which the only specification hands both to the workers. -/
theorem validate_eq_directReport_two_walls :
    let s : Session := { config := { workerEntityThreshold := 0, workerThreads := some 2 } }
    let files : List ModelSource :=
      [⟨"a.ifc", "#1=IFCWALL('G1',$,'A',$);\n#2=IFCWALL('G2',$,'B',$);"⟩]
    let rules : List RuleSource := [⟨"walls", { specifications := [
      { name := "Walls", ifcVersion := "IFC4"
        applicability := [{ condition := .entity (.simple "IFCWALL") none }]
        requirements := [{ condition := .attribute (.simple "Name") (some (.simple "A")) }] }] }⟩]
    let t : Setting := ⟨s.config, files, rules, fun _ => false, true⟩
    ∃ r, Run.Reaches t (s.startRun t) r ∧ r.isFinished = true ∧ r.shared.aborted = false ∧
      (s.finishRun t r).2.2 = directReport false files rules := by
  intro s files rules t
  have hreach := Run.exhaust_reaches (t := t) Run.eager (s.startRun t)
  have hfin := Run.exhaust_eager_isFinished (t := t) (s.startRun t)
  have ha : ((s.startRun t).exhaust t Run.eager).shared.aborted = false := by
    rw [Run.aborted_exhaust_eager _ fun _ => rfl]
    exact aborted_startRun s fun _ => rfl
  exact ⟨_, hreach, hfin, ha,
    (((validate_eq_directReport s true files rules).2 fun _ => false).2 _ hreach).2 hfin ha⟩

end BimAudit.Session
