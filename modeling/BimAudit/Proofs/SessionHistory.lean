import BimAudit.Proofs.LateResults
import BimAudit.Proofs.SoleCourse

/-!
# The history of a session makes no difference

A session may be broken off between runs or by its observers, it may keep workers from one run to
the next or let them go, workers that it calls may come or not, and it may have been asked for
strategies. Whatever has happened before, a run gives the report and tells the observer of each
model what it would for a new session with the same configuration. Where the run is broken off this
needs that no workers are used, since else it depends on them how far the audits have come.

* `Run.Tallied`: each unit is told once. `Run.length_events_le`: the number of events of a run.
* `progressOfFile`: what the observer is told of a model.
* `Session.Runs`: the runs of a session. `Session.SameResult`: two of them give the same result.
* `Session.Operation`, `Session.Performs`: the operations on a session.
* `Session.hasWorkers`: workers are to be had for a run. `sequential_startRun_iff`: **when the
  audits take place one after the other.**
* `Session.UsesNoWorkers`: the audits take place one after the other and hand nothing over.
* `validate_after_operations`: **a run after any operations is a run of a new session.**
-/

namespace BimAudit.Session

open Audit (Report)

/-! ### The number of events -/

namespace Run

variable {t : Setting} {start : Event} {r r' : Run} {c : Choice}

/-- The observer has been told of every unit once, but for those that it will be told of next. -/
def Tallied (r : Run) : Prop := r.shared.progress.length + r.untold = total (·.units) r.audits

/-- The units that are counted are told of in a step. -/
theorem tallied_of_step (h : r.step t c = some r') (hr : r.Tallied) : r'.Tallied := by
  have hput : ∀ {k : Nat} {w w' : FileAudit} {s : Shared}, r.audits[k]? = some w →
      s.progress.length + w'.untold + w.units = r.shared.progress.length + w.untold + w'.units →
      ({ r.put k w' with shared := s } : Run).Tallied := by
    intro k w w' s hk heq
    have huntold := total_set (·.untold) hk w'
    have hunits := total_set (·.units) hk w'
    unfold Tallied untold at hr ⊢
    show s.progress.length + total (·.untold) (r.audits.set k w')
      = total (·.units) (r.audits.set k w')
    omega
  cases stepped_of_step h with
  | @move k w w' s hm hk hw =>
    apply hput hk
    cases FileAudit.announced_of_moved hw with
    | publish ha =>
      unfold FileAudit.untold
      rw [ha]
      rfl
    | tell us ha =>
      rw [Shared.progress_emit, List.length_cons]
      unfold FileAudit.untold
      rw [ha]
      rfl
    | quiet ha ha' hunits hs =>
      unfold FileAudit.untold
      rw [ha, ha', hunits, Shared.progress_congr hs.1]
    | advance ha ha' hunits hs =>
      unfold FileAudit.untold
      rw [ha, ha', hunits, Shared.progress_congr hs.1]
      show _ + 1 + _ = _ + 0 + _
      omega
  | @begin k task w w' hk hw =>
    obtain ⟨es, d, todo, done, task, -, -, rfl⟩ := FileAudit.begin_eq_some hw
    exact hput hk rfl
  | @deliver k task w w' hk hw =>
    obtain ⟨es, d, todo, done, task, -, -, rfl⟩ := FileAudit.deliver_eq_some hw
    exact hput hk rfl
  | abort ha => exact hr

theorem tallied_of_reaches (h : Reaches t r r') (hr : r.Tallied) : r'.Tallied :=
  h.keeps hr tallied_of_step

/-- **The number of events of a run**: the start and one for each unit of each model, and fewer only
if the run is broken off. -/
theorem length_events_le (h : r.Told t start) (hcounts : r.Counts t) (htallied : r.Tallied)
    (hf : r.isFinished = true) :
    r.shared.events.length ≤ t.files.length * t.unitsPerFile + 1 ∧
      (r.shared.aborted = false →
        r.shared.events.length = t.files.length * t.unitsPerFile + 1) := by
  have hevents : r.shared.events.length = r.shared.progress.length + 1 := by
    rw [h.shared.events, List.length_append, List.length_map, List.length_singleton]
  have huntold := (untold_owed_of_isFinished hf).1
  unfold Tallied at htallied
  have hunits : ∀ w ∈ r.audits,
      w.units ≤ t.unitsPerFile ∧ (r.shared.aborted = false → w.units = t.unitsPerFile) :=
    fun w hw => units_of_isFinished hcounts hw (List.all_eq_true.1 hf w hw)
  have hle : total (·.units) r.audits ≤ r.audits.length * t.unitsPerFile :=
    total_le fun w hw => (hunits w hw).1
  rw [h.length] at hle
  refine ⟨by omega, fun ha => ?_⟩
  have heq : total (·.units) r.audits = r.audits.length * t.unitsPerFile :=
    total_eq_mul fun w hw => (hunits w hw).2 ha
  rw [h.length] at heq
  omega

end Run

/-! ### What the observer is told of a model -/

/-- The progress of a model among some events: its name and the percentages. -/
def progressOfFile (k : Nat) (events : List Event) : List (String × Float) :=
  ((events.filterMap Event.progress?).filter (·.position = k)).map fun p => (p.file, p.filePercent)

/-- A percentage is a matter of the units that are told. -/
theorem map_progress_eq {t : Setting} {ps : List Progress} (h : ∀ p ∈ ps, p.Of t) (k : Nat) :
    (ps.filter (·.position = k)).map (fun p => (p.file, p.filePercent))
      = (FileAudit.toldUnits k ps).map fun u =>
        ((t.files[k]?.map (·.name)).getD "", (Progress.mk "" k [] t.unitsPerFile).percent u) := by
  unfold FileAudit.toldUnits
  rw [List.map_map]
  apply List.map_congr_left
  intro p hp
  obtain ⟨hmem, hposition⟩ := List.mem_filter.1 hp
  rw [decide_eq_true_eq] at hposition
  obtain ⟨m, hm, hname⟩ := (h p hmem).file
  have hunits := (h p hmem).unitsPerFile
  rw [hposition] at hm
  show (p.file, p.filePercent) = _
  rw [Function.comp_apply, hm, Option.map_some, Option.getD_some, hname, Progress.filePercent,
    hposition]
  unfold Progress.percent
  rw [hunits]

/-- The observer is told nothing of a model that is not there. -/
theorem toldUnits_eq_nil {t : Setting} {ps : List Progress} (h : ∀ p ∈ ps, p.Of t) {k : Nat}
    (hk : t.files.length ≤ k) : FileAudit.toldUnits k ps = [] := by
  unfold FileAudit.toldUnits
  rw [List.map_eq_nil_iff, List.filter_eq_nil_iff]
  intro p hp hposition
  rw [decide_eq_true_eq] at hposition
  obtain ⟨m, hm, -⟩ := (h p hp).file
  have hlt := (List.getElem?_eq_some_iff.1 hm).1
  omega

/-! ### Runs of a session -/

/-- A run of the session from its start to its end. Nobody but the observer asks to stop. -/
structure Runs (s : Session) (t : Setting) (cs : List Choice) (r : Run) : Prop where
  follow : (s.startRun t).follow t cs = some r
  isFinished : r.isFinished = true
  observed : .abort ∉ cs

variable {s s' : Session} {t : Setting} {b : Bool} {cs cs' : List Choice} {r r' : Run}

theorem Runs.reaches (h : s.Runs t cs r) : Run.Reaches t (s.startRun t) r :=
  Run.reaches_iff_follow.2 ⟨cs, h.follow⟩

theorem Runs.told (h : s.Runs t cs r) :
    r.Told t (.started (s.chooseStrategy t.files) t.files.length) :=
  Run.told_of_reaches h.reaches (told_startRun s t)

theorem Runs.counts (h : s.Runs t cs r) : r.Counts t :=
  Run.counts_of_reaches h.reaches (counts_startRun s t)

theorem tallied_startRun (s : Session) (t : Setting) : (s.startRun t).Tallied := by
  have hnew : ∀ w ∈ (s.startRun t).audits, w.untold = 0 ∧ w.units = 0 := by
    intro w hw
    rw [audits_startRun] at hw
    obtain ⟨f, -, rfl⟩ := List.mem_map.1 hw
    exact ⟨rfl, rfl⟩
  unfold Run.Tallied Run.untold
  rw [progress_startRun, total_eq_zero fun w hw => (hnew w hw).1,
    total_eq_zero fun w hw => (hnew w hw).2]
  rfl

/-- A run tells of each unit once, and of all of them unless it is broken off. -/
theorem Runs.length_events (h : s.Runs t cs r) :
    r.shared.events.length ≤ t.files.length * t.unitsPerFile + 1 ∧
      (r.shared.aborted = false →
        r.shared.events.length = t.files.length * t.unitsPerFile + 1) :=
  Run.length_events_le h.told h.counts
    (Run.tallied_of_reaches h.reaches (tallied_startRun s t)) h.isFinished

/-- **If the observer lets one run come to its end, it does so with every run**, whether workers
come or not. It asks to stop at events with certain numbers, and no run has more events than one
that is not broken off. -/
theorem Runs.aborted_eq_false (h : s.Runs t cs r) (h' : s'.Runs (t.withWorkers b) cs' r')
    (ha : r.shared.aborted = false) : r'.shared.aborted = false := by
  have hlength := h.length_events.2 ha
  have hlength' : r'.shared.events.length ≤ t.files.length * t.unitsPerFile + 1 :=
    h'.length_events.1
  have hnot : ¬r.BrokenOff t cs := by
    rw [← Run.aborted_iff_brokenOff h.follow, ha]
    exact Bool.false_ne_true
  rw [Bool.eq_false_iff, ne_eq, Run.aborted_iff_brokenOff h'.follow]
  rintro (hmem | ⟨n, hlt, hb⟩)
  · exact h'.observed hmem
  · exact hnot (.inr ⟨n, by omega, hb⟩)

/-- The progress of a file is what has been told of it. -/
theorem progressOfFile_finishRun (s : Session) (t : Setting) (r : Run) (k : Nat) :
    progressOfFile k (s.finishRun t r).2.1
      = (r.shared.progress.reverse.filter (·.position = k)).map
        fun p => (p.file, p.filePercent) := by
  unfold progressOfFile Shared.progress
  rw [events_finishRun, List.filterMap_reverse]
  rfl

/-- The report is the same, and the observer is told the same of each model. -/
structure SameResult (out out' : Session × List Event × Report) : Prop where
  report : out.2.2 = out'.2.2
  progress : ∀ k, progressOfFile k out.2.1 = progressOfFile k out'.2.1

/-- **Two runs that nobody breaks off give the same result**, whatever the workers do. -/
theorem Runs.same_of_not_aborted (h : s.Runs t cs r) (h' : s'.Runs (t.withWorkers b) cs' r')
    (ha : r.shared.aborted = false) :
    SameResult (s.finishRun t r) (s'.finishRun (t.withWorkers b) r') := by
  have ha' := h.aborted_eq_false h' ha
  have hsound := Run.sound_of_reaches h.reaches (sound_startRun s t)
  have hsound' := Run.sound_of_reaches h'.reaches (sound_startRun s' (t.withWorkers b))
  refine ⟨?_, fun k => ?_⟩
  · rw [report_finishRun, report_finishRun, Run.report_of_finished hsound ha h.isFinished,
      Run.report_of_finished hsound' ha' h'.isFinished]
  · have hshape : ∀ p ∈ r.shared.progress.reverse, p.Of t :=
      fun p hp => h.told.shared.shape p (List.mem_reverse.1 hp)
    -- what the observer is told does not mention the workers
    have hshape' : ∀ p ∈ r'.shared.progress.reverse, p.Of t := by
      intro p hp
      have hof := h'.told.shared.shape p (List.mem_reverse.1 hp)
      exact ⟨hof.file, hof.length, hof.unitsPerFile⟩
    rw [progressOfFile_finishRun, progressOfFile_finishRun, map_progress_eq hshape,
      map_progress_eq hshape']
    refine congrArg (List.map _) ?_
    -- all units of a model are told, and of no other model any
    rcases Nat.lt_or_ge k t.files.length with hk | hk
    · obtain ⟨n, -, hn, hall⟩ := Run.counted_of_isFinished h.told h.counts h.isFinished hk
      obtain ⟨n', -, hn', hall'⟩ := Run.counted_of_isFinished h'.told h'.counts h'.isFinished hk
      rw [hn, hn', hall ha, hall' ha']
      rfl
    · rw [toldUnits_eq_nil hshape hk, toldUnits_eq_nil hshape' hk]

/-- The audits of the run take place one after the other, and the workers have no specification in
hand at any time. -/
structure UsesNoWorkers (s : Session) (t : Setting) (cs : List Choice) : Prop where
  sequential : (s.startRun t).sequential = true
  unassisted : Run.Unassisted t cs (s.startRun t)

/-- **Two runs without workers give the same result**, broken off or not. -/
theorem Runs.same_of_usesNoWorkers (h : s.Runs t cs r) (h' : s'.Runs (t.withWorkers b) cs' r')
    (halike : (s.startRun t).Alike (s'.startRun (t.withWorkers b))) (hs : s.UsesNoWorkers t cs)
    (hother : Run.NoMoreWorkers t b (s.startRun t) (s'.startRun (t.withWorkers b)) cs') :
    SameResult (s.finishRun t r) (s'.finishRun (t.withWorkers b) r') := by
  have hend := Run.alike_of_unassisted halike hs.sequential hs.unassisted hother h.follow
    h.isFinished h.observed h'.follow h'.isFinished h'.observed
  refine ⟨?_, fun k => ?_⟩
  · rw [report_finishRun, report_finishRun]
    unfold Run.report Run.fileResults
    rw [hend.audits, hend.shared.aborted]
  · rw [progressOfFile_finishRun, progressOfFile_finishRun,
      Shared.progress_congr hend.shared.events]

/-! ### What the operations keep -/

/-- An operation on a session. -/
inductive Operation where
  | chooseStrategy (files : List ModelSource)
  | abort
  | validate (breaksOff : Nat → Bool) (files : List ModelSource) (rules : List RuleSource)

/-- The operation is a run. -/
def Operation.isRun : Operation → Bool
  | validate _ _ _ => true
  | chooseStrategy _ | abort => false

/-- What an operation can make of a session. A run may take any course, and anybody may break it
off. -/
inductive Does : Session → Operation → Session → Prop where
  | chooseStrategy (s : Session) (files : List ModelSource) : Does s (.chooseStrategy files) s
  | abort (s : Session) : Does s .abort s.abort
  | validate (s : Session) (t : Setting) (r : Run) : s.config = t.config →
      Run.Reaches t (s.startRun t) r → r.isFinished = true →
      Does s (.validate t.breaksOff t.files t.rules) (s.finishRun t r).1

/-- What a sequence of operations can make of a session. -/
inductive Performs : Session → List Operation → Session → Prop where
  | nil (s : Session) : Performs s [] s
  | cons {s s' s'' : Session} {op : Operation} {ops : List Operation} :
      Does s op s' → Performs s' ops s'' → Performs s (op :: ops) s''

/-- The session has a configuration, and it has workers only if the configuration allows any. -/
structure Configured (config : Config) (s : Session) : Prop where
  same : s.config = config
  pool : s.pool = true → config.workerThreads ≠ some 0

/-- Workers are to be had for a run: some are left, or they come when they are called. -/
def hasWorkers (s : Session) (t : Setting) : Bool := s.pool || t.hasWorkers

theorem staffed_started (s : Session) (t : Setting) (units : List Nat) (e : Event) :
    (({ pool := s.pool, units } : Shared).emit t e).Staffed t (s.hasWorkers t) := by
  have hfirst : ({ pool := s.pool, units } : Shared).Staffed t (s.hasWorkers t) := by
    refine ⟨?_, fun _ _ hready => (nomatch hready), fun _ _ => rfl⟩
    intro (hp : s.pool = true)
    unfold hasWorkers
    rw [hp, Bool.true_or]
  exact hfirst.emit e

/-- From the start of a run on it is settled whether workers are to be had. -/
theorem staffed_startRun (s : Session) (t : Setting) :
    (s.startRun t).shared.Staffed t (s.hasWorkers t) := by
  unfold startRun
  simp only
  split
  · exact (staffed_started s t _ _).usePool
  · exact staffed_started s t _ _

/-- **When the audits take place one after the other**: always but for several small models, and for
these if the observer breaks the run off at its start or no workers are to be had. -/
theorem sequential_startRun_iff (s : Session) (t : Setting) :
    (s.startRun t).sequential = true ↔
      (s.chooseStrategy t.files = .parallelSmallFiles →
        t.breaksOff 0 = true ∨ s.hasWorkers t = false) := by
  unfold startRun
  simp only
  split
  case isTrue hsmall =>
    rw [Shared.usePool_fst (staffed_started s t _ _), Run.emit_aborted]
    cases hb : t.breaksOff 0 <;> cases hw : s.hasWorkers t <;> simp [hsmall]
  case isFalse hsmall => exact ⟨fun _ h => absurd h hsmall, fun _ => rfl⟩

/-- **What is left of the workers makes no difference to the start of a run** but for whether the
audits take place one after the other. -/
theorem startRun_alike (hs : s.Configured t.config) (hs' : s'.Configured t.config)
    (hseq : (s.startRun t).sequential = (s'.startRun (t.withWorkers b)).sequential) :
    (s.startRun t).Alike (s'.startRun (t.withWorkers b)) := by
  have hstrategy : s.chooseStrategy t.files = s'.chooseStrategy t.files := by
    unfold chooseStrategy
    rw [hs.same, hs'.same]
  refine ⟨hseq, ?_, ?_, ?_, ?_⟩
  · rw [audits_startRun, audits_startRun]
  · rw [aborted_startRun_eq, aborted_startRun_eq]
  · rw [units_startRun, units_startRun]
  · rw [events_startRun, events_startRun, hstrategy]

theorem idle_startRun (s : Session) (t : Setting) : (s.startRun t).Idle := by
  intro w hw
  rw [audits_startRun] at hw
  obtain ⟨f, -, rfl⟩ := List.mem_map.1 hw
  exact .outside fun _ _ _ _ => Stage.noConfusion

/-- No workers are to be had where the configuration allows none. -/
theorem Configured.hasWorkers_eq_false (hs : s.Configured t.config)
    (ht : t.config.workerThreads = some 0) : s.hasWorkers t = false := by
  have hpool : s.pool = false := by
    rw [Bool.eq_false_iff]
    exact fun hp => hs.pool hp ht
  unfold hasWorkers Setting.hasWorkers
  rw [hpool, ht]
  rfl

/-- Where no workers are to be had, none are used. -/
theorem usesNoWorkers_of_hasWorkers (h : s.hasWorkers t = false) (cs : List Choice) :
    s.UsesNoWorkers t cs := by
  have hstaffed : (s.startRun t).shared.Staffed t false := h ▸ staffed_startRun s t
  exact ⟨(sequential_startRun_iff s t).2 fun _ => .inr h,
    Run.unassisted_of_staffed hstaffed (idle_startRun s t) cs⟩

/-- An operation keeps the configuration, and it leaves workers only if the configuration allows
any. -/
theorem Configured.does {config : Config} {op : Operation} (hs : s.Configured config)
    (h : s.Does op s') : s'.Configured config := by
  cases h with
  | chooseStrategy => exact hs
  | abort => exact ⟨hs.same, Bool.noConfusion⟩
  | validate t r hconfig hreach hf =>
    obtain rfl : t.config = config := hconfig.symm.trans hs.same
    refine ⟨hs.same, fun hp ht => ?_⟩
    have hend :=
      (Run.staffed_of_reaches hreach (staffed_startRun s t)).emit (.complete (r.report t))
    rw [hs.hasWorkers_eq_false ht] at hend
    cases hend.pool hp

/-- Operations leave a session configured as it is. -/
theorem Configured.performs {config : Config} {ops : List Operation} (hs : s.Configured config)
    (h : s.Performs ops s') : s'.Configured config := by
  induction h with
  | nil => exact hs
  | cons hdoes _ ih => exact ih (hs.does hdoes)

/-! ### The result after any history -/

/-- **A run after any operations is a run of a new session.** Operations that are not runs leave the
phase of a session. A run of the session comes to its end, and the session takes one of its courses.
Afterwards the phase is aborted if the report is, and complete otherwise, and the session has the
sign to stop if the report is aborted, unless the observer breaks it off while it is shown the
report. The report is aborted if that of a new session with the same configuration is, whether
workers come to either of them or not. The result is that of the new session if the run is not
broken off, if the configuration allows no workers, or if the run uses no workers and either the run
of the new session uses none, or workers are to be had for the new session only if they are for this
one. The latter is the case where workers come to both sessions or to neither. -/
theorem validate_after_operations {config : Config} {ops : List Operation} {s : Session}
    (h : Performs { config } ops s) :
    (∀ op s', s.Does op s' → op.isRun = false → s'.phase = s.phase) ∧
      ∀ (workersCome : Bool) (breaksOff : Nat → Bool) (files : List ModelSource)
        (rules : List RuleSource),
        let t : Setting := ⟨config, files, rules, breaksOff, workersCome⟩
        let new : Session := { config }
        (s.startRun t).ComesToEnd t ∧
          (∃ cs r, s.Runs t cs r ∧ s.validate workersCome breaksOff files rules = s.finishRun t r) ∧
          ∀ cs r, s.Runs t cs r →
            let out := s.finishRun t r
            (out.1.phase = if out.2.2.aborted then .aborted else .complete) ∧
              (breaksOff r.shared.events.length = false → out.1.aborted = out.2.2.aborted) ∧
              ∀ (workersCome' : Bool) (cs' : List Choice) (r' : Run),
                let t' := t.withWorkers workersCome'
                new.Runs t' cs' r' →
                  out.2.2.aborted = (new.finishRun t' r').2.2.aborted ∧
                    (out.2.2.aborted = false ∨ config.workerThreads = some 0 ∨
                        s.UsesNoWorkers t cs ∧
                          (new.UsesNoWorkers t' cs' ∨
                            (new.hasWorkers t' = true → s.hasWorkers t = true)) →
                      SameResult out (new.finishRun t' r')) := by
  have hnew : Configured config { config } := ⟨rfl, Bool.noConfusion⟩
  have hs := hnew.performs h
  refine ⟨?_, fun workersCome breaksOff files rules => ?_⟩
  · rintro op s' hdoes hrun
    cases hdoes with
    | chooseStrategy | abort => rfl
    | validate => cases hrun
  intro t new
  refine ⟨Run.comesToEnd t _, ?_, fun cs r hr => ⟨rfl, ?_, fun workersCome' cs' r' => ?_⟩⟩
  · obtain ⟨cs, r, hcs, hf, habort, heq⟩ :=
      validate_eq_finishRun s workersCome breaksOff files rules
    rw [hs.same] at hcs heq
    exact ⟨cs, r, ⟨hcs, hf, habort⟩, heq⟩
  · intro (hb : t.breaksOff r.shared.events.length = false)
    show (r.shared.emit t _).aborted = r.shared.aborted
    rw [Run.emit_aborted, hb, Bool.or_false]
  intro t' hr'
  have hwithout : s.UsesNoWorkers t cs → (new.UsesNoWorkers t' cs' ∨
      (new.hasWorkers t' = true → s.hasWorkers t = true)) →
      SameResult (s.finishRun t r) (new.finishRun t' r') := by
    intro hnone hother
    have hnone' : (new.startRun t').sequential = true := by
      rcases hother with hnone' | hhas
      · exact hnone'.sequential
      · rw [sequential_startRun_iff]
        intro hsmall
        have hstrategy : s.chooseStrategy t.files = .parallelSmallFiles := by
          rw [← hsmall]
          unfold chooseStrategy
          rw [hs.same]
        refine ((sequential_startRun_iff s t).1 hnone.sequential hstrategy).imp_right fun hw => ?_
        rw [Bool.eq_false_iff]
        intro hw'
        rw [hhas hw'] at hw
        cases hw
    refine hr.same_of_usesNoWorkers hr'
      (startRun_alike hs hnew (hnone.sequential.trans hnone'.symm)) hnone ?_
    exact hother.imp (·.unassisted)
      fun hhas => ⟨_, _, staffed_startRun s t, staffed_startRun new t', hhas⟩
  refine ⟨?_, ?_⟩
  · show r.shared.aborted = r'.shared.aborted
    cases ha : r.shared.aborted with
    | false => exact (hr.aborted_eq_false hr' ha).symm
    | true =>
      cases ha' : r'.shared.aborted with
      | true => rfl
      | false =>
        rw [hr'.aborted_eq_false hr ha'] at ha
        cases ha
  · rintro (ha | ht | ⟨hnone, hother⟩)
    · exact hr.same_of_not_aborted hr' ha
    · exact hwithout (usesNoWorkers_of_hasWorkers (hs.hasWorkers_eq_false ht) cs)
        (.inl (usesNoWorkers_of_hasWorkers (hnew.hasWorkers_eq_false ht) cs'))
    · exact hwithout hnone hother

/-- A session is broken off before its first run, and the observer breaks off that one. The next run
of the session is complete, and it has the result of a new session to which no workers come. -/
theorem validate_after_operations_one_wall :
    let new : Session := { config := oneWall.config }
    let ops : List Operation :=
      [.abort, .validate oneWall.breaksOff oneWall.files oneWall.rules,
        .chooseStrategy oneWall.files]
    let t : Setting := { oneWall with breaksOff := fun _ => false }
    let t' : Setting := t.withWorkers false
    ∃ s, new.Performs ops s ∧ s.phase = .aborted ∧
      ∃ cs r cs' r', s.Runs t cs r ∧ (s.finishRun t r).1.phase = .complete ∧
        new.Runs t' cs' r' ∧ SameResult (s.finishRun t r) (new.finishRun t' r') := by
  intro new ops t t'
  obtain ⟨r₀, r₁, hstopped, -, -, -, hreach, hf, -⟩ := justStopped_oneWall
  have hsmall : new.chooseStrategy oneWall.files ≠ .parallelSmallFiles := by decide +revert
  have haborted : r₁.shared.aborted = true :=
    (Run.stopped_of_reaches hreach (Run.stopped_of_justStopped hsmall hstopped).1).1.aborted
  have hperforms : new.Performs ops (new.abort.finishRun oneWall r₁).1 :=
    .cons (.abort new) (.cons (.validate new.abort oneWall r₁ rfl
      ((Run.reaches_of_justStopped hstopped).trans hreach) hf)
      (.cons (.chooseStrategy _ oneWall.files) (.nil _)))
  refine ⟨_, hperforms, ?_, ?_⟩
  · show (if r₁.shared.aborted then Phase.aborted else Phase.complete) = Phase.aborted
    rw [haborted]
    rfl
  obtain ⟨-, hvalidate⟩ := validate_after_operations hperforms
  obtain ⟨-, ⟨cs, r, hr, -⟩, hruns⟩ := hvalidate true t.breaksOff t.files t.rules
  obtain ⟨cs', r', hcs', hf', habort', -⟩ :=
    validate_eq_finishRun new false t.breaksOff t.files t.rules
  have hr' : new.Runs t' cs' r' := ⟨hcs', hf', habort'⟩
  obtain ⟨hphase, -, hnew⟩ := hruns cs r hr
  have hwhole : r.shared.aborted = false := by
    rw [Bool.eq_false_iff, ne_eq, Run.aborted_iff_brokenOff hr.follow]
    rintro (hmem | ⟨n, -, hn⟩)
    · exact hr.observed hmem
    · cases hn
  refine ⟨cs, r, cs', r', hr, ?_, hr', (hnew false cs' r' hr').2 (.inl hwhole)⟩
  refine hphase.trans ?_
  show (if r.shared.aborted then Phase.aborted else Phase.complete) = Phase.complete
  rw [hwhole]
  rfl

end BimAudit.Session
