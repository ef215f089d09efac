import BimAudit.Proofs.Courses
import BimAudit.Proofs.UnitCounts

/-!
# What an observer is told of each model

Between the start of a run and its report, an observer is told how far the models have come. An
audit first counts a unit for itself, then makes its count known to the other audits, and only then
tells the observer, so other audits may come between. The progress of one model counts up by one for
all that, whoever does the work and in whatever order it is delivered.

* `FileAudit.Announced`: what a step does to what is known of the units.
* `FileAudit.Known`: what is known of one audit. `Run.Told`: of a run, with all progress so far.
* `Run.told_of_step`, `Run.told_of_reaches`: **every step and every course keeps to that.**
* `Run.counted_of_isFinished`: at the end the observer has been told of each unit of each model.
-/

namespace BimAudit.Session

/-! ### One audit -/

namespace FileAudit

/-- What a step of an audit does to what is known of its units. -/
inductive Announced (t : Setting) (s : Shared) (w : FileAudit) : Shared → FileAudit → Prop where
  | publish (hw : w.announcement = .publish) :
    Announced t s w { s with units := s.units.set w.position w.units }
      { w with announcement := .tell (s.units.set w.position w.units) }
  | tell (units : List Nat) (hw : w.announcement = .tell units) :
    Announced t s w (s.emit t (.progress ⟨w.file.name, w.position, units, t.unitsPerFile⟩))
      { w with announcement := .nothing }
  /-- Nothing is counted. -/
  | quiet {s' : Shared} {w' : FileAudit} (hw : w.announcement = .nothing)
    (hw' : w'.announcement = .nothing) (hunits : w'.units = w.units)
    (hs : s'.events = s.events ∧ s'.units = s.units) : Announced t s w s' w'
  /-- One more unit is done, and nobody knows yet. -/
  | advance {s' : Shared} {w' : FileAudit} (hw : w.announcement = .nothing)
    (hw' : w'.announcement = .publish) (hunits : w'.units = w.units + 1)
    (hs : s'.events = s.events ∧ s'.units = s.units) : Announced t s w s' w'

variable {t : Setting} {delegates : Bool} {s s' : Shared} {w w' : FileAudit}

/-- **Every step of an audit** publishes or tells a number of units, or counts one more, or does
none of these. -/
theorem announced_of_moved (h : Moved t delegates s w s' w') : Announced t s w s' w' := by
  cases h with
  | publish hw => exact .publish hw
  | tell units hw => exact .tell units hw
  | read r r' m hw hs hr => exact .advance hw rfl rfl ⟨rfl, rfl⟩
  | handOver es d spec rest todo done _ hw hs hd hc hp =>
    exact .quiet hw hw rfl (Run.askPool_eq hp)
  | checkHere es d spec rest todo done _ hw hs hd hc hp =>
    exact .advance hw rfl rfl (Run.askPool_eq hp)
  | take es d todo done i result queue hw hs hd hr hq => exact .advance hw rfl rfl ⟨rfl, rfl⟩
  | skip hw | start hw | readOn _ _ _ hw | stopReading _ _ _ hw | finish _ _ hw
  | openDocument _ _ _ _ hw | stopBetween _ _ _ _ hw | look _ _ _ _ _ _ hw
  | leaveOut _ _ _ _ _ _ hw | stopTaking _ _ _ _ hw | takeOn _ _ _ _ hw | close _ _ _ _ hw =>
    exact .quiet hw hw rfl ⟨rfl, rfl⟩

/-- The units that are done and that the observer has not been told of. -/
def untold (w : FileAudit) : Nat :=
  match w.announcement with
  | .nothing => 0
  | .publish | .tell _ => 1

/-- The units that are done and that the other audits do not know of. -/
def unpublished (w : FileAudit) : Nat :=
  match w.announcement with
  | .publish => 1
  | .nothing | .tell _ => 0

/-- The units of the audit number `k` of which some progress tells. -/
def toldUnits (k : Nat) (ps : List Progress) : List Nat :=
  (ps.filter (·.position = k)).map fun p => p.units.getD k 0

/-- What is known of the audit number `k`: the units that it has published are among all `units`,
the observer has been told of one after the other in the progress `ps`, where the last one comes
first, and what it is going to be told is the next one. -/
structure Known (t : Setting) (units : List Nat) (ps : List Progress) (k : Nat) (w : FileAudit) :
    Prop where
  file : t.files[k]? = some w.file
  position : w.position = k
  published : ∃ n, units[k]? = some n ∧ w.units = n + w.unpublished
  told : ∃ n, toldUnits k ps = (List.range' 1 n).reverse ∧ w.units = n + w.untold
  telling : ∀ us, w.announcement = .tell us →
    us.length = t.files.length ∧ us[k]? = some w.units

variable {units : List Nat} {ps : List Progress} {k : Nat}

/-- What is known of an audit does not change while others move. -/
theorem Known.other {units' : List Nat} {ps' : List Progress} (h : w.Known t units ps k)
    (hunits : units'[k]? = units[k]?) (htold : toldUnits k ps' = toldUnits k ps) :
    w.Known t units' ps' k := by
  refine ⟨h.file, h.position, ?_, ?_, h.telling⟩
  · rw [hunits]
    exact h.published
  · rw [htold]
    exact h.told

/-- Nor does it change while the audit counts nothing. -/
theorem Known.quiet (h : w.Known t units ps k)
    (hfile : w'.file = w.file ∧ w'.position = w.position)
    (hunits : w'.units = w.units) (ha : w'.announcement = w.announcement) :
    w'.Known t units ps k := by
  have hunpublished : w'.unpublished = w.unpublished := by
    unfold unpublished
    rw [ha]
  have huntold : w'.untold = w.untold := by
    unfold untold
    rw [ha]
  refine ⟨?_, ?_, ?_, ?_, ?_⟩
  · rw [hfile.1]
    exact h.file
  · rw [hfile.2]
    exact h.position
  · rw [hunits, hunpublished]
    exact h.published
  · rw [hunits, huntold]
    exact h.told
  · rw [hunits, ha]
    exact h.telling

/-- A unit that is done is to be told of next. -/
theorem Known.advance (h : w.Known t units ps k)
    (hfile : w'.file = w.file ∧ w'.position = w.position) (hw : w.announcement = .nothing)
    (hw' : w'.announcement = .publish) (hunits : w'.units = w.units + 1) :
    w'.Known t units ps k := by
  obtain ⟨n, hn, hpublished⟩ := h.published
  obtain ⟨m, hm, htold⟩ := h.told
  simp only [unpublished, untold, hw] at hpublished htold
  refine ⟨?_, ?_, ⟨n, hn, ?_⟩, ⟨m, hm, ?_⟩, ?_⟩
  · rw [hfile.1]
    exact h.file
  · rw [hfile.2]
    exact h.position
  · simp only [unpublished, hw']
    omega
  · simp only [untold, hw']
    omega
  · intro us hus
    rw [hw'] at hus
    cases hus

/-- What is published is known to all. -/
theorem Known.publish (h : w.Known t units ps k) (hw : w.announcement = .publish)
    (hlength : units.length = t.files.length) :
    ({ w with announcement := .tell (units.set w.position w.units) } : FileAudit).Known t
      (units.set w.position w.units) ps k := by
  obtain ⟨n, hn, -⟩ := h.published
  obtain ⟨m, hm, htold⟩ := h.told
  have hlt : k < units.length := (List.getElem?_eq_some_iff.1 hn).1
  -- what is going to be told is a copy of all units, with those of this audit up to date
  have hget : (units.set w.position w.units)[k]? = some w.units := by
    rw [h.position]
    exact List.getElem?_set_self hlt
  simp only [untold, hw] at htold
  refine ⟨h.file, h.position, ⟨w.units, hget, rfl⟩, ⟨m, hm, htold⟩, ?_⟩
  intro us hus
  cases hus
  exact ⟨by rw [List.length_set, hlength], hget⟩

/-- The observer is told of the next unit. -/
theorem Known.tell {us : List Nat} (h : w.Known t units ps k) (hw : w.announcement = .tell us) :
    ({ w with announcement := .nothing } : FileAudit).Known t units
      (⟨w.file.name, w.position, us, t.unitsPerFile⟩ :: ps) k := by
  obtain ⟨n, hn, hpublished⟩ := h.published
  obtain ⟨m, hm, htold⟩ := h.told
  simp only [unpublished, untold, hw] at hpublished htold
  refine ⟨h.file, h.position, ⟨n, hn, hpublished⟩, ⟨m + 1, ?_, htold⟩, ?_⟩
  · have hus : us.getD k 0 = 1 + m := by
      rw [List.getD_eq_getElem?_getD, (h.telling us hw).2, Option.getD_some]
      omega
    unfold toldUnits at hm ⊢
    rw [List.filter_cons_of_pos (by simp [h.position]), List.map_cons, hus, hm,
      List.range'_1_concat, List.reverse_append]
    rfl
  · intro us' hus'
    cases hus'

end FileAudit

/-! ### What the audits share -/

/-- The progress that an event tells of. -/
def Event.progress? : Event → Option Progress
  | .progress p => some p
  | .started _ _ | .complete _ => none

/-- Progress of one of the models. -/
structure Progress.Of (t : Setting) (p : Progress) : Prop where
  file : ∃ m, t.files[p.position]? = some m ∧ p.file = m.name
  length : p.units.length = t.files.length
  unitsPerFile : p.unitsPerFile = t.unitsPerFile

namespace Shared

/-- The progress that the observer has been told of, the last one first. -/
def progress (s : Shared) : List Progress := s.events.filterMap Event.progress?

/-- The observer has been told of the start and then of nothing but progress. -/
structure Told (t : Setting) (start : Event) (s : Shared) : Prop where
  events : s.events = s.progress.map .progress ++ [start]
  shape : ∀ p ∈ s.progress, p.Of t
  length : s.units.length = t.files.length

variable {t : Setting} {start : Event} {s s' : Shared}

theorem progress_congr (h : s'.events = s.events) : s'.progress = s.progress := by
  unfold progress
  rw [h]

/-- An event of progress is put in front of the others. -/
theorem progress_emit (t : Setting) (p : Progress) (s : Shared) :
    (s.emit t (.progress p)).progress = p :: s.progress := by
  unfold progress
  rw [Run.emit_events]
  exact List.filterMap_cons_some rfl

/-- Steps that tell nothing keep what has been told. -/
theorem Told.congr (h : s.Told t start) (hs : s'.events = s.events ∧ s'.units = s.units) :
    s'.Told t start := by
  refine ⟨?_, ?_, ?_⟩
  · rw [progress_congr hs.1, hs.1]
    exact h.events
  · rw [progress_congr hs.1]
    exact h.shape
  · rw [hs.2]
    exact h.length

theorem Told.publish (h : s.Told t start) (k n : Nat) :
    ({ s with units := s.units.set k n } : Shared).Told t start :=
  ⟨h.events, h.shape, by rw [List.length_set, h.length]⟩

/-- An event of progress is told like those before it. -/
theorem Told.tell {p : Progress} (h : s.Told t start) (hp : p.Of t) :
    (s.emit t (.progress p)).Told t start := by
  refine ⟨?_, ?_, ?_⟩
  · rw [progress_emit, Run.emit_events, List.map_cons, List.cons_append, ← h.events]
  · intro q hq
    rw [progress_emit] at hq
    rcases List.mem_cons.1 hq with rfl | hq
    · exact hp
    · exact h.shape q hq
  · rw [Run.emit_units, h.length]

end Shared

/-! ### All audits -/

namespace Run

variable {t : Setting} {start : Event} {r r' : Run} {c : Choice}

/-- What is known of a run. -/
structure Told (t : Setting) (start : Event) (r : Run) : Prop where
  shared : r.shared.Told t start
  length : r.audits.length = t.files.length
  known : ∀ k (w : FileAudit), r.audits[k]? = some w → w.Known t r.shared.units r.shared.progress k

/-- Where one audit is replaced, an audit is the new one or was there before. -/
theorem eq_or_of_getElem?_put {k j : Nat} {w' v : FileAudit}
    (h : (r.put k w').audits[j]? = some v) :
    j = k ∧ v = w' ∨ j ≠ k ∧ r.audits[j]? = some v := by
  have h' : (r.audits.set k w')[j]? = some v := h
  by_cases hj : j = k
  · subst hj
    obtain ⟨hlt, rfl⟩ := List.getElem?_eq_some_iff.1 h'
    exact .inl ⟨rfl, List.getElem_set_self hlt⟩
  · rw [List.getElem?_set_ne (Ne.symm hj)] at h'
    exact .inr ⟨hj, h'⟩

/-- A step of one audit changes nothing of what is told of the others. -/
theorem Told.put {k : Nat} {w' : FileAudit} {s : Shared} (h : r.Told t start)
    (hs : s.Told t start) (hw' : w'.Known t s.units s.progress k)
    (hothers : ∀ j, j ≠ k → s.units[j]? = r.shared.units[j]? ∧
      FileAudit.toldUnits j s.progress = FileAudit.toldUnits j r.shared.progress) :
    ({ r.put k w' with shared := s } : Run).Told t start := by
  refine ⟨hs, ?_, ?_⟩
  · show (r.audits.set k w').length = _
    rw [List.length_set, h.length]
  · intro j v hv
    rcases eq_or_of_getElem?_put hv with ⟨rfl, rfl⟩ | ⟨hj, hv⟩
    · exact hw'
    · exact (h.known j v hv).other (hothers j hj).1 (hothers j hj).2

/-- Where a step counts nothing, nothing changes of what is known. -/
theorem Told.put_quiet {k : Nat} {w' : FileAudit} {s : Shared} (h : r.Told t start)
    (hs : s.events = r.shared.events ∧ s.units = r.shared.units)
    (hw' : w'.Known t r.shared.units r.shared.progress k) :
    ({ r.put k w' with shared := s } : Run).Told t start := by
  have hprogress : s.progress = r.shared.progress := Shared.progress_congr hs.1
  refine h.put (h.shared.congr hs) ?_ fun j _ => ?_
  · rw [hs.2, hprogress]
    exact hw'
  · rw [hs.2, hprogress]
    exact ⟨rfl, rfl⟩

/-- **No step of a run tells anything wrong.** -/
theorem told_of_step (h : r.step t c = some r') (hr : r.Told t start) : r'.Told t start := by
  cases stepped_of_step h with
  | @move k w w' s hm hk hw =>
    have hknown := hr.known k w hk
    have hfile := hw.file
    cases FileAudit.announced_of_moved hw with
    | publish ha =>
      -- the other audits learn of the unit, the observer does not yet
      have hlength := hr.shared.length
      refine hr.put (hr.shared.publish _ _) (hknown.publish ha hlength) fun j hj => ⟨?_, rfl⟩
      rw [hknown.position]
      exact List.getElem?_set_ne (Ne.symm hj)
    | tell us ha =>
      -- only the count of this audit goes up among the progress
      have hof : Progress.Of t ⟨w.file.name, w.position, us, t.unitsPerFile⟩ :=
        ⟨⟨w.file, by rw [hknown.position]; exact hknown.file, rfl⟩, (hknown.telling us ha).1, rfl⟩
      refine hr.put (hr.shared.tell hof) ?_ fun j hj => ?_
      · rw [emit_units, Shared.progress_emit]
        exact hknown.tell ha
      · rw [emit_units, Shared.progress_emit]
        refine ⟨rfl, ?_⟩
        unfold FileAudit.toldUnits
        rw [List.filter_cons_of_neg (by simpa [hknown.position] using Ne.symm hj)]
    | quiet ha ha' hunits hs =>
      exact hr.put_quiet hs (hknown.quiet hfile hunits (ha'.trans ha.symm))
    | advance ha ha' hunits hs =>
      exact hr.put_quiet hs (hknown.advance hfile ha ha' hunits)
  | @begin k task w w' hk hw =>
    obtain ⟨es, d, todo, done, task, -, -, rfl⟩ := FileAudit.begin_eq_some hw
    exact hr.put_quiet ⟨rfl, rfl⟩ ((hr.known k w hk).quiet ⟨rfl, rfl⟩ rfl rfl)
  | @deliver k task w w' hk hw =>
    obtain ⟨es, d, todo, done, task, -, -, rfl⟩ := FileAudit.deliver_eq_some hw
    exact hr.put_quiet ⟨rfl, rfl⟩ ((hr.known k w hk).quiet ⟨rfl, rfl⟩ rfl rfl)
  | abort ha => exact ⟨hr.shared.congr ⟨rfl, rfl⟩, hr.length, hr.known⟩

/-- All states of a run have told the progress. The induction is on its steps. -/
theorem told_of_reaches (h : Reaches t r r') (hr : r.Told t start) : r'.Told t start :=
  h.keeps hr told_of_step

/-! ### The end -/

/-- A finished audit has nothing to tell. -/
theorem announcement_of_isFinished {w : FileAudit} (h : w.isFinished = true) :
    w.announcement = .nothing := by
  obtain ⟨file, position, stage, units, announcement⟩ := w
  cases announcement with
  | nothing => rfl
  | _ => cases h

theorem audit_of_lt {k : Nat} (h : r.Told t start) (hk : k < t.files.length) :
    ∃ w, r.audits[k]? = some w := by
  rw [← h.length] at hk
  exact ⟨r.audits[k], List.getElem?_eq_getElem hk⟩

/-- Behind a finished audit the observer knows all units, and so do the others. -/
theorem known_of_isFinished {k : Nat} {w : FileAudit} (h : r.Told t start)
    (hk : r.audits[k]? = some w) (hf : w.isFinished = true) :
    FileAudit.toldUnits k r.shared.progress = (List.range' 1 w.units).reverse ∧
      r.shared.units[k]? = some w.units := by
  have ha := announcement_of_isFinished hf
  obtain ⟨n, hn, hunits⟩ := (h.known k w hk).published
  obtain ⟨m, hm, htold⟩ := (h.known k w hk).told
  simp only [FileAudit.unpublished, FileAudit.untold, ha, Nat.add_zero] at hunits htold
  rw [hunits] at htold ⊢
  rw [← htold] at hm
  exact ⟨hm, hn⟩

/-- **At the end all units of a model have been told, one after the other**, and all that there are
unless the run has been broken off. -/
theorem counted_of_isFinished (h : r.Told t start) (hcounts : r.Counts t)
    (hf : r.isFinished = true) {k : Nat} (hk : k < t.files.length) :
    ∃ n ≤ t.unitsPerFile, FileAudit.toldUnits k r.shared.progress.reverse = List.range' 1 n ∧
      (r.shared.aborted = false → n = t.unitsPerFile) := by
  obtain ⟨w, hw⟩ := audit_of_lt h hk
  have hmem := List.mem_of_getElem? hw
  have hfin : w.isFinished = true := List.all_eq_true.1 hf w hmem
  obtain ⟨hle, hall⟩ := units_of_isFinished hcounts hmem hfin
  refine ⟨w.units, hle, ?_, hall⟩
  unfold FileAudit.toldUnits
  rw [List.filter_reverse, List.map_reverse]
  exact (congrArg List.reverse (known_of_isFinished h hw hfin).1).trans (List.reverse_reverse _)

theorem unitsPerFile_pos (t : Setting) : 0 < t.unitsPerFile := by
  unfold Setting.unitsPerFile
  omega

/-- Without a break all units are done. -/
theorem eq_unitsPerFile_of_mem_units (h : r.Told t start) (hcounts : r.Counts t)
    (hf : r.isFinished = true) (ha : r.shared.aborted = false) {u : Nat}
    (hu : u ∈ r.shared.units) : u = t.unitsPerFile := by
  obtain ⟨k, hk⟩ := List.mem_iff_getElem?.1 hu
  have hlt : k < t.files.length := by
    rw [← h.shared.length]
    exact (List.getElem?_eq_some_iff.1 hk).1
  obtain ⟨w, hw⟩ := audit_of_lt h hlt
  have hmem := List.mem_of_getElem? hw
  have hfin : w.isFinished = true := List.all_eq_true.1 hf w hmem
  rw [(known_of_isFinished h hw hfin).2] at hk
  cases hk
  exact (units_of_isFinished hcounts hmem hfin).2 ha

/-- Without a break the observer is told of the first model. -/
theorem progress_ne_nil (h : r.Told t start) (hcounts : r.Counts t) (hf : r.isFinished = true)
    (ha : r.shared.aborted = false) (hne : t.files ≠ []) : r.shared.progress ≠ [] := by
  intro hnil
  obtain ⟨n, -, hn, hall⟩ := counted_of_isFinished h hcounts hf (List.length_pos_iff.2 hne)
  rw [hall ha, hnil] at hn
  have hlength := congrArg List.length hn
  rw [List.length_range'] at hlength
  exact Nat.ne_of_lt (unitsPerFile_pos t) hlength

end Run

/-! ### The start -/

/-- At the start no units are published. -/
theorem units_startRun (s : Session) (t : Setting) :
    (s.startRun t).shared.units = List.replicate t.files.length 0 := by
  unfold Session.startRun
  simp only
  split
  · rw [(Run.usePool_eq _ _).2, Run.emit_units]
  · rw [Run.emit_units]

/-- At the start no progress is told. -/
theorem progress_startRun (s : Session) (t : Setting) : (s.startRun t).shared.progress = [] := by
  unfold Shared.progress
  rw [events_startRun]
  rfl

/-- At the start it is told that the run has started. -/
theorem told_startRun (s : Session) (t : Setting) :
    (s.startRun t).Told t (.started (s.chooseStrategy t.files) t.files.length) := by
  have hunits := units_startRun s t
  have hprogress := progress_startRun s t
  refine ⟨⟨?_, ?_, ?_⟩, ?_, ?_⟩
  · rw [hprogress, events_startRun]
    rfl
  · rw [hprogress]
    intro p hp
    cases hp
  · rw [hunits, List.length_replicate]
  · rw [audits_startRun, List.length_map, List.length_zipIdx]
  · intro k w hk
    rw [audits_startRun, List.getElem?_map, List.getElem?_zipIdx, Option.map_map] at hk
    obtain ⟨m, hm, rfl⟩ := Option.map_eq_some_iff.1 hk
    have hlt : k < t.files.length := (List.getElem?_eq_some_iff.1 hm).1
    rw [hunits, hprogress]
    refine ⟨hm, Nat.zero_add k, ⟨0, ?_, rfl⟩, ⟨0, rfl, rfl⟩, ?_⟩
    · rw [List.getElem?_replicate, if_pos hlt]
    · intro us hus
      cases hus

end BimAudit.Session
