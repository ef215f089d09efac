import BimAudit.Proofs.Correspondences
import BimAudit.Proofs.Courses
import BimAudit.Proofs.DirectReport

/-!
# The report of a run that is broken off

A run may be broken off at any time, and its audits notice at different points: one model is not
read at all, another one is through with some documents, and within a document some specifications
are left out. What is found is kept, model by model, and a document takes its own from each model by
position. So the report is a part of the one that there would have been.

* `RowOf`: the results of one model, as a part of a full report. `PartOf`: a whole report.
* `Run.partOf_directReport`: what a run reports is a part of the direct report.
* `report_of_brokenOff`: **the report of a run that is broken off.**
-/

namespace BimAudit.Session

open Audit (FileResult DocumentResult Report)

/-- The entry of a model in the results of a document, both by position. -/
def entry? (a : Report) (document model : Nat) : Option FileResult :=
  a.documents[document]?.bind (·.files[model]?)

/-- The results of the model number `i`: those of the first documents in the full report. Only the
last one may lack specifications. -/
structure RowOf (full : Report) (i : Nat) (row : List FileResult) : Prop where
  part : ∀ j a, row[j]? = some a → ∃ b, entry? full j i = some b ∧ IsPart a b
  complete : ∀ j a, row[j]? = some a → j + 1 < row.length → entry? full j i = some a

/-- A report with the same documents as the full one, where a document has an entry for each model
that came to it, in the order of the models. -/
structure PartOf (full : Report) (rows : List (List FileResult)) (a : Report) : Prop where
  names : a.documents.map (·.name) = full.documents.map (·.name)
  files : ∀ (j : Nat) (d : DocumentResult), a.documents[j]? = some d →
    d.files = rows.filterMap (·[j]?)
  rows : ∀ i row, rows[i]? = some row → RowOf full i row

theorem IsPart.refl (a : FileResult) : IsPart a a := ⟨rfl, rfl, List.Sublist.refl _⟩

/-! ### One model -/

variable {t : Setting} {aborted : Bool} {m : ModelSource} {rs : List RuleSource}
  {done : List FileResult}

/-- Results stand for the documents in order, and only the last one may be a mere part. -/
theorem getElem?_of_areResults (h : AreResults t aborted m rs done) {j : Nat} {a : FileResult}
    (ha : done[j]? = some a) :
    ∃ r, rs[j]? = some r ∧ IsPart a (directResult t.config.strict m r) ∧
      (j + 1 < done.length → a = directResult t.config.strict m r) := by
  rcases h with rfl | ⟨-, init, last, b, rfl, rfl, hb⟩
  · rw [List.getElem?_map] at ha
    obtain ⟨r, hr, rfl⟩ := Option.map_eq_some_iff.1 ha
    exact ⟨r, hr, IsPart.refl _, fun _ => rfl⟩
  · rcases Nat.lt_or_ge j init.length with hj | hj
    · rw [List.getElem?_append_left (by rw [List.length_map]; exact hj), List.getElem?_map] at ha
      obtain ⟨r, hr, rfl⟩ := Option.map_eq_some_iff.1 ha
      rw [List.getElem?_append_left hj]
      exact ⟨r, hr, IsPart.refl _, fun _ => rfl⟩
    · -- behind the complete results there is the last one
      rw [List.getElem?_append_right (by rw [List.length_map]; exact hj), List.length_map,
        List.getElem?_singleton] at ha
      split at ha
      · next hzero =>
        cases ha
        have hj' : j = init.length := by omega
        refine ⟨last, ?_, hb, fun hlt => ?_⟩
        · rw [hj', List.getElem?_append_right (Nat.le_refl _), Nat.sub_self]
          rfl
        · simp only [List.length_append, List.length_map, List.length_singleton] at hlt
          omega
      · cases ha

namespace FileAudit

/-- The results of a model, none if it was not read. -/
def row (w : FileAudit) : List FileResult := w.results?.getD []

theorem getElem?_row {w : FileAudit} (hw : w.Sound t aborted) {j : Nat} {a : FileResult}
    (ha : w.row[j]? = some a) :
    ∃ r, t.rules[j]? = some r ∧ IsPart a (directResult t.config.strict w.file r) ∧
      (j + 1 < w.row.length → a = directResult t.config.strict w.file r) := by
  obtain ⟨file, position, stage, units, announcement⟩ := w
  cases stage with
  | finished results =>
    cases results with
    | none => cases ha
    | some done =>
      obtain ⟨rs, todo, hrs, hdone, -⟩ := hw
      obtain ⟨r, hr, hpart, hcomplete⟩ := getElem?_of_areResults hdone ha
      refine ⟨r, ?_, hpart, hcomplete⟩
      rw [hrs, List.getElem?_append_left (List.getElem?_eq_some_iff.1 hr).1, hr]
  | _ => cases ha

end FileAudit

/-! ### All models -/

theorem entry?_directReport {strict : Bool} {files : List ModelSource} {rules : List RuleSource}
    {i j : Nat} {r : RuleSource} (hm : files[i]? = some m) (hr : rules[j]? = some r) :
    entry? (directReport strict files rules) j i = some (directResult strict m r) := by
  unfold entry? directReport
  rw [List.getElem?_map, hr, Option.map_some, Option.bind_some, List.getElem?_map, hm,
    Option.map_some]

namespace Run

variable {r : Run}

/-- A document has the results of all rows that are long enough. -/
theorem filterMap_fileResults (r : Run) (j : Nat) :
    r.fileResults.filterMap (·[j]?) = (r.audits.map FileAudit.row).filterMap (·[j]?) := by
  unfold fileResults
  rw [List.filterMap_filterMap, List.filterMap_map]
  apply List.filterMap_congr
  intro w _
  unfold FileAudit.row
  rw [Function.comp_apply]
  cases w.results? <;> rfl

theorem names_report (r : Run) : (r.report t).documents.map (·.name) = t.rules.map (·.name) := by
  unfold report
  rw [List.map_map]
  exact map_zipIdx_fst (fun r : RuleSource => r.name) t.rules

/-- **What a run reports is a part of the direct report.** -/
theorem partOf_directReport (h : r.Sound t) :
    PartOf (directReport t.config.strict t.files t.rules) (r.audits.map FileAudit.row)
      (r.report t) := by
  refine ⟨?_, ?_, ?_⟩
  · rw [names_report]
    unfold directReport
    rw [List.map_map]
    rfl
  · intro j d hd
    unfold report at hd
    rw [List.getElem?_map, List.getElem?_zipIdx, Option.map_map] at hd
    obtain ⟨rule, -, rfl⟩ := Option.map_eq_some_iff.1 hd
    simp only [Function.comp_apply, Nat.zero_add]
    exact filterMap_fileResults r j
  · intro i row hrow
    rw [List.getElem?_map] at hrow
    obtain ⟨w, hw, rfl⟩ := Option.map_eq_some_iff.1 hrow
    have hsound := h.audits w (List.mem_of_getElem? hw)
    have hfile : t.files[i]? = some w.file := by
      rw [← h.files, List.getElem?_map, hw]
      rfl
    refine ⟨?_, ?_⟩
    · intro j a ha
      obtain ⟨rule, hrule, hpart, -⟩ := FileAudit.getElem?_row hsound ha
      exact ⟨_, entry?_directReport hfile hrule, hpart⟩
    · intro j a ha hlt
      obtain ⟨rule, hrule, -, hcomplete⟩ := FileAudit.getElem?_row hsound ha
      rw [hcomplete hlt]
      exact entry?_directReport hfile hrule

end Run

/-! ### One document -/

/-- The entries of a document are parts of some of those in the full report, in the same order. -/
theorem PartOf.sublist {full a : Report} {rows : List (List FileResult)} (h : PartOf full rows a)
    (hfull : ∀ b ∈ full.documents, b.files.length = rows.length) :
    List.Forall₂ (fun d b => List.SublistForall₂ IsPart d.files b.files) a.documents
      full.documents := by
  have hlength : a.documents.length = full.documents.length := by
    have hnames := congrArg List.length h.names
    rwa [List.length_map, List.length_map] at hnames
  refine List.forall₂_of_length_eq_of_get hlength fun j hd hb => ?_
  have hdoc : full.documents[j]? = some full.documents[j] := List.getElem?_eq_getElem hb
  simp only [List.get_eq_getElem]
  rw [h.files j _ (List.getElem?_eq_getElem hd)]
  refine sublistForall₂_filterMap (hfull _ (List.getElem_mem hb)).symm fun i row e hrow he => ?_
  obtain ⟨b, hentry, hpart⟩ := (h.rows i row hrow).part j e he
  unfold entry? at hentry
  rw [hdoc, Option.bind_some] at hentry
  exact ⟨b, hentry, hpart⟩

/-! ### Sessions -/

/-- The report of a session that nobody breaks off. -/
theorem report_validate (s : Session) (workersCome : Bool) (files : List ModelSource)
    (rules : List RuleSource) : (s.validate workersCome (fun _ => false) files rules).2.2
      = directReport s.config.strict files rules := by
  obtain ⟨cs, r, hcs, hf, habort, hr⟩ :=
    validate_eq_finishRun s workersCome (fun _ => false) files rules
  have hsound := Run.sound_of_reaches (Run.reaches_iff_follow.2 ⟨cs, hcs⟩) (sound_startRun s _)
  have ha : r.shared.aborted = false := by
    rw [Bool.eq_false_iff, Ne, Run.aborted_iff_brokenOff hcs]
    rintro (hmem | ⟨n, -, hn⟩)
    · exact habort hmem
    · cases hn
  rw [hr, report_finishRun]
  exact Run.report_of_finished hsound ha hf

/-- **The report of a run that is broken off.** Whenever the observer or somebody else asks to stop,
whatever strategy there is, whether workers come, whatever they have and whose turn it is, a run
comes to its end, and its report says that it was broken off. It has all documents and is a part of
the report of the session that nobody breaks off: each model has results for the first documents,
all but the last one complete, and the entries of a document are parts of some of those in the full
report, in the same order. -/
theorem report_of_brokenOff (s : Session) (workersCome : Bool) (breaksOff : Nat → Bool)
    (files : List ModelSource) (rules : List RuleSource) :
    let t : Setting := ⟨s.config, files, rules, breaksOff, workersCome⟩
    let full := (s.validate workersCome (fun _ => false) files rules).2.2
    (s.startRun t).ComesToEnd t ∧
      (∃ cs r, (s.startRun t).follow t cs = some r ∧ r.isFinished = true ∧ .abort ∉ cs ∧
        s.validate workersCome breaksOff files rules = s.finishRun t r) ∧
      ∀ cs r, (s.startRun t).follow t cs = some r → r.isFinished = true → r.BrokenOff t cs →
        let report := (s.finishRun t r).2.2
        report.aborted = true ∧
          report.documents.map (·.name) = rules.map (·.name) ∧
          (∃ rows, rows.length = files.length ∧ PartOf full rows report) ∧
          List.Forall₂ (fun d b => List.SublistForall₂ IsPart d.files b.files) report.documents
            full.documents := by
  intro t full
  refine ⟨Run.comesToEnd t _, validate_eq_finishRun s workersCome breaksOff files rules,
    fun cs r hcs _ hb => ?_⟩
  have hsound := Run.sound_of_reaches (Run.reaches_iff_follow.2 ⟨cs, hcs⟩) (sound_startRun s t)
  have hfull : full = directReport t.config.strict t.files t.rules :=
    report_validate s workersCome files rules
  have hpart : PartOf full (r.audits.map FileAudit.row) (r.report t) := by
    rw [hfull]
    exact Run.partOf_directReport hsound
  have hlength : (r.audits.map FileAudit.row).length = files.length := by
    have hfiles := congrArg List.length hsound.files
    rwa [List.length_map] at hfiles ⊢
  refine ⟨(Run.aborted_iff_brokenOff hcs).2 hb, Run.names_report r, ⟨_, hlength, hpart⟩,
    hpart.sublist ?_⟩
  intro b hb
  rw [hfull] at hb
  obtain ⟨rule, -, rfl⟩ := List.mem_map.1 hb
  rw [hlength]
  exact List.length_map _

/-- A model with two walls, of which the workers have two specifications of the first document in
hand when somebody asks to stop. One of them has been dealt with and is still taken, the other one
is left out, and nothing is found of the second document. -/
theorem report_of_brokenOff_two_walls :
    let s : Session := { config := { workerEntityThreshold := 0, workerThreads := some 2 } }
    let files : List ModelSource :=
      [⟨"a.ifc", "#1=IFCWALL('G1',$,'A',$);\n#2=IFCWALL('G2',$,'B',$);"⟩]
    let walls : Ids.Specification :=
      { name := "Walls", ifcVersion := "IFC4"
        applicability := [{ condition := .entity (.simple "IFCWALL") none }]
        requirements := [{ condition := .attribute (.simple "Name") (some (.simple "A")) }] }
    let rules : List RuleSource :=
      [⟨"first", { specifications := [walls, walls] }⟩, ⟨"second", { specifications := [walls] }⟩]
    let t : Setting := ⟨s.config, files, rules, fun _ => false, true⟩
    let cs : List Choice := List.replicate 11 (.move 0) ++
      [.begin 0 0, .deliver 0 0, .abort] ++ List.replicate 5 (.move 0)
    ∃ r, (s.startRun t).follow t cs = some r ∧ r.isFinished = true ∧ r.BrokenOff t cs ∧
      let report := (s.finishRun t r).2.2
      report.aborted = true ∧
        (report.documents.map fun d => d.files.map fun a => a.specifications.length) = [[1], []] ∧
        ∃ rows, rows.length = 1 ∧
          PartOf (s.validate true (fun _ => false) files rules).2.2 rows report := by
  intro s files walls rules t cs
  have habort : .abort ∈ cs := by decide +revert
  have hend : ((s.startRun t).follow t cs).map (fun r => (r.isFinished,
      (r.report t).documents.map fun d => d.files.map fun a => a.specifications.length))
      = some (true, [[1], []]) := by decide +revert +kernel
  obtain ⟨r, hcs, hr⟩ := Option.map_eq_some_iff.1 hend
  obtain ⟨hf, hdocuments⟩ := Prod.mk.inj hr
  have hb : r.BrokenOff t cs := .inl habort
  obtain ⟨-, -, hrun⟩ := report_of_brokenOff s true (fun _ => false) files rules
  obtain ⟨ha, -, hpart, -⟩ := hrun cs r hcs hf hb
  exact ⟨r, hcs, hf, hb, ha, hdocuments, hpart⟩

end BimAudit.Session
