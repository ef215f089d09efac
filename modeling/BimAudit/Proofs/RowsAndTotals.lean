import Mathlib.Data.List.Induction
import BimAudit.Export.Table
import BimAudit.Proofs.BrokenOffReport
import BimAudit.Proofs.SheetNames
import BimAudit.Proofs.SpecificationResults
import BimAudit.Proofs.Totals

/-!
# Rows and totals tell the same story

What is found for a model is exported twice. The table of findings is made of the findings
themselves, the row of totals of the counts that each specification has stored. Nothing but the way
in which results come about ties the counts to the findings, so the two can only be told to agree on
reports that a run has made.

* `SpecificationResult.Counted`: the stored counts and statuses are those of the findings.
  `Report.Counted`: they are so all over a report. `Run.counted_report`: **a run, broken off or
  not, makes such reports only.**
* `StandsFor`: the rows that stand for one entity. `Tallies`: a table falls into the rows of its
  entities, and its totals are counted by them.
* `tables_of_run`: **the tables of a report that a run has made tally**, and so do the totals of the
  report.
-/

namespace BimAudit

/-! ### Counts -/

namespace Audit

open Ids (Specification)

/-- The counts of a result, and the statuses of its entities, are those of what was found. -/
structure SpecificationResult.Counted (x : SpecificationResult) : Prop where
  passed : x.passCount + x.failCount = x.entities.length
  failed : x.failCount = x.entities.countP (·.status = .fail)
  statuses : ∀ e ∈ x.entities, (e.status = .fail ↔ ∃ v ∈ e.findings, v.status = .fail)

/-- The counts and statuses all over a report are those of what was found. -/
def Report.Counted (r : Report) : Prop := ∀ p ∈ r.pairs, ∀ x ∈ p.file.specifications, x.Counted

/-- The results of a specification are counted right. -/
theorem counted_of_validate? {strict : Bool} {es : List Ifc.Entity} {s : Specification}
    {x : SpecificationResult} (h : validate? strict es s = some x) : x.Counted := by
  unfold validate? resultFor? at h
  obtain ⟨-, hentities, hcount, hfail, -⟩ := counts_of_ofEntities? h
  rw [← hentities] at hcount hfail
  refine ⟨hcount, hfail, fun e he => ?_⟩
  rw [hentities] at he
  obtain ⟨a, -, rfl⟩ := List.mem_map.1 he
  exact (isResultOf_entityResult strict s a).status

theorem mem_pairs {r : Report} {p : Pair} (h : p ∈ r.pairs) :
    ∃ d ∈ r.documents, p.document = d.name ∧ p.file ∈ d.files := by
  unfold Report.pairs at h
  obtain ⟨d, hd, hp⟩ := List.mem_flatMap.1 h
  obtain ⟨f, hf, rfl⟩ := List.mem_map.1 hp
  exact ⟨d, hd, rfl, hf⟩

end Audit

/-! ### Runs -/

namespace Session

open Audit (FileResult)

/-- The results in a part of the direct report are counted right. -/
theorem counted_of_isPart {strict : Bool} {m : ModelSource} {r : RuleSource} {a : FileResult}
    (h : IsPart a (directResult strict m r)) : ∀ x ∈ a.specifications, x.Counted := by
  intro x hx
  have hx' := h.specifications.subset hx
  unfold directResult at hx'
  obtain ⟨s, -, hs⟩ := List.mem_filterMap.1 hx'
  exact Audit.counted_of_validate? hs

/-- **A run, broken off or not, makes reports only whose counts are those of the findings.** -/
theorem Run.counted_report {t : Setting} {r : Run} (h : r.Sound t) : (r.report t).Counted := by
  intro p hp
  obtain ⟨d, hd, -, hfile⟩ := Audit.mem_pairs hp
  -- the entry of a document comes from the row of some audit, and what is there is sound
  obtain ⟨j, hj⟩ := List.mem_iff_getElem?.1 hd
  rw [(partOf_directReport h).files j d hj] at hfile
  obtain ⟨row, hrow, hentry⟩ := List.mem_filterMap.1 hfile
  obtain ⟨w, hw, rfl⟩ := List.mem_map.1 hrow
  obtain ⟨rule, -, hpart, -⟩ := FileAudit.getElem?_row (h.audits w hw) hentry
  exact counted_of_isPart hpart

end Session

/-! ### Totals -/

namespace Audit

theorem sum_append (ss : List Summary) (s : Summary) :
    Summary.sum (ss ++ [s]) = Summary.sum ss + s := by
  unfold Summary.sum
  rw [List.foldl_append]
  rfl

/-- Summaries are added up count by count. -/
theorem sum_eq (ss : List Summary) :
    Summary.sum ss = ⟨total (·.total) ss, total (·.passed) ss, total (·.failed) ss⟩ := by
  induction ss using List.reverseRecOn with
  | nil => rfl
  | append_singleton ss s ih =>
    rw [sum_append, ih, total_append, total_append, total_append]
    rfl

/-- The results of entities for a model, each with the name of its specification. -/
def FileResult.entries (f : FileResult) : List (String × EntityResult) :=
  f.specifications.flatMap fun s => s.entities.map fun e => (s.specification, e)

/-- There is an entry for each entity of each specification. -/
theorem length_entries (f : FileResult) :
    f.entries.length = total (fun s => s.entities.length) f.specifications := by
  unfold FileResult.entries
  induction f.specifications with
  | nil => rfl
  | cons s ss ih => rw [List.flatMap_cons, List.length_append, List.length_map, ih, total_cons]

theorem countP_entries (f : FileResult) (p : EntityResult → Bool) :
    f.entries.countP (fun y => p y.2) = total (fun s => s.entities.countP p) f.specifications := by
  unfold FileResult.entries
  induction f.specifications with
  | nil => rfl
  | cons s ss ih =>
    rw [List.flatMap_cons, List.countP_append, List.countP_map, ih, total_cons]
    rfl

/-- Where the stored counts are right, the totals of a model are those of its entities. -/
theorem summary_of_counted {f : FileResult} (h : ∀ x ∈ f.specifications, x.Counted) :
    f.summary.total = f.entries.length ∧
      f.summary.failed = f.entries.countP (fun y => y.2.status = .fail) ∧
      f.summary.passed + f.summary.failed = f.summary.total := by
  unfold FileResult.summary
  rw [sum_eq, total_map, total_map, total_map, length_entries,
    countP_entries f fun e => e.status = .fail]
  refine ⟨rfl, total_congr fun x hx => (h x hx).failed, ?_⟩
  rw [← total_add]
  exact total_congr fun x hx => (h x hx).passed

end Audit

/-! ### Rows -/

namespace Export

open Audit

/-- The rows that stand for an entity: one for each finding, in order, or one with the status of the
entity if there are no findings. -/
def StandsFor (y : String × EntityResult) (rows : List (List String)) : Prop :=
  let cells := [y.1, y.2.entityType, y.2.name, y.2.guid]
  (y.2.findings = [] ∧ rows = [cells ++ [y.2.status.name, "", "", ""]]) ∨
    (y.2.findings ≠ [] ∧
      List.Forall₂ (fun v row => row = cells ++ [v.status.name, v.kind.name, v.message, v.details])
        y.2.findings rows)

/-- A row with the status of a failure is among the rows. -/
def hasFailure (rows : List (List String)) : Bool := rows.any fun row => row[4]? = some "fail"

/-- The table falls into groups of rows, one group for each entity, in order, and the row of totals
counts the groups: all of them, those without a failure and those with one. -/
structure Tallies (x : ResultTable) (groups : List (List (List String))) : Prop where
  rows : resultRows x.file = groups.flatten
  entities : List.Forall₂ StandsFor x.file.entries groups
  summary : x.file.summary =
    ⟨groups.length, groups.length - groups.countP hasFailure, groups.countP hasFailure⟩
  totals : summaryRow x = [x.file.fileName, x.document, toString groups.length,
    toString (groups.length - groups.countP hasFailure), toString (groups.countP hasFailure),
    Decimal.fixed 1 x.file.summary.passRate ++ "%"]

/-- The rows of an entity stand for it. -/
theorem standsFor_entityRows (y : String × EntityResult) : StandsFor y (entityRows y.1 y.2) := by
  unfold StandsFor entityRows
  cases hf : y.2.findings with
  | nil => exact .inl ⟨rfl, rfl⟩
  | cons v vs =>
    refine .inr ⟨List.cons_ne_nil v vs, ?_⟩
    rw [List.isEmpty_cons, if_neg Bool.false_ne_true, List.forall₂_map_right_iff]
    exact List.forall₂_same.2 fun _ _ => rfl

theorem name_eq_fail_iff (a : Status) : a.name = "fail" ↔ a = .fail := by
  cases a <;> decide

/-- An entity has a row with a failure if and only if it fails. -/
theorem hasFailure_entityRows {y : String × EntityResult}
    (h : y.2.status = .fail ↔ ∃ v ∈ y.2.findings, v.status = .fail) :
    hasFailure (entityRows y.1 y.2) = decide (y.2.status = .fail) := by
  rw [Bool.eq_iff_iff, decide_eq_true_eq]
  unfold hasFailure entityRows
  split
  case isTrue => simp [entityCells, name_eq_fail_iff]
  case isFalse =>
    rw [h, List.any_map, List.any_eq_true]
    simp [findingRow, entityCells, name_eq_fail_iff]

/-- The rows of a file are those of its entries, one after the other. -/
theorem resultRows_eq (f : FileResult) :
    resultRows f = (f.entries.map fun y => entityRows y.1 y.2).flatten := by
  unfold resultRows FileResult.entries
  rw [← List.flatMap_def, List.flatMap_assoc]
  refine List.flatMap_congr fun s _ => ?_
  rw [List.flatMap_map]
  rfl

/-- Where the stored counts are right, a table tallies. -/
theorem tallies_of_counted {x : ResultTable} (h : ∀ s ∈ x.file.specifications, s.Counted) :
    Tallies x (x.file.entries.map fun y => entityRows y.1 y.2) := by
  have hstatus : ∀ y ∈ x.file.entries,
      hasFailure (entityRows y.1 y.2) = decide (y.2.status = .fail) := by
    intro y hy
    unfold FileResult.entries at hy
    obtain ⟨s, hs, hy⟩ := List.mem_flatMap.1 hy
    obtain ⟨e, he, rfl⟩ := List.mem_map.1 hy
    exact hasFailure_entityRows ((h s hs).statuses e he)
  have hcount : (x.file.entries.map fun y => entityRows y.1 y.2).countP hasFailure
      = x.file.summary.failed := by
    rw [(summary_of_counted h).2.1, List.countP_map]
    exact List.countP_congr fun y hy => by rw [Function.comp_apply, hstatus y hy]
  have hlength : (x.file.entries.map fun y => entityRows y.1 y.2).length
      = x.file.summary.total := by
    rw [List.length_map, (summary_of_counted h).1]
  have hpassed : x.file.summary.total - x.file.summary.failed = x.file.summary.passed := by
    have := (summary_of_counted h).2.2
    omega
  refine ⟨resultRows_eq x.file, ?_, ?_, ?_⟩
  · rw [List.forall₂_map_right_iff]
    exact List.forall₂_same.2 fun y _ => standsFor_entityRows y
  · rw [hcount, hlength, hpassed]
  · rw [hcount, hlength, hpassed]
    rfl

/-! ### Tables -/

theorem zipWith_fst {α β : Type} {as : List α} {bs : List β} (h : as.length ≤ bs.length) :
    List.zipWith (fun a _ => a) as bs = as := by
  induction as generalizing bs with
  | nil => rfl
  | cons a as ih =>
    cases bs with
    | nil => cases h
    | cons b bs => rw [List.zipWith_cons_cons, ih (Nat.le_of_succ_le_succ h)]

/-- There is a table for every model of a report, in order. -/
theorem map_toPair_resultTables (r : Report) : (resultTables r).map (·.toPair) = r.pairs := by
  unfold resultTables
  rw [List.map_zipWith]
  refine zipWith_fst (Nat.le_of_eq ?_)
  rw [length_sheetNames, List.length_map]

end Export

namespace Session

open Export

/-- **The tables of a report that a run has made tally.** Whether a run is broken off or not,
whether workers come or not, and in whatever order they and its audits go on, its report has a table
for every model and document, in order. Each table falls into the rows of its entities, in order,
and its totals are counted by them: all entities, those that fail, and the rest. The totals of the
report are the sums of those of the tables. -/
theorem tables_of_run (s : Session) (workersCome : Bool) (breaksOff : Nat → Bool)
    (files : List ModelSource) (rules : List RuleSource) :
    let t : Setting := ⟨s.config, files, rules, breaksOff, workersCome⟩
    (∃ cs r, (s.startRun t).follow t cs = some r ∧ r.isFinished = true ∧
        s.validate workersCome breaksOff files rules = s.finishRun t r) ∧
      ∀ cs r, (s.startRun t).follow t cs = some r → r.isFinished = true →
        let report := (s.finishRun t r).2.2
        (resultTables report).map (·.toPair) = report.pairs ∧
          (∀ x ∈ resultTables report, ∃ groups, Tallies x groups) ∧
          report.summary = ⟨total (·.file.summary.total) report.pairs,
            total (·.file.summary.passed) report.pairs,
            total (·.file.summary.failed) report.pairs⟩ := by
  intro t
  refine ⟨?_, ?_⟩
  · obtain ⟨cs, r, hcs, hf, -, hr⟩ := validate_eq_finishRun s workersCome breaksOff files rules
    exact ⟨cs, r, hcs, hf, hr⟩
  · intro cs r hcs _ report
    have hsound := Run.sound_of_reaches (Run.reaches_iff_follow.2 ⟨cs, hcs⟩) (sound_startRun s t)
    have hcounted : report.Counted := Run.counted_report hsound
    refine ⟨map_toPair_resultTables report, ?_, ?_⟩
    · intro x hx
      have hpair : x.toPair ∈ report.pairs := by
        rw [← map_toPair_resultTables]
        exact List.mem_map_of_mem hx
      exact ⟨_, tallies_of_counted (hcounted _ hpair)⟩
    · unfold Audit.Report.summary
      rw [Audit.sum_eq, total_map, total_map, total_map]

/-- A run that somebody breaks off while the workers have two specifications in hand: one of them
has been dealt with. There are two walls, each with two findings, and the second wall fails. -/
theorem tables_of_run_broken_off :
    let s : Session := { config := { workerEntityThreshold := 0, workerThreads := some 2 } }
    let files : List ModelSource :=
      [⟨"a.ifc", "#1=IFCWALL('G1',$,'A','X');\n#2=IFCWALL('G2',$,'B','X');"⟩]
    let walls : Ids.Specification :=
      { name := "Walls", ifcVersion := "IFC4"
        applicability := [{ condition := .entity (.simple "IFCWALL") none }]
        requirements := [{ condition := .attribute (.simple "Name") (some (.simple "A")) },
          { condition := .attribute (.simple "Description") (some (.simple "X")) }] }
    let rules : List RuleSource := [⟨"first", { specifications := [walls, walls] }⟩]
    let t : Setting := ⟨s.config, files, rules, fun _ => false, true⟩
    let cs : List Choice := List.replicate 11 (.move 0) ++
      [.begin 0 0, .deliver 0 0, .abort] ++ List.replicate 5 (.move 0)
    ∃ r, (s.startRun t).follow t cs = some r ∧ r.isFinished = true ∧
      let report := (s.finishRun t r).2.2
      report.aborted = true ∧
        (resultTables report).map
            (fun x => [(summaryRow x).take 5, (resultRows x.file).map (·[4]!)])
          = [[["a.ifc", "first", "2", "1", "1"], ["pass", "pass", "fail", "pass"]]] ∧
        (∀ x ∈ resultTables report, ∃ groups, Tallies x groups) ∧
        report.summary = ⟨total (·.file.summary.total) report.pairs,
          total (·.file.summary.passed) report.pairs,
          total (·.file.summary.failed) report.pairs⟩ := by
  intro s files walls rules t cs
  have hend : ((s.startRun t).follow t cs).map (fun r => (r.isFinished, (r.report t).aborted,
      (resultTables (r.report t)).map fun x =>
        [(summaryRow x).take 5, (resultRows x.file).map (·[4]!)]))
      = some (true, true,
          [[["a.ifc", "first", "2", "1", "1"], ["pass", "pass", "fail", "pass"]]]) := by
    decide +revert +kernel
  obtain ⟨r, hcs, hr⟩ := Option.map_eq_some_iff.1 hend
  obtain ⟨hf, hr⟩ := Prod.mk.inj hr
  obtain ⟨haborted, hrows⟩ := Prod.mk.inj hr
  obtain ⟨-, htables, hsummary⟩ := (tables_of_run s true (fun _ => false) files rules).2 cs r hcs hf
  exact ⟨r, hcs, hf, haborted, hrows, htables, hsummary⟩

end Session

end BimAudit
