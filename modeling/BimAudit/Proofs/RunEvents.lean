import Mathlib.Algebra.Order.BigOperators.Group.List
import Mathlib.Algebra.Order.Ring.Rat
import Mathlib.Data.Nat.Cast.Order.Field
import Mathlib.Data.Rat.Cast.Order
import BimAudit.Proofs.ProgressEvents
import BimAudit.Proofs.Totals

/-!
# The events of a run

The percentage of the whole is the mean over all models. Audits at the same time may tell of it in
another order than they count, so it may go down. Where the audits take place one after the other,
nobody comes between, and it never does.

* `Progress.exactOverall`: the percentage of the whole.
* `Run.InTurn`: what an observer is told is what there is. `Run.inTurn_of_step`: every step keeps
  to that.
* `events_of_run`: **the events of a run.**
-/

namespace BimAudit.Session

/-! ### Percentages in exact arithmetic -/

/-- No audit has done fewer units. -/
def UnitsLe (us vs : List Nat) : Prop := List.Forall₂ (· ≤ ·) us vs

theorem UnitsLe.refl (us : List Nat) : UnitsLe us us := List.forall₂_same.2 fun u _ => Nat.le_refl u

theorem UnitsLe.trans {us vs ws : List Nat} (h : UnitsLe us vs) (h' : UnitsLe vs ws) :
    UnitsLe us ws := by
  induction h generalizing ws with
  | nil => exact h'
  | cons hle _ ih =>
    cases h' with
    | cons hle' h' => exact .cons (Nat.le_trans hle hle') (ih h')

/-- An audit that counts on leaves the units of the others as they are. -/
theorem unitsLe_set {us : List Nat} {k n m : Nat} (hk : us[k]? = some n) (hle : n ≤ m) :
    UnitsLe us (us.set k m) := by
  induction us generalizing k with
  | nil => cases hk
  | cons u us ih =>
    cases k with
    | zero =>
      cases hk
      exact .cons hle (UnitsLe.refl us)
    | succ k => exact .cons (Nat.le_refl u) (ih hk)

namespace Progress

/-- The percentage that some units make, in exact arithmetic. -/
def exactPercent (p : Progress) (units : Nat) : ℚ := min (units / p.unitsPerFile * 100) 100

/-- The mean percentage over all models, in exact arithmetic. -/
def exactOverall (p : Progress) : ℚ := (p.units.map p.exactPercent).sum / p.units.length

variable {p q : Progress}

theorem exactPercent_mono (p : Progress) {u v : Nat} (h : u ≤ v) :
    p.exactPercent u ≤ p.exactPercent v := by
  have hcast : (u : ℚ) ≤ v := Nat.cast_le.2 h
  have hunits : (0 : ℚ) ≤ p.unitsPerFile := Nat.cast_nonneg _
  have hshare : (u : ℚ) / p.unitsPerFile ≤ v / p.unitsPerFile :=
    div_le_div_of_nonneg_right hcast hunits
  unfold exactPercent
  exact min_le_min_right _ (mul_le_mul_of_nonneg_right hshare (by norm_num))

/-- Where no audit has fewer units, the percentage of all is no smaller. -/
theorem exactOverall_mono (hunits : p.unitsPerFile = q.unitsPerFile)
    (h : UnitsLe p.units q.units) : p.exactOverall ≤ q.exactOverall := by
  have hpercent : p.exactPercent = q.exactPercent := by
    funext u
    unfold exactPercent
    rw [hunits]
  have hmap : List.Forall₂ (· ≤ ·) (p.units.map p.exactPercent) (q.units.map q.exactPercent) := by
    rw [hpercent, List.forall₂_map_left_iff, List.forall₂_map_right_iff]
    exact List.Forall₂.imp (fun u v huv => exactPercent_mono q huv) h
  have hlength : (0 : ℚ) ≤ q.units.length := Nat.cast_nonneg _
  unfold exactOverall
  rw [List.Forall₂.length_eq h]
  exact div_le_div_of_nonneg_right hmap.sum_le_sum hlength

/-- Where all units are done, all is done. -/
theorem exactOverall_of_complete (hpos : 0 < p.unitsPerFile) (hne : p.units ≠ [])
    (hall : ∀ u ∈ p.units, u = p.unitsPerFile) : p.exactOverall = 100 := by
  have hcast : (p.unitsPerFile : ℚ) ≠ 0 := Nat.cast_ne_zero.2 (Nat.ne_of_gt hpos)
  have hpercent : ∀ u ∈ p.units, p.exactPercent u = 100 := by
    intro u hu
    unfold exactPercent
    rw [hall u hu, div_self hcast, one_mul, min_self]
  have hlength : (p.units.length : ℚ) ≠ 0 :=
    Nat.cast_ne_zero.2 fun h => hne (List.length_eq_zero_iff.1 h)
  unfold exactOverall
  rw [List.map_congr_left hpercent, List.map_const', List.sum_replicate, nsmul_eq_mul,
    mul_comm, mul_div_assoc, div_self hlength, mul_one]

end Progress

namespace Run

variable {t : Setting} {start : Event} {r r' : Run} {c : Choice}

/-! ### Audits that take place one after the other -/

/-- Where the audits take place one after the other, what the observer is told is what there is: the
units never go down, neither from one progress to the next nor from the last one to now. -/
structure InTurn (r : Run) : Prop where
  sequential : r.sequential = true
  /-- Behind an audit that is not finished nothing has to be announced. -/
  idle : ∀ (i j : Nat) (w v : FileAudit), i < j → r.audits[i]? = some w → w.isFinished = false →
    r.audits[j]? = some v → v.announcement = .nothing
  telling : ∀ w ∈ r.audits, ∀ us, w.announcement = .tell us → us = r.shared.units
  rising : (r.shared.units :: r.shared.progress.map (·.units)).Pairwise fun us vs => UnitsLe vs us
  last : (∀ w ∈ r.audits, w.announcement = .nothing) →
    ∀ p ∈ r.shared.progress.head?, p.units = r.shared.units

theorem not_isFinished_of_moved {delegates : Bool} {s s' : Shared} {w w' : FileAudit}
    (h : FileAudit.Moved t delegates s w s' w') : w.isFinished = false := by
  cases h <;> simp [FileAudit.isFinished, *]

/-- An audit that is busy with a document is not finished. -/
theorem not_isFinished_of_auditing {w : FileAudit} {es : List Ifc.Entity} {d : DocumentAudit}
    {todo : List RuleSource} {done : List Audit.FileResult}
    (hs : w.stage = .auditing es d todo done) : w.isFinished = false := by
  unfold FileAudit.isFinished
  rw [hs]
  cases w.announcement <;> rfl

/-- Where the audits take their turns, those in front of the one that moves are finished. -/
theorem isFinished_of_mayMove {k j : Nat} {v : FileAudit} (hm : r.mayMove k = true)
    (hs : r.sequential = true) (hlt : j < k) (hv : r.audits[j]? = some v) :
    v.isFinished = true := by
  unfold mayMove at hm
  rw [hs, Bool.not_true, Bool.false_or, List.all_eq_true] at hm
  exact hm v (List.mem_of_getElem? (by rw [List.getElem?_take_of_lt hlt, hv]))

/-- Nobody but the audit that moves has anything to announce. -/
theorem InTurn.others {k j : Nat} {w v : FileAudit} (h : r.InTurn) (hm : r.mayMove k = true)
    (hk : r.audits[k]? = some w) (hw : w.isFinished = false) (hj : j ≠ k)
    (hv : r.audits[j]? = some v) : v.announcement = .nothing := by
  rcases Nat.lt_or_gt_of_ne hj with hlt | hgt
  · exact announcement_of_isFinished (isFinished_of_mayMove hm h.sequential hlt hv)
  · exact h.idle k j w v hgt hk hw hv

/-- The audit that moves may have other things to announce behind its step. -/
theorem InTurn.put {k : Nat} {w w' : FileAudit} {s : Shared} (h : r.InTurn)
    (hm : r.mayMove k = true) (hk : r.audits[k]? = some w) (hw : w.isFinished = false)
    (htelling : ∀ us, w'.announcement = .tell us → us = s.units)
    (hrising : (s.units :: s.progress.map (·.units)).Pairwise fun us vs => UnitsLe vs us)
    (hlast : w'.announcement = .nothing → ∀ p ∈ s.progress.head?, p.units = s.units) :
    ({ r.put k w' with shared := s } : Run).InTurn := by
  refine ⟨h.sequential, ?_, ?_, hrising, ?_⟩
  · intro i j v v' hij hv hf hv'
    rcases eq_or_of_getElem?_put hv' with ⟨rfl, rfl⟩ | ⟨hj, hv'⟩
    · -- the audits before the one that moves are finished
      rcases eq_or_of_getElem?_put hv with ⟨rfl, -⟩ | ⟨-, hv⟩
      · exact absurd hij (Nat.lt_irrefl _)
      · rw [isFinished_of_mayMove hm h.sequential hij hv] at hf
        cases hf
    · exact h.others hm hk hw hj hv'
  · intro v hv us hus
    obtain ⟨j, hj⟩ := List.mem_iff_getElem?.1 hv
    rcases eq_or_of_getElem?_put hj with ⟨-, rfl⟩ | ⟨hne, hj⟩
    · exact htelling us hus
    · rw [h.others hm hk hw hne hj] at hus
      cases hus
  · intro hall
    have hlt : k < r.audits.length := (List.getElem?_eq_some_iff.1 hk).1
    exact hlast (hall w' (List.mem_set hlt w'))

/-- Nothing changes where the audit announces what it announced before. -/
theorem InTurn.put_same {k : Nat} {w w' : FileAudit} {s : Shared} (h : r.InTurn)
    (hk : r.audits[k]? = some w) (hw : w.isFinished = false)
    (ha : w'.announcement = w.announcement)
    (hs : s.events = r.shared.events ∧ s.units = r.shared.units) :
    ({ r.put k w' with shared := s } : Run).InTurn := by
  -- whatever is there announces what an audit in the same place announced before
  have hbefore : ∀ (j : Nat) (v : FileAudit), (r.put k w').audits[j]? = some v →
      ∃ v' : FileAudit, r.audits[j]? = some v' ∧ v.announcement = v'.announcement ∧
        (v.isFinished = false → v'.isFinished = false) := by
    intro j v hv
    rcases eq_or_of_getElem?_put hv with ⟨rfl, rfl⟩ | ⟨-, hv⟩
    · exact ⟨w, hk, ha, fun _ => hw⟩
    · exact ⟨v, hv, rfl, id⟩
  have hprogress : s.progress = r.shared.progress := Shared.progress_congr hs.1
  refine ⟨h.sequential, ?_, ?_, ?_, ?_⟩
  · intro i j v u hij hv hf hu
    obtain ⟨v', hv', -, hf'⟩ := hbefore i v hv
    obtain ⟨u', hu', hau, -⟩ := hbefore j u hu
    rw [hau]
    exact h.idle i j v' u' hij hv' (hf' hf) hu'
  · intro v hv us hus
    obtain ⟨j, hj⟩ := List.mem_iff_getElem?.1 hv
    obtain ⟨v', hv', hav, -⟩ := hbefore j v hj
    rw [hav] at hus
    rw [hs.2]
    exact h.telling v' (List.mem_of_getElem? hv') us hus
  · rw [hs.2, hprogress]
    exact h.rising
  · intro hall
    rw [hs.2, hprogress]
    apply h.last
    intro v hv
    obtain ⟨j, hj⟩ := List.mem_iff_getElem?.1 hv
    have hlt : k < r.audits.length := (List.getElem?_eq_some_iff.1 hk).1
    by_cases hjk : j = k
    · subst hjk
      rw [hk] at hj
      cases hj
      rw [← ha]
      exact hall w' (List.mem_set hlt w')
    · rw [← List.getElem?_set_ne (Ne.symm hjk)] at hj
      exact hall v (List.mem_of_getElem? hj)

/-- **A step keeps the turns**: an audit counts only when all those in front of it are finished. -/
theorem inTurn_of_step (h : r.step t c = some r') (hr : r.Told t start) (hturn : r.InTurn) :
    r'.InTurn := by
  cases stepped_of_step h with
  | @move k w w' s hm hk hw =>
    have hf := not_isFinished_of_moved hw
    have hknown := hr.known k w hk
    cases FileAudit.announced_of_moved hw with
    | publish ha =>
      -- the count that is published is behind by one unit at most, so it goes up
      obtain ⟨n, hn, hunits⟩ := hknown.published
      rw [← hknown.position] at hn
      have hle : UnitsLe r.shared.units (r.shared.units.set w.position w.units) :=
        unitsLe_set hn (by omega)
      obtain ⟨hnow, hbefore⟩ := List.pairwise_cons.1 hturn.rising
      refine hturn.put hm hk hf ?_ ?_ ?_
      · intro us hus
        cases hus
        rfl
      · exact List.pairwise_cons.2 ⟨fun vs hvs => (hnow vs hvs).trans hle, hbefore⟩
      · intro ha'
        cases ha'
    | tell us ha =>
      -- nobody has come between, so the units that are told of are still those that there are
      have hus : us = r.shared.units := hturn.telling w (List.mem_of_getElem? hk) us ha
      refine hturn.put hm hk hf ?_ ?_ ?_
      · intro us' hus'
        cases hus'
      · rw [emit_units, Shared.progress_emit, List.map_cons, hus]
        refine List.pairwise_cons.2 ⟨fun vs hvs => ?_, hturn.rising⟩
        rcases List.mem_cons.1 hvs with rfl | hvs
        · exact .refl _
        · exact (List.pairwise_cons.1 hturn.rising).1 vs hvs
      · intro _ p hp
        rw [Shared.progress_emit] at hp
        cases hp
        rw [emit_units]
        exact hus
    | quiet ha ha' hunits hs => exact hturn.put_same hk hf (ha'.trans ha.symm) hs
    | advance ha ha' hunits hs =>
      have hprogress : s.progress = r.shared.progress := Shared.progress_congr hs.1
      refine hturn.put hm hk hf ?_ ?_ ?_
      · intro us hus
        rw [ha'] at hus
        cases hus
      · rw [hs.2, hprogress]
        exact hturn.rising
      · intro hnothing
        rw [ha'] at hnothing
        cases hnothing
  | @begin k task w w' hk hw =>
    obtain ⟨es, d, todo, done, task, hs, -, rfl⟩ := FileAudit.begin_eq_some hw
    exact hturn.put_same hk (not_isFinished_of_auditing hs) rfl ⟨rfl, rfl⟩
  | @deliver k task w w' hk hw =>
    obtain ⟨es, d, todo, done, task, hs, -, rfl⟩ := FileAudit.deliver_eq_some hw
    exact hturn.put_same hk (not_isFinished_of_auditing hs) rfl ⟨rfl, rfl⟩
  | abort ha => exact ⟨hturn.sequential, hturn.idle, hturn.telling, hturn.rising, hturn.last⟩

/-- The turns are kept in all states of a run. The induction is on its steps. -/
theorem inTurn_of_reaches (h : Reaches t r r') (hr : r.Told t start) (hturn : r.InTurn) :
    r'.InTurn := by
  refine (h.keeps (P := fun r => r.Told t start ∧ r.InTurn) ⟨hr, hturn⟩ ?_).2
  rintro r c r' hc ⟨hr, hturn⟩
  exact ⟨told_of_step hc hr, inTurn_of_step hc hr hturn⟩

end Run

/-! ### Whole runs -/

/-- At the start no audit has counted yet. -/
theorem inTurn_startRun {s : Session} {t : Setting}
    (h : s.chooseStrategy t.files ≠ .parallelSmallFiles) : (s.startRun t).InTurn := by
  have hnothing : ∀ w ∈ (s.startRun t).audits, w.announcement = .nothing := by
    intro w hw
    rw [audits_startRun] at hw
    obtain ⟨f, -, rfl⟩ := List.mem_map.1 hw
    rfl
  refine ⟨?_, ?_, ?_, ?_, ?_⟩
  · unfold Session.startRun
    simp only [if_neg h, Bool.not_false]
  · intro i j w v _ _ _ hv
    exact hnothing v (List.mem_of_getElem? hv)
  · intro w hw us hus
    rw [hnothing w hw] at hus
    cases hus
  · rw [progress_startRun]
    exact List.pairwise_singleton _ _
  · intro _ p hp
    rw [progress_startRun] at hp
    cases hp

/-- What the observer is told between the start and the report. -/
structure ProgressOf (t : Setting) (inTurn brokenOff : Prop) (ps : List Progress) : Prop where
  shape : ∀ p ∈ ps, p.Of t
  /-- The units of every model are counted from 1 on, one by one, and all of them unless the run is
  broken off. -/
  counted : ∀ k < t.files.length, ∃ n ≤ t.unitsPerFile,
    FileAudit.toldUnits k ps = List.range' 1 n ∧ (¬brokenOff → n = t.unitsPerFile)
  /-- Where the models are audited one after the other, the whole never goes down. -/
  rising : inTurn → (ps.map Progress.exactOverall).Pairwise (· ≤ ·)
  complete : inTurn → ¬brokenOff → t.files ≠ [] → ps.getLast?.map Progress.exactOverall = some 100

namespace Run

variable {t : Setting} {start : Event} {r : Run}

/-- The whole never goes down. -/
theorem rising_of_inTurn (h : r.Told t start) (hturn : r.InTurn) :
    (r.shared.progress.reverse.map Progress.exactOverall).Pairwise (· ≤ ·) := by
  have hrising := (List.pairwise_cons.1 hturn.rising).2
  rw [List.pairwise_map] at hrising ⊢
  rw [List.pairwise_reverse]
  refine hrising.imp_of_mem fun {p q} hp hq hle => ?_
  have hunits := (h.shared.shape q hq).unitsPerFile.trans (h.shared.shape p hp).unitsPerFile.symm
  exact Progress.exactOverall_mono hunits hle

/-- At the end the whole is done. -/
theorem complete_of_inTurn (h : r.Told t start) (hturn : r.InTurn) (hcounts : r.Counts t)
    (hf : r.isFinished = true) (ha : r.shared.aborted = false) (hne : t.files ≠ []) :
    r.shared.progress.reverse.getLast?.map Progress.exactOverall = some 100 := by
  obtain ⟨p, ps, hps⟩ := List.exists_cons_of_ne_nil (progress_ne_nil h hcounts hf ha hne)
  have hof := h.shared.shape p (by rw [hps]; exact List.mem_cons_self)
  -- nothing is left to be announced, so the last progress tells of all units
  have hlast : p.units = r.shared.units := by
    have hfin : ∀ w ∈ r.audits, w.announcement = .nothing := fun w hw =>
      announcement_of_isFinished (List.all_eq_true.1 hf w hw)
    exact hturn.last hfin p (by rw [hps]; rfl)
  have hall : ∀ u ∈ p.units, u = p.unitsPerFile := by
    intro u hu
    rw [hlast] at hu
    rw [hof.unitsPerFile, eq_unitsPerFile_of_mem_units h hcounts hf ha hu]
  have hnonempty : p.units ≠ [] := by
    intro hnil
    have hlength := hof.length
    rw [hnil] at hlength
    exact hne (List.length_eq_zero_iff.1 hlength.symm)
  have hpos : 0 < p.unitsPerFile := by
    rw [hof.unitsPerFile]
    exact unitsPerFile_pos t
  rw [List.getLast?_reverse, hps, List.head?_cons, Option.map_some,
    Progress.exactOverall_of_complete hpos hnonempty hall]

theorem progressOf_of_isFinished {inTurn : Prop} (h : r.Told t start) (hcounts : r.Counts t)
    (hturn : inTurn → r.InTurn) (hf : r.isFinished = true) {brokenOff : Prop}
    (hb : r.shared.aborted = true ↔ brokenOff) :
    ProgressOf t inTurn brokenOff r.shared.progress.reverse := by
  have ha : ¬brokenOff → r.shared.aborted = false := by
    intro hnot
    rw [← hb] at hnot
    exact Bool.eq_false_iff.2 hnot
  refine ⟨?_, ?_, ?_, ?_⟩
  · intro p hp
    exact h.shared.shape p (List.mem_reverse.1 hp)
  · intro k hk
    obtain ⟨n, hle, hn, hall⟩ := counted_of_isFinished h hcounts hf hk
    exact ⟨n, hle, hn, fun hnot => hall (ha hnot)⟩
  · exact fun hin => rising_of_inTurn h (hturn hin)
  · exact fun hin hnot => complete_of_inTurn h (hturn hin) hcounts hf (ha hnot)

end Run

/-- The total is the sum of the library. -/
theorem total_eq_sum {α : Type} (f : α → Nat) (l : List α) : total f l = (l.map f).sum := by
  induction l with
  | nil => rfl
  | cons a l ih => rw [total_cons, ih, List.map_cons, List.sum_cons]

/-- The last event of a run is that of its report. -/
theorem events_finishRun (s : Session) (t : Setting) (r : Run) :
    (s.finishRun t r).2.1
      = (Event.complete (s.finishRun t r).2.2 :: r.shared.events).reverse := by
  unfold Session.finishRun
  simp only
  rw [Run.emit_events]

/-- **The events of a run.** Every run of a session comes to an end, and the session takes one of
them. The observer is told of the start, then of progress, and last of the report that the session
hands out. The units of every model are counted one by one, out of one for reading it and one for
each specification, whether workers come, whatever is handed to them and in whatever order they
deliver; unless the run
is broken off all of them are. Where the models are not audited at the same time, the whole never
goes down, and unless the run is broken off it ends at 100. -/
theorem events_of_run (s : Session) (workersCome : Bool) (breaksOff : Nat → Bool)
    (files : List ModelSource) (rules : List RuleSource) :
    let t : Setting := ⟨s.config, files, rules, breaksOff, workersCome⟩
    t.unitsPerFile = 1 + (rules.map fun r => r.document.specifications.length).sum ∧
      (s.startRun t).ComesToEnd t ∧
      (∃ cs r, (s.startRun t).follow t cs = some r ∧ r.isFinished = true ∧ .abort ∉ cs ∧
        s.validate workersCome breaksOff files rules = s.finishRun t r) ∧
      ∀ cs r, (s.startRun t).follow t cs = some r → r.isFinished = true →
        ∃ ps : List Progress,
          (s.finishRun t r).2.1 = .started (s.chooseStrategy files) files.length ::
            (ps.map .progress ++ [.complete (s.finishRun t r).2.2]) ∧
          ProgressOf t (s.chooseStrategy files ≠ .parallelSmallFiles) (r.BrokenOff t cs) ps := by
  intro t
  refine ⟨?_, Run.comesToEnd t _, validate_eq_finishRun s workersCome breaksOff files rules,
    fun cs r hcs hf => ⟨r.shared.progress.reverse, ?_, ?_⟩⟩
  · rw [← total_eq_sum]
    rfl
  · have htold := Run.told_of_reaches (Run.reaches_iff_follow.2 ⟨cs, hcs⟩) (told_startRun s t)
    rw [events_finishRun, List.reverse_cons, htold.shared.events, List.reverse_append,
      List.map_reverse]
    rfl
  · have hreach := Run.reaches_iff_follow.2 ⟨cs, hcs⟩
    have htold := Run.told_of_reaches hreach (told_startRun s t)
    have hcounts := Run.counts_of_reaches hreach (counts_startRun s t)
    exact Run.progressOf_of_isFinished htold hcounts
      (fun h => Run.inTurn_of_reaches hreach (told_startRun s t) (inTurn_startRun h)) hf
      (Run.aborted_iff_brokenOff hcs)

/-- A model with two walls of which the only specification hands both to the workers: two units are
told of, and the last progress is the end. -/
theorem events_of_run_two_walls :
    let s : Session := { config := { workerEntityThreshold := 0, workerThreads := some 2 } }
    let files : List ModelSource :=
      [⟨"a.ifc", "#1=IFCWALL('G1',$,'A',$);\n#2=IFCWALL('G2',$,'B',$);"⟩]
    let rules : List RuleSource := [⟨"walls", { specifications := [
      { name := "Walls", ifcVersion := "IFC4"
        applicability := [{ condition := .entity (.simple "IFCWALL") none }]
        requirements := [{ condition := .attribute (.simple "Name") (some (.simple "A")) }] }] }⟩]
    let t : Setting := ⟨s.config, files, rules, fun _ => false, true⟩
    ∃ cs r ps, (s.startRun t).follow t cs = some r ∧ r.isFinished = true ∧
      (s.finishRun t r).2.1 = .started .single 1 ::
        (ps.map .progress ++ [.complete (s.finishRun t r).2.2]) ∧
      FileAudit.toldUnits 0 ps = [1, 2] ∧ ps.getLast?.map Progress.exactOverall = some 100 := by
  intro s files rules t
  have hstrategy : s.chooseStrategy files = .single := by decide
  obtain ⟨cs, r, hcs, hfin, habort, -⟩ := validate_eq_finishRun s true (fun _ => false) files rules
  obtain ⟨-, -, -, hrun⟩ := events_of_run s true (fun _ => false) files rules
  obtain ⟨ps, hevents, hps⟩ := hrun cs r hcs hfin
  have hnot : ¬r.BrokenOff t cs := by
    rintro (hmem | ⟨n, -, hn⟩)
    · exact habort hmem
    · cases hn
  have hturn : s.chooseStrategy files ≠ .parallelSmallFiles := by
    rw [hstrategy]
    exact Strategy.noConfusion
  obtain ⟨n, -, hn, hall⟩ := hps.counted 0 (by decide)
  rw [hall hnot] at hn
  rw [hstrategy] at hevents
  exact ⟨cs, r, ps, hcs, hfin, hevents, hn, hps.complete hturn hnot (by decide)⟩

end BimAudit.Session
