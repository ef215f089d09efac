import BimAudit.Proofs.BrokenOffReport
import BimAudit.Proofs.OpenResults
import BimAudit.Proofs.RunEvents

/-!
# What is delivered after a run is broken off

Where the audits take place one after the other, everything an observer is told comes from the one
that moves. Once the observer has broken the run off, no specification is looked at any more and no
other model is taken on. The results of the workers are another matter: the audit looks for the sign
to stop only after it has taken a result. So if it has not taken one yet and the workers have one
ready or under way, one result is still delivered, and the observer is told.

* `FileAudit.owed`: the results that are still delivered after the sign to stop.
* `FileAudit.settles_of_moved`: what a step does after the sign to stop.
* `Run.InOrder`: behind an audit that is not finished no other one has begun.
* `Run.JustStopped`: the observer has just broken the run off. `Run.delivered_of_reaches`: what
  happens from there to the end.
* `results_after_stop`: **what is delivered after the observer has broken a run off.**
-/

namespace BimAudit.Session

open Audit (SpecificationResult FileResult DocumentResult Report)

/-! ### Results of one model -/

/-- The number of results for specifications. -/
def resultCount (done : List FileResult) : Nat := total (fun a => a.specifications.length) done

/-- The number of results in a report. -/
def reportCount (a : Report) : Nat := total (fun d => resultCount d.files) a.documents

/-- The results that are still delivered after the sign to stop: one if none has been taken and
there is one ready or under way. -/
def DocumentAudit.owed (d : DocumentAudit) : Nat :=
  if d.received || d.running.isEmpty && d.queue.isEmpty then 0 else 1

theorem length_filterMap_set {α : Type} {l : List (Option α)} {i : Nat} (h : l[i]? = some none)
    (x : α) : ((l.set i (some x)).filterMap id).length = (l.filterMap id).length + 1 := by
  induction l generalizing i with
  | nil => cases h
  | cons o l ih =>
    cases i with
    | zero =>
      cases h
      rfl
    | succ i =>
      have hrest := ih (i := i) h
      cases o with
      | none => exact hrest
      | some y => exact congrArg (· + 1) hrest

namespace FileAudit

/-- The number of results that an audit has found. -/
def found (w : FileAudit) : Nat :=
  match w.stage with
  | .ready | .reading _ | .finished none => 0
  | .between _ _ done | .finished (some done) => resultCount done
  | .auditing _ d _ done => resultCount done + (d.results.filterMap id).length

/-- The results that are still delivered after the sign to stop. -/
def owed (w : FileAudit) : Nat :=
  match w.stage with
  | .auditing _ d _ _ => d.owed
  | .ready | .reading _ | .between _ _ _ | .finished _ => 0

variable {t : Setting} {delegates : Bool} {s s' : Shared} {w w' : FileAudit}

/-- An audit owes one result at most. -/
theorem owed_le (w : FileAudit) : w.owed ≤ 1 := by
  unfold owed DocumentAudit.owed
  split
  · split
    · exact Nat.zero_le _
    · exact Nat.le_refl _
  all_goals exact Nat.zero_le _

/-- What a step does after the sign to stop: whatever it delivers was owed, and what it announces
was found. -/
structure Settles (n n' : Nat) (w w' : FileAudit) : Prop where
  settled : w'.Settled
  told : n' + w'.untold + w'.owed = n + w.untold + w.owed
  found : w'.found + w'.owed = w.found + w.owed

/-- A document that is closed adds its results to those that have been found. -/
theorem found_closeDocument (w : FileAudit) (es : List Ifc.Entity) (d : DocumentAudit)
    (todo : List RuleSource) (done : List FileResult) :
    (w.closeDocument es d todo done).found
      = resultCount done + (d.results.filterMap id).length := by
  show resultCount (done ++ [_]) = _
  unfold resultCount
  rw [total_append]
  rfl

/-- Once a result has been taken, or there is none, no more is owed. -/
theorem DocumentAudit.owed_eq_zero {d : DocumentAudit}
    (h : d.received = true ∨ d.running = [] ∧ d.queue = []) : d.owed = 0 := by
  unfold DocumentAudit.owed
  obtain h | ⟨hrun, hqueue⟩ := h
  · rw [h]
    rfl
  · rw [hrun, hqueue]
    simp

/-- **After the sign to stop, a step delivers only what is owed.** -/
theorem settles_of_moved (h : Moved t delegates s w s' w') (ha : s.aborted = true)
    (hw : w.Tidy) (hsettled : w.Settled) :
    Settles s.progress.length s'.progress.length w w' := by
  cases h with
  | publish hw' =>
    refine ⟨hsettled, ?_, rfl⟩
    unfold untold
    rw [hw']
    rfl
  | tell units hw' =>
    have huntold : w.untold = 1 := by
      unfold untold
      rw [hw']
    refine ⟨hsettled, ?_, rfl⟩
    rw [Shared.progress_emit, List.length_cons, huntold]
    rfl
  | skip hw' hs =>
    refine ⟨trivial, ?_, ?_⟩ <;> simp only [untold, owed, found, hs]
  | read r r' m hw' hs hr =>
    unfold Settled at hsettled
    rw [hs] at hsettled
    exact hsettled.elim
  | stopReading r r' p hw' hs hr =>
    unfold Settled at hsettled
    rw [hs] at hsettled
    exact hsettled.elim
  | finish es done hw' hs =>
    refine ⟨trivial, ?_, ?_⟩ <;> simp only [untold, owed, found, hs]
  | stopBetween es r todo done hw' hs =>
    refine ⟨trivial, ?_, ?_⟩ <;> simp only [untold, owed, found, hs]
  | leaveOut es d spec rest todo done hw' hs hd hc =>
    refine ⟨hc, ?_, ?_⟩ <;> simp only [untold, owed, found, hs] <;> rfl
  | handOver es d spec rest todo done _ hw' hs hd hc hp =>
    unfold Settled at hsettled
    rw [hs] at hsettled
    rw [hsettled] at hc
    cases hc
  | checkHere es d spec rest todo done _ hw' hs hd hc hp =>
    unfold Settled at hsettled
    rw [hs] at hsettled
    rw [hsettled] at hc
    cases hc
  | stopTaking es d todo done hw' hs hd hr =>
    have howed : w.owed = 0 := by
      unfold owed
      rw [hs]
      exact DocumentAudit.owed_eq_zero (.inl hr)
    refine ⟨trivial, ?_, ?_⟩
    · rw [howed]
      rfl
    · rw [howed, found_closeDocument]
      unfold found
      rw [hs]
      rfl
  | close es d todo done hw' hs hd hr hq hwait hrun =>
    have howed : w.owed = 0 := by
      unfold owed
      rw [hs]
      exact DocumentAudit.owed_eq_zero (.inr ⟨hrun, hq⟩)
    refine ⟨trivial, ?_, ?_⟩
    · rw [howed]
      rfl
    · rw [howed, found_closeDocument]
      unfold found
      rw [hs]
      rfl
  | take es d todo done i x queue hw' hs hd hr hq =>
    have hopen := hw.auditing _ _ _ _ hs
    obtain ⟨y, rfl⟩ := Option.isSome_iff_exists.1
      (hopen.queue (i, x) (by rw [hq]; exact List.mem_cons_self))
    have hmem : i ∈ d.outstanding := by
      unfold DocumentAudit.outstanding
      rw [hq, List.map_cons]
      exact List.mem_append_right _ List.mem_cons_self
    -- the place of the result is still empty, so one more result is found
    have hempty : d.results[i]? = some none :=
      hopen.empty i (by have := hopen.before i hmem; have := hopen.bound; omega) (.inl hmem)
    have howed : w.owed = 1 := by
      unfold owed DocumentAudit.owed
      rw [hs]
      simp [hr, hq]
    have huntold : w.untold = 0 := by
      unfold untold
      rw [hw']
    have hfound : w.found = resultCount done + (d.results.filterMap id).length := by
      unfold found
      rw [hs]
    refine ⟨hopen.checked hd, ?_, ?_⟩
    · rw [howed, huntold]
      rfl
    · rw [howed, hfound]
      show resultCount done + ((d.results.set i (some y)).filterMap id).length + 0 = _
      rw [length_filterMap_set hempty]
      rfl
  | start hw' hs hab | readOn _ _ _ hw' hs hr hab | openDocument _ _ _ _ hw' hs hab
  | look _ _ _ _ _ _ hw' hs hd hc hab | takeOn _ _ _ _ hw' hs hd hr hab =>
    rw [ha] at hab
    cases hab

/-- After the sign to stop a task may begin, which finds nothing. -/
theorem settles_of_begin {k n : Nat} (h : w.begin k s = some w') (ha : s.aborted = true)
    (hsettled : w.Settled) : Settles n n w w' := by
  obtain ⟨es, d, todo, done, task, hs, hk, rfl⟩ := begin_eq_some h
  unfold Settled at hsettled
  rw [hs] at hsettled
  refine ⟨hsettled, ?_, ?_⟩ <;>
    simp only [untold, owed, DocumentAudit.owed, found, hs, ha, if_true]

/-- A task may be delivered, of which the result is not looked at yet. -/
theorem settles_of_deliver {k n : Nat} (h : w.deliver t k = some w') (hsettled : w.Settled) :
    Settles n n w w' := by
  obtain ⟨es, d, todo, done, task, hs, hk, rfl⟩ := deliver_eq_some h
  unfold Settled at hsettled
  rw [hs] at hsettled
  -- a result that was under way is ready now
  have hrun : d.running.isEmpty = false := List.isEmpty_eq_false_iff.2 fun hnil => by
    rw [hnil] at hk
    cases hk
  refine ⟨hsettled, ?_, ?_⟩ <;>
    simp [untold, owed, DocumentAudit.owed, found, hs, hrun]

end FileAudit

namespace Run

variable {t : Setting} {r r' : Run} {c : Choice}

/-! ### One audit after the other -/

/-- The audits take place one after the other: behind one that is not finished no other has
begun. -/
structure InOrder (r : Run) : Prop where
  sequential : r.sequential = true
  tidy : ∀ w ∈ r.audits, w.Tidy
  untouched : ∀ (i j : Nat) (w v : FileAudit), i < j → r.audits[i]? = some w →
    w.isFinished = false → r.audits[j]? = some v → v.stage = .ready ∧ v.announcement = .nothing

/-- An audit that has begun may take another step. -/
theorem InOrder.put {k : Nat} {w w' : FileAudit} {s : Shared} (h : r.InOrder)
    (hk : r.audits[k]? = some w) (hw : w.isFinished = false)
    (hbefore : ∀ i v, i < k → r.audits[i]? = some v → v.isFinished = true) (hw' : w'.Tidy) :
    ({ r.put k w' with shared := s } : Run).InOrder := by
  refine ⟨h.sequential, ?_, ?_⟩
  · intro v hv
    obtain hv | rfl := List.mem_or_eq_of_mem_set hv
    · exact h.tidy v hv
    · exact hw'
  · intro i j v u hij hv hf hu
    obtain ⟨rfl, rfl⟩ | ⟨-, hu'⟩ := eq_or_of_getElem?_put hu
    · -- the audits before the one that steps are finished
      obtain ⟨rfl, -⟩ | ⟨-, hv'⟩ := eq_or_of_getElem?_put hv
      · exact absurd hij (Nat.lt_irrefl _)
      · rw [hbefore i v hij hv'] at hf
        cases hf
    · obtain ⟨rfl, -⟩ | ⟨-, hv'⟩ := eq_or_of_getElem?_put hv
      · exact h.untouched i j w u hij hk hw hu'
      · exact h.untouched i j v u hij hv' hf hu'

/-- The audits before one that the workers are busy with are finished. -/
theorem InOrder.isFinished_of_lt {i k : Nat} {v w : FileAudit} {es : List Ifc.Entity}
    {d : DocumentAudit} {todo : List RuleSource} {done : List FileResult} (h : r.InOrder)
    (hk : r.audits[k]? = some w) (hs : w.stage = .auditing es d todo done) (hlt : i < k)
    (hi : r.audits[i]? = some v) : v.isFinished = true := by
  cases hf : v.isFinished with
  | true => rfl
  | false =>
    obtain ⟨hready, -⟩ := h.untouched i k v w hlt hi hf hk
    rw [hs] at hready
    cases hready

/-- The audits take their turns in a step. -/
theorem inOrder_of_step (h : r.step t c = some r') (hr : r.InOrder) : r'.InOrder := by
  cases stepped_of_step h with
  | move hm hk hw =>
    have htidy := FileAudit.tidy_of_moved hw (hr.tidy _ (List.mem_of_getElem? hk))
    exact hr.put hk (not_isFinished_of_moved hw)
      (fun _ _ hlt hi => isFinished_of_mayMove hm hr.sequential hlt hi) htidy
  | begin hk hw =>
    have htidy := FileAudit.tidy_of_begin hw (hr.tidy _ (List.mem_of_getElem? hk))
    obtain ⟨es, d, todo, done, task, hs, -, -⟩ := FileAudit.begin_eq_some hw
    exact hr.put hk (not_isFinished_of_auditing hs)
      (fun _ _ hlt hi => hr.isFinished_of_lt hk hs hlt hi) htidy
  | deliver hk hw =>
    have htidy := FileAudit.tidy_of_deliver hw (hr.tidy _ (List.mem_of_getElem? hk))
    obtain ⟨es, d, todo, done, task, hs, -, -⟩ := FileAudit.deliver_eq_some hw
    exact hr.put hk (not_isFinished_of_auditing hs)
      (fun _ _ hlt hi => hr.isFinished_of_lt hk hs hlt hi) htidy
  | abort ha => exact ⟨hr.sequential, hr.tidy, hr.untouched⟩

theorem inOrder_of_reaches (h : Reaches t r r') (hr : r.InOrder) : r'.InOrder :=
  h.keeps hr inOrder_of_step

/-! ### After the sign to stop -/

/-- The number of results that a run has found. -/
def found (r : Run) : Nat := total (·.found) r.audits

/-- The results that are still delivered after the sign to stop. -/
def owed (r : Run) : Nat := total (·.owed) r.audits

/-- The units that are done and that the observer has not been told of. -/
def untold (r : Run) : Nat := total (·.untold) r.audits

/-- The run has been broken off, and nothing is counted any more but what the workers deliver. -/
structure Stopped (r : Run) : Prop where
  aborted : r.shared.aborted = true
  tidy : ∀ w ∈ r.audits, w.Tidy
  settled : ∀ w ∈ r.audits, w.Settled

/-- **After the sign to stop, every step delivers only what is owed.** -/
theorem stopped_of_step (h : r.step t c = some r') (hr : r.Stopped) :
    r'.Stopped ∧
      r'.shared.progress.length + r'.untold + r'.owed
        = r.shared.progress.length + r.untold + r.owed ∧
      r'.found + r'.owed = r.found + r.owed := by
  have ha := aborted_of_step h hr.aborted
  -- one audit is replaced by one that settles with it
  have hput : ∀ {k : Nat} {w w' : FileAudit} {s : Shared}, r.audits[k]? = some w →
      s.aborted = true → w'.Tidy →
      FileAudit.Settles r.shared.progress.length s.progress.length w w' →
      let r' : Run := { r.put k w' with shared := s }
      r'.Stopped ∧
        r'.shared.progress.length + r'.untold + r'.owed
          = r.shared.progress.length + r.untold + r.owed ∧
        r'.found + r'.owed = r.found + r.owed := by
    intro k w w' s hk ha htidy hsettles r'
    have hset : ∀ f, total f r'.audits + f w = total f r.audits + f w' := fun f => total_set f hk w'
    refine ⟨⟨ha, ?_, ?_⟩, ?_, ?_⟩
    · intro v hv
      obtain hv | rfl := List.mem_or_eq_of_mem_set hv
      · exact hr.tidy v hv
      · exact htidy
    · intro v hv
      obtain hv | rfl := List.mem_or_eq_of_mem_set hv
      · exact hr.settled v hv
      · exact hsettles.settled
    · have htold := hsettles.told
      have huntold := hset (·.untold)
      have howed := hset (·.owed)
      show s.progress.length + total (·.untold) r'.audits + total (·.owed) r'.audits
        = r.shared.progress.length + total (·.untold) r.audits + total (·.owed) r.audits
      omega
    · have htotal := hsettles.found
      have hfound := hset (·.found)
      have howed := hset (·.owed)
      show total (·.found) r'.audits + total (·.owed) r'.audits
        = total (·.found) r.audits + total (·.owed) r.audits
      omega
  cases stepped_of_step h with
  | move hm hk hw =>
    have hmem := List.mem_of_getElem? hk
    exact hput hk ha (FileAudit.tidy_of_moved hw (hr.tidy _ hmem))
      (FileAudit.settles_of_moved hw hr.aborted (hr.tidy _ hmem) (hr.settled _ hmem))
  | begin hk hw =>
    have hmem := List.mem_of_getElem? hk
    exact hput hk ha (FileAudit.tidy_of_begin hw (hr.tidy _ hmem))
      (FileAudit.settles_of_begin hw hr.aborted (hr.settled _ hmem))
  | deliver hk hw =>
    have hmem := List.mem_of_getElem? hk
    exact hput hk ha (FileAudit.tidy_of_deliver hw (hr.tidy _ hmem))
      (FileAudit.settles_of_deliver hw (hr.settled _ hmem))
  | abort hnot =>
    rw [hr.aborted] at hnot
    cases hnot

/-- **After the sign to stop** what is found and what is told is what was owed. The induction is on
the steps. -/
theorem stopped_of_reaches (h : Reaches t r r') (hr : r.Stopped) :
    r'.Stopped ∧
      r'.shared.progress.length + r'.untold + r'.owed
        = r.shared.progress.length + r.untold + r.owed ∧
      r'.found + r'.owed = r.found + r.owed := by
  induction h with
  | refl => exact ⟨hr, rfl, rfl⟩
  | step c hc _ ih =>
    obtain ⟨hstopped, htold, hfound⟩ := stopped_of_step hc hr
    obtain ⟨hstopped', htold', hfound'⟩ := ih hstopped
    exact ⟨hstopped', htold'.trans htold, hfound'.trans hfound⟩

/-- A finished audit owes nothing and has told everything. -/
theorem untold_owed_of_isFinished (hf : r.isFinished = true) : r.untold = 0 ∧ r.owed = 0 := by
  have hall : ∀ w ∈ r.audits, w.untold = 0 ∧ w.owed = 0 := by
    intro w hw
    have hfin : w.isFinished = true := List.all_eq_true.1 hf w hw
    unfold FileAudit.isFinished at hfin
    split at hfin
    · next ha hs =>
      unfold FileAudit.untold FileAudit.owed
      rw [ha, hs]
      exact ⟨rfl, rfl⟩
    · cases hfin
  exact ⟨total_eq_zero fun w hw => (hall w hw).1, total_eq_zero fun w hw => (hall w hw).2⟩

/-- **What is owed when a run is broken off is delivered before its end, and nothing else.** -/
theorem delivered_of_reaches (h : Reaches t r r') (hr : r.Stopped) (huntold : r.untold = 0)
    (hf : r'.isFinished = true) :
    r'.shared.progress.length = r.shared.progress.length + r.owed ∧
      r'.found = r.found + r.owed := by
  obtain ⟨-, htold, hfound⟩ := stopped_of_reaches h hr
  obtain ⟨huntold', howed'⟩ := untold_owed_of_isFinished hf
  omega

/-! ### The observer's call -/

/-- A call of the observer in which it has broken the run off has just returned: the first one, or
the one of the last step. -/
def JustStopped (t : Setting) (start r : Run) : Prop :=
  (r = start ∧ t.breaksOff 0 = true) ∨
    ∃ r₀ k, Reaches t start r₀ ∧ r₀.step t (.move k) = some r ∧
      r.shared.events.length = r₀.shared.events.length + 1 ∧
      t.breaksOff r₀.shared.events.length = true

/-- When the observer is told something, only the audit that tells it owes anything. -/
theorem stopped_of_tell {r₀ : Run} {k : Nat} (hr : r₀.InOrder)
    (hstep : r₀.step t (.move k) = some r)
    (hevents : r.shared.events.length = r₀.shared.events.length + 1)
    (hb : t.breaksOff r₀.shared.events.length = true) :
    r.Stopped ∧ r.untold = 0 ∧ r.owed ≤ 1 := by
  cases stepped_of_step hstep with
  | @move _ w w' s hm hk hw =>
    have hsame : s.events = r₀.shared.events → False := by
      intro heq
      replace hevents : s.events.length = r₀.shared.events.length + 1 := hevents
      rw [heq] at hevents
      omega
    have hf := not_isFinished_of_moved hw
    have htidy := FileAudit.tidy_of_moved hw (hr.tidy _ (List.mem_of_getElem? hk))
    cases FileAudit.announced_of_moved hw with
    | publish ha => exact (hsame rfl).elim
    | quiet ha ha' hunits hs => exact (hsame hs.1).elim
    | advance ha ha' hunits hs => exact (hsame hs.1).elim
    | tell us ha =>
      -- the audits before this one are finished, and those behind it have not begun
      have hothers : ∀ j v, j ≠ k → r₀.audits[j]? = some v →
          v.Settled ∧ v.untold = 0 ∧ v.owed = 0 := by
        intro j v hj hv
        unfold FileAudit.Settled FileAudit.untold FileAudit.owed
        rcases Nat.lt_or_gt_of_ne hj with hlt | hgt
        · have hfin := isFinished_of_mayMove hm hr.sequential hlt hv
          unfold FileAudit.isFinished at hfin
          split at hfin
          · next ha hs =>
            rw [ha, hs]
            exact ⟨trivial, rfl, rfl⟩
          · cases hfin
        · obtain ⟨hs, ha⟩ := hr.untouched k j w v hgt hk hf hv
          rw [ha, hs]
          exact ⟨trivial, rfl, rfl⟩
      have hset : ∀ f : FileAudit → Nat,
          (∀ j v, j ≠ k → r₀.audits[j]? = some v → f v = 0) →
          total f (r₀.audits.set k { w with announcement := .nothing })
            = f { w with announcement := .nothing } := by
        intro f h
        refine total_eq_of_others (k := k) ?_ fun j v hj hv => ?_
        · exact List.getElem?_set_self (List.getElem?_eq_some_iff.1 hk).1
        · rw [List.getElem?_set_ne (Ne.symm hj)] at hv
          exact h j v hj hv
      refine ⟨⟨?_, ?_, ?_⟩, ?_, ?_⟩
      · show (r₀.shared.emit t _).aborted = true
        rw [emit_aborted, hb, Bool.or_true]
      · intro v hv
        obtain hv | rfl := List.mem_or_eq_of_mem_set hv
        · exact hr.tidy v hv
        · exact htidy
      · intro v hv
        obtain ⟨j, hj⟩ := List.mem_iff_getElem?.1 hv
        obtain ⟨-, rfl⟩ | ⟨hne, hj⟩ := eq_or_of_getElem?_put hj
        · have htidy₀ := hr.tidy w (List.mem_of_getElem? hk)
          exact htidy₀.settled (by rw [ha]; exact Announcement.noConfusion)
        · exact (hothers j v hne hj).1
      · exact hset (·.untold) fun j v hj hv => (hothers j v hj hv).2.1
      · refine Nat.le_trans (Nat.le_of_eq ?_) (FileAudit.owed_le w)
        exact hset (·.owed) fun j v hj hv => (hothers j v hj hv).2.2

end Run

/-! ### Results in the report -/

theorem FileAudit.found_of_isFinished {w : FileAudit} (hf : w.isFinished = true) :
    w.found = resultCount w.row := by
  obtain ⟨file, position, stage, units, announcement⟩ := w
  cases stage with
  | finished results => cases results <;> rfl
  | _ => cases announcement <;> cases hf

theorem FileAudit.length_row_le {t : Setting} {aborted : Bool} {w : FileAudit}
    (hw : w.Sound t aborted) : w.row.length ≤ t.rules.length := by
  cases h : w.row.length with
  | zero => exact Nat.zero_le _
  | succ n =>
    -- the last result is one for some document
    have hlt : n < w.row.length := by omega
    obtain ⟨r, hr, -⟩ := FileAudit.getElem?_row hw (List.getElem?_eq_getElem hlt)
    exact (List.getElem?_eq_some_iff.1 hr).1

/-- **The report of a finished run holds the results that it has found.** -/
theorem Run.reportCount_report {t : Setting} {r : Run} (h : r.Sound t)
    (hf : r.isFinished = true) : reportCount (r.report t) = r.found := by
  have hrows : ∀ row ∈ r.audits.map FileAudit.row, row.length ≤ t.rules.length := by
    intro row hrow
    obtain ⟨w, hw, rfl⟩ := List.mem_map.1 hrow
    exact FileAudit.length_row_le (h.audits w hw)
  have hcolumns := total_columns (fun a : FileResult => a.specifications.length) hrows
  have hfound : r.found = total resultCount (r.audits.map FileAudit.row) := by
    rw [total_map]
    exact total_congr fun w hw => FileAudit.found_of_isFinished (List.all_eq_true.1 hf w hw)
  have hrange : List.range t.rules.length = t.rules.zipIdx.map (·.2) := by
    rw [List.zipIdx_map_snd, List.range_eq_range']
  rw [hrange, total_map] at hcolumns
  rw [hfound]
  refine Eq.trans ?_ hcolumns
  unfold reportCount report
  rw [total_map]
  refine total_congr fun d _ => ?_
  rw [filterMap_fileResults]
  rfl

/-! ### Whole runs -/

/-- At the start no audit has had its turn. -/
theorem inOrder_startRun {s : Session} {t : Setting}
    (h : s.chooseStrategy t.files ≠ .parallelSmallFiles) : (s.startRun t).InOrder := by
  have hready : ∀ w ∈ (s.startRun t).audits, w.stage = .ready ∧ w.announcement = .nothing := by
    intro w hw
    rw [audits_startRun] at hw
    obtain ⟨f, -, rfl⟩ := List.mem_map.1 hw
    exact ⟨rfl, rfl⟩
  refine ⟨?_, ?_, fun i j w v _ _ _ hv => hready v (List.mem_of_getElem? hv)⟩
  · unfold Session.startRun
    simp only [if_neg h, Bool.not_false]
  · intro w hw
    obtain ⟨hs, ha⟩ := hready w hw
    refine .outside (fun es d todo done hs' => ?_) fun hne => absurd ha hne
    rw [hs] at hs'
    cases hs'

namespace Run

variable {t : Setting} {r r' : Run}

/-- What is known of a run when the observer has just broken it off. -/
theorem stopped_of_justStopped {s : Session}
    (hs : s.chooseStrategy t.files ≠ .parallelSmallFiles)
    (h : JustStopped t (s.startRun t) r) : r.Stopped ∧ r.untold = 0 ∧ r.owed ≤ 1 := by
  have horder := inOrder_startRun hs
  obtain ⟨rfl, hb⟩ | ⟨r₀, k, hreach, hstep, hevents, hb⟩ := h
  · -- no audit has begun at the start
    have hready : ∀ w ∈ (s.startRun t).audits, w.Settled ∧ w.untold = 0 ∧ w.owed = 0 := by
      intro w hw
      rw [audits_startRun] at hw
      obtain ⟨f, -, rfl⟩ := List.mem_map.1 hw
      exact ⟨trivial, rfl, rfl⟩
    have hstopped : (s.startRun t).Stopped := by
      refine ⟨?_, horder.tidy, fun w hw => (hready w hw).1⟩
      rw [aborted_startRun_eq, hb]
    refine ⟨hstopped, total_eq_zero fun w hw => (hready w hw).2.1, ?_⟩
    exact Nat.le_trans (Nat.le_of_eq (total_eq_zero fun w hw => (hready w hw).2.2)) (Nat.zero_le _)
  · exact stopped_of_tell (inOrder_of_reaches hreach horder) hstep hevents hb

theorem reaches_of_justStopped {start : Run} (h : JustStopped t start r) : Reaches t start r := by
  obtain ⟨rfl, -⟩ | ⟨r₀, k, hreach, hstep, -⟩ := h
  · exact .refl r
  · exact hreach.trans (.step _ hstep (.refl r))

end Run

/-- **What is delivered after the observer has broken a run off.** Where the models are not audited
at the same time, whatever is handed to workers if any come, and in whatever order they deliver:
from the moment when the observer's call returns, the run comes to its end, and until then the
observer is told of as many results, and the report has as many more, as are owed at that moment.
This is one at most. It is one if the document in hand is such that no result of the workers has
been taken for it yet and one is ready or under way, and none otherwise. -/
theorem results_after_stop (s : Session) (workersCome : Bool) (breaksOff : Nat → Bool)
    (files : List ModelSource) (rules : List RuleSource)
    (hs : s.chooseStrategy files ≠ .parallelSmallFiles) :
    let t : Setting := ⟨s.config, files, rules, breaksOff, workersCome⟩
    ∀ r, Run.JustStopped t (s.startRun t) r →
      r.owed ≤ 1 ∧ r.ComesToEnd t ∧
        ∀ r', Run.Reaches t r r' → r'.isFinished = true →
          r'.shared.progress.length = r.shared.progress.length + r.owed ∧
            reportCount (s.finishRun t r').2.2 = r.found + r.owed := by
  intro t r h
  obtain ⟨hstopped, huntold, howed⟩ := Run.stopped_of_justStopped hs h
  refine ⟨howed, Run.comesToEnd t r, fun r' hreach hf => ?_⟩
  obtain ⟨hprogress, hfound⟩ := Run.delivered_of_reaches hreach hstopped huntold hf
  refine ⟨hprogress, ?_⟩
  have hsound := Run.sound_of_reaches hreach
    (Run.sound_of_reaches (Run.reaches_of_justStopped h) (sound_startRun s t))
  rw [report_finishRun, Run.reportCount_report hsound hf, hfound]

/-- A model with a wall is audited against a specification of walls, which is handed to the workers,
and one of doors. The observer breaks the run off when it is told of the second unit. -/
def oneWall : Setting where
  config := { workerEntityThreshold := 0, workerThreads := some 1 }
  files := [⟨"a.ifc", "#1=IFCWALL('G1',$,'A',$);"⟩]
  rules := [⟨"rules", { specifications := [
    { name := "Walls", ifcVersion := "IFC4"
      applicability := [{ condition := .entity (.simple "IFCWALL") none }] },
    { name := "Doors", ifcVersion := "IFC4"
      applicability := [{ condition := .entity (.simple "IFCDOOR") none }] }] }⟩]
  breaksOff n := n = 2
  workersCome := true

/-- The workers have dealt with the wall when the observer is told that no door had to be looked at.
The result of the wall is still delivered. -/
theorem justStopped_oneWall :
    let start : Run := Session.startRun { config := oneWall.config } oneWall
    ∃ r r', Run.JustStopped oneWall start r ∧ r.shared.progress.length = 2 ∧ r.found = 0 ∧
      r.owed = 1 ∧ Run.Reaches oneWall r r' ∧ r'.isFinished = true ∧
      r'.shared.progress.length = 3 ∧ reportCount (r'.report oneWall) = 1 := by
  intro start
  let before : List Choice :=
    List.replicate 9 (.move 0) ++ [.begin 0 0, .deliver 0 0] ++ List.replicate 3 (.move 0)
  let behind : List Choice := List.replicate 5 (.move 0)
  have hrun : ((start.follow oneWall before).bind fun r₀ =>
      (r₀.step oneWall (.move 0)).bind fun r => (r.follow oneWall behind).map fun r' =>
        ([r₀.shared.events.length, r.shared.events.length, r.shared.progress.length, r.found,
          r.owed, r'.shared.progress.length, reportCount (r'.report oneWall)], r'.isFinished))
      = some ([2, 3, 2, 0, 1, 3, 1], true) := by decide +revert +kernel
  obtain ⟨r₀, hbefore, hrun⟩ := Option.bind_eq_some_iff.1 hrun
  obtain ⟨r, hstep, hrun⟩ := Option.bind_eq_some_iff.1 hrun
  obtain ⟨r', hbehind, hrun⟩ := Option.map_eq_some_iff.1 hrun
  simp only [Prod.mk.injEq, List.cons.injEq, and_true] at hrun
  obtain ⟨⟨hevents₀, hevents, hprogress, hfound, howed, hprogress', hcount⟩, hf⟩ := hrun
  have hstopped : Run.JustStopped oneWall start r := by
    refine .inr ⟨r₀, 0, Run.reaches_iff_follow.2 ⟨before, hbefore⟩, hstep, ?_, ?_⟩
    · rw [hevents, hevents₀]
    · rw [hevents₀]
      rfl
  exact ⟨r, r', hstopped, hprogress, hfound, howed, Run.reaches_iff_follow.2 ⟨behind, hbehind⟩, hf,
    hprogress', hcount⟩

theorem results_after_stop_one_wall :
    let s : Session := { config := oneWall.config }
    s.chooseStrategy oneWall.files ≠ .parallelSmallFiles ∧
      ∃ r r', Run.JustStopped oneWall (s.startRun oneWall) r ∧ r.owed = 1 ∧
        Run.Reaches oneWall r r' ∧ r'.isFinished = true ∧
        r'.shared.progress.length = r.shared.progress.length + r.owed ∧
        reportCount (s.finishRun oneWall r').2.2 = r.found + r.owed := by
  intro s
  have hs : s.chooseStrategy oneWall.files ≠ .parallelSmallFiles := by decide +revert
  obtain ⟨r, r', hstopped, -, -, howed, hreach, hf, -⟩ := justStopped_oneWall
  obtain ⟨-, -, hend⟩ :=
    results_after_stop s true oneWall.breaksOff oneWall.files oneWall.rules hs r hstopped
  obtain ⟨hprogress, hcount⟩ := hend r' hreach hf
  exact ⟨hs, r, r', hstopped, howed, hreach, hf, hprogress, hcount⟩

/-- A result may be delivered, and the observer be told of it, after the run has been broken off. -/
theorem exists_late_result :
    let start : Run := Session.startRun { config := oneWall.config } oneWall
    ∃ r r', Run.JustStopped oneWall start r ∧ Run.Reaches oneWall r r' ∧ r'.isFinished = true ∧
      r.shared.progress.length < r'.shared.progress.length ∧
      r.found < reportCount (r'.report oneWall) := by
  intro start
  obtain ⟨r, r', hstopped, hprogress, hfound, -, hreach, hf, hprogress', hcount⟩ :=
    justStopped_oneWall
  exact ⟨r, r', hstopped, hreach, hf, by omega, by omega⟩

end BimAudit.Session
