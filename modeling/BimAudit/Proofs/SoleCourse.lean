import BimAudit.Proofs.RunEvents

/-!
# Runs without workers have only one course

Two runs with the same models and documents may differ in their workers. Some may be left from an
earlier run, and it depends on the machine whether those that are called come. Where no
specification is in the hands of workers and the audits take place one after the other, there is
only one step to take, so two such runs have the same course and the same end.

* `Shared.Staffed`: what is known of the workers. `Shared.askPool_fst`: who gets some.
* `FileAudit.GetsNone`: an audit that asks for workers next gets none. `FileAudit.moved_alike`:
  **then it takes the same step as one without workers.**
* `Run.Unassisted`: no specification is in the hands of workers. `Run.unassisted_of_staffed`: this
  holds of all courses if no workers are to be had.
* `Run.alike_of_unassisted`: **two runs that differ in their workers end alike if none are used.**
-/

namespace BimAudit.Session

/-- The same setting, but workers come or not. -/
abbrev Setting.withWorkers (t : Setting) (b : Bool) : Setting := { t with workersCome := b }

/-! ### What the audits share -/

namespace Shared

variable {t : Setting} {b has has' : Bool} {s s' : Shared}

/-- Whether workers are to be had. There are none otherwise. Unless the run has been broken off,
there are some if they have been asked for, and else some are left or will come. -/
structure Staffed (t : Setting) (has : Bool) (s : Shared) : Prop where
  pool : s.pool = true → has = true
  ready : s.aborted = false → ∀ ready ∈ s.poolReady, ready = has ∧ s.pool = has
  unasked : s.aborted = false → s.poolReady = none → (s.pool || t.hasWorkers) = has

/-- Those who ask get workers if some are to be had, unless the run has been broken off. -/
theorem usePool_fst (h : s.Staffed t has) : (s.usePool t).1 = (!s.aborted && has) := by
  unfold usePool
  cases ha : s.aborted with
  | true => rfl
  | false =>
    cases hr : s.poolReady with
    | none =>
      have hnow := h.unasked ha hr
      show (decide (some (s.pool || t.hasWorkers) = some true)
        && (s.pool || (s.pool || t.hasWorkers))) = _
      rw [hnow]
      cases hp : s.pool with
      | true => rw [h.pool hp]; rfl
      | false => cases has <;> rfl
    | some ready =>
      obtain ⟨rfl, hp⟩ := h.ready ha ready hr
      show (decide (s.poolReady = some true) && s.pool) = _
      rw [hr, hp]
      cases ready <;> rfl

/-- Asking for the pool leaves a run staffed as it is. -/
theorem Staffed.usePool (h : s.Staffed t has) : (s.usePool t).2.Staffed t has := by
  obtain ⟨aborted, pool, poolReady, units, events⟩ := s
  have hpool : pool = true → has = true := h.pool
  unfold Shared.usePool
  cases aborted with
  | true => exact h
  | false =>
    cases poolReady with
    | some ready => exact h
    | none =>
      -- the workers are called now, unless some are left
      have hnow : (pool || t.hasWorkers) = has := h.unasked rfl rfl
      have hthere : (pool || has) = has := by
        cases pool with
        | true => exact (hpool rfl).symm
        | false => rfl
      refine ⟨?_, ?_, fun _ hnone => nomatch hnone⟩
      · show (pool || (pool || t.hasWorkers)) = true → _
        rw [hnow, hthere]
        exact id
      · rintro - ready hready
        cases hready
        show (pool || t.hasWorkers) = _ ∧ (pool || (pool || t.hasWorkers)) = _
        rw [hnow, hthere]
        exact ⟨rfl, rfl⟩

/-- **Who gets workers**: those who may hand over a specification that applies to many entities, if
workers are to be had and the run has not been broken off. -/
theorem askPool_fst (h : s.Staffed t has) (delegates : Bool) (n : Nat) :
    (s.askPool t delegates n).1 =
      ((delegates && decide (t.config.workerEntityThreshold < n)) && (!s.aborted && has)) := by
  unfold askPool
  split
  case isTrue hn => rw [usePool_fst h, hn, Bool.true_and]
  case isFalse hn => rw [Bool.eq_false_iff.2 hn, Bool.false_and]

/-- Delegating leaves a run staffed as it is. -/
theorem Staffed.askPool (h : s.Staffed t has) (delegates : Bool) (n : Nat) :
    (s.askPool t delegates n).2.Staffed t has := by
  unfold Shared.askPool
  split
  · exact h.usePool
  · exact h

theorem staffed_abort (t : Setting) (has : Bool) (s : Shared) : s.abort.Staffed t has :=
  ⟨Bool.noConfusion, Bool.noConfusion, Bool.noConfusion⟩

theorem Staffed.emit (h : s.Staffed t has) (e : Event) : (s.emit t e).Staffed t has := by
  have hevents : ({ s with events := e :: s.events } : Shared).Staffed t has :=
    ⟨h.pool, h.ready, h.unasked⟩
  unfold Shared.emit
  dsimp only
  split
  · exact staffed_abort t has _
  · exact hevents

/-- The audits know the same, whatever workers there are. -/
structure Alike (s s' : Shared) : Prop where
  aborted : s.aborted = s'.aborted
  units : s.units = s'.units
  events : s.events = s'.events

theorem Alike.symm (h : s.Alike s') : s'.Alike s :=
  ⟨h.aborted.symm, h.units.symm, h.events.symm⟩

theorem Alike.trans {s'' : Shared} (h : s.Alike s') (h' : s'.Alike s'') : s.Alike s'' :=
  ⟨h.aborted.trans h'.aborted, h.units.trans h'.units, h.events.trans h'.events⟩

theorem Alike.publish (h : s.Alike s') (k n : Nat) :
    ({ s with units := s.units.set k n } : Shared).Alike
      { s' with units := s'.units.set k n } :=
  ⟨h.aborted, by rw [h.units], h.events⟩

theorem Alike.emit (h : s.Alike s') (e : Event) :
    (s.emit t e).Alike (s'.emit (t.withWorkers b) e) := by
  refine ⟨?_, ?_, ?_⟩
  · rw [Run.emit_aborted, Run.emit_aborted, h.aborted, h.events]
  · rw [Run.emit_units, Run.emit_units, h.units]
  · rw [Run.emit_events, Run.emit_events, h.events]

/-- Those who ask for workers change nothing else. -/
theorem alike_usePool (t : Setting) (s : Shared) : s.Alike (s.usePool t).2 := by
  obtain ⟨hevents, hunits⟩ := Run.usePool_eq t s
  exact ⟨(Run.aborted_usePool_eq s).symm, hunits.symm, hevents.symm⟩

/-- Asking for the workers changes nothing else. -/
theorem alike_askPool (t : Setting) (delegates : Bool) (n : Nat) (s : Shared) :
    s.Alike (s.askPool t delegates n).2 := by
  unfold Shared.askPool
  split
  · exact alike_usePool t s
  · exact ⟨rfl, rfl, rfl⟩

end Shared

/-! ### One audit -/

namespace FileAudit

variable {t : Setting} {b delegates has has' : Bool} {s s' s₁ s₂ : Shared} {w w₁ w₂ : FileAudit}

/-- The workers have no specification of the audit in hand. -/
def Idle (w : FileAudit) : Prop := ∀ es d todo done, w.stage = .auditing es d todo done →
  d.waiting = [] ∧ d.running = []

/-- A step within a document. -/
theorem Idle.document {es : List Ifc.Entity} {d : DocumentAudit} {todo : List RuleSource}
    {done : List Audit.FileResult} (hs : w.stage = .auditing es d todo done)
    (h : d.waiting = [] ∧ d.running = []) : w.Idle := by
  intro es' d' todo' done' hs'
  rw [hs] at hs'
  cases hs'
  exact h

theorem Idle.outside (hs : ∀ es d todo done, w.stage ≠ .auditing es d todo done) : w.Idle :=
  fun es d todo done h => absurd h (hs es d todo done)

/-- Where nothing is delegated no task begins. -/
theorem not_begin_of_idle {k : Nat} (h : w.Idle) : w.begin k s = none := by
  cases hbegin : w.begin k s with
  | none => rfl
  | some w' =>
    obtain ⟨es, d, todo, done, task, hs, htask, -⟩ := begin_eq_some hbegin
    rw [(h es d todo done hs).1] at htask
    cases htask

/-- No result is delivered either. -/
theorem not_deliver_of_idle {k : Nat} (h : w.Idle) : w.deliver t k = none := by
  cases hdeliver : w.deliver t k with
  | none => rfl
  | some w' =>
    obtain ⟨es, d, todo, done, task, hs, htask, -⟩ := deliver_eq_some hdeliver
    rw [(h es d todo done hs).2] at htask
    cases htask

/-- With its next step the audit asks for workers, for a specification that applies to so many
entities. -/
def Asks (w : FileAudit) (n : Nat) : Prop :=
  w.announcement = .nothing ∧ ∃ es d spec rest todo done, w.stage = .auditing es d todo done ∧
    d.todo = spec :: rest ∧ d.checked = true ∧ n = (es.filter (Audit.appliesTo spec)).length

/-- If the audit asks for workers with its next step, it gets none. -/
def GetsNone (t : Setting) (delegates : Bool) (s : Shared) (w : FileAudit) : Prop :=
  ∀ n, w.Asks n → (s.askPool t delegates n).1 = false

/-- An audit that gets workers hands over a specification. -/
theorem getsNone_of_idle (hmove : w.move t delegates s = some (s₁, w₁)) (hidle : w₁.Idle) :
    w.GetsNone t delegates s := by
  rintro n ⟨hw, es, d, spec, rest, todo, done, hs, hd, hc, rfl⟩
  cases hfst : (s.askPool t delegates (es.filter (Audit.appliesTo spec)).length).1 with
  | false => rfl
  | true =>
    have hover := move_of_moved (.handOver es d spec rest todo done _ hw hs hd hc
      (Prod.ext hfst rfl : s.askPool t delegates _ = (true, _)))
    rw [hmove] at hover
    cases hover
    have hwaiting := (hidle _ _ _ _ rfl).1
    exact absurd hwaiting (List.append_ne_nil_of_right_ne_nil _ (List.cons_ne_nil _ _))

/-- Who gets no workers where some are to be had gets none anywhere else. -/
theorem getsNone_of_staffed (h : s.Alike s') (hs : s.Staffed t has)
    (hs' : s'.Staffed (t.withWorkers b) has') (hhas : has' = true → has = true)
    (hnone : w.GetsNone t delegates s) : w.GetsNone (t.withWorkers b) delegates s' := by
  intro n hask
  have hn := hnone n hask
  rw [Shared.askPool_fst hs, h.aborted] at hn
  rw [Shared.askPool_fst hs']
  cases has' with
  | false => rw [Bool.and_false, Bool.and_false]
  | true =>
    rw [hhas rfl] at hn
    exact hn

/-- **An audit that gets no workers takes the same step as one that hands nothing over.** -/
theorem moved_alike (h : s.Alike s') (hw : Moved t delegates s w s₁ w₁) (hidle : w₁.Idle)
    (hnone : w.GetsNone (t.withWorkers b) delegates s') :
    ∃ s₁', Moved (t.withWorkers b) delegates s' w s₁' w₁ ∧ s₁.Alike s₁' := by
  have hsign : ∀ {b}, s.aborted = b → s'.aborted = b := h.aborted.symm.trans
  cases hw with
  | publish hw =>
    rw [h.units]
    exact ⟨_, .publish hw, h.units ▸ h.publish w.position w.units⟩
  | tell units hw => exact ⟨_, .tell units hw, h.emit _⟩
  | skip hw hs ha => exact ⟨s', .skip hw hs (hsign ha), h⟩
  | start hw hs ha => exact ⟨s', .start hw hs (hsign ha), h⟩
  | read r r' m hw hs hr => exact ⟨s', .read r r' m hw hs hr, h⟩
  | readOn r r' p hw hs hr ha => exact ⟨s', .readOn r r' p hw hs hr (hsign ha), h⟩
  | stopReading r r' p hw hs hr ha => exact ⟨s', .stopReading r r' p hw hs hr (hsign ha), h⟩
  | finish es done hw hs => exact ⟨s', .finish es done hw hs, h⟩
  | openDocument es r todo done hw hs ha =>
    exact ⟨s', .openDocument es r todo done hw hs (hsign ha), h⟩
  | stopBetween es r todo done hw hs ha =>
    exact ⟨s', .stopBetween es r todo done hw hs (hsign ha), h⟩
  | look es d spec rest todo done hw hs hd hc ha =>
    exact ⟨s', .look es d spec rest todo done hw hs hd hc (hsign ha), h⟩
  | leaveOut es d spec rest todo done hw hs hd hc ha =>
    exact ⟨s', .leaveOut es d spec rest todo done hw hs hd hc (hsign ha), h⟩
  | handOver es d spec rest todo done _ hw hs hd hc hp =>
    have hwaiting := (hidle _ _ _ _ rfl).1
    exact absurd hwaiting (List.append_ne_nil_of_right_ne_nil _ (List.cons_ne_nil _ _))
  | checkHere es d spec rest todo done _ hw hs hd hc hp =>
    have hfst := hnone _ ⟨hw, es, d, spec, rest, todo, done, hs, hd, hc, rfl⟩
    have hlike := Shared.alike_askPool t delegates (es.filter (Audit.appliesTo spec)).length s
    have hlike' := Shared.alike_askPool (t.withWorkers b) delegates
      (es.filter (Audit.appliesTo spec)).length s'
    rw [hp] at hlike
    exact ⟨_, .checkHere es d spec rest todo done _ hw hs hd hc (Prod.ext hfst rfl),
      hlike.symm.trans (h.trans hlike')⟩
  | stopTaking es d todo done hw hs hd hr ha =>
    exact ⟨s', .stopTaking es d todo done hw hs hd hr (hsign ha), h⟩
  | takeOn es d todo done hw hs hd hr ha =>
    exact ⟨s', .takeOn es d todo done hw hs hd hr (hsign ha), h⟩
  | take es d todo done i result queue hw hs hd hr hq =>
    exact ⟨s', .take es d todo done i result queue hw hs hd hr hq, h⟩
  | close es d todo done hw hs hd hr hq hwait hrun =>
    exact ⟨s', .close es d todo done hw hs hd hr hq hwait hrun, h⟩

/-- No step of an audit changes whether workers are to be had. -/
theorem staffed_of_moved (hw : Moved t delegates s w s₁ w₁) (h : s.Staffed t has) :
    s₁.Staffed t has := by
  cases hw with
  | publish => exact ⟨h.pool, h.ready, h.unasked⟩
  | tell => exact h.emit _
  | handOver es d spec rest todo done _ _ _ _ _ hp
  | checkHere es d spec rest todo done _ _ _ _ _ hp =>
    have hask := h.askPool delegates (es.filter (Audit.appliesTo spec)).length
    rwa [hp] at hask
  | _ => exact h

/-- Where no workers are to be had, nothing is handed over to them. -/
theorem idle_of_moved (hs : s.Staffed t false) (h : w.Idle)
    (hw : Moved t delegates s w s₁ w₁) : w₁.Idle := by
  cases hw with
  | publish | tell => exact h
  | read => exact .outside fun _ _ _ _ => Stage.noConfusion
  | skip | start | readOn | stopReading | finish | stopBetween | stopTaking | close =>
    exact .outside fun _ _ _ _ => Stage.noConfusion
  | openDocument => exact .document rfl ⟨rfl, rfl⟩
  | look es d spec rest todo done ha hstage => exact .document rfl (h es d todo done hstage)
  | leaveOut es d spec rest todo done ha hstage => exact .document rfl (h es d todo done hstage)
  | handOver es d spec rest todo done _ ha hstage hd hc hp =>
    have hfst := Shared.askPool_fst hs delegates (es.filter (Audit.appliesTo spec)).length
    rw [hp, Bool.and_false, Bool.and_false] at hfst
    cases hfst
  | checkHere es d spec rest todo done _ ha hstage =>
    exact .document rfl (h es d todo done hstage)
  | takeOn es d todo done ha hstage => exact .document rfl (h es d todo done hstage)
  | take es d todo done i x queue ha hstage => exact .document rfl (h es d todo done hstage)

end FileAudit

/-! ### Runs that differ in their workers -/

namespace Run

variable {t : Setting} {b has has' : Bool} {r r' r₁ r₂ : Run} {c c' : Choice}
  {cs cs' : List Choice}

/-- The runs differ in the workers only. -/
structure Alike (r r' : Run) : Prop where
  sequential : r.sequential = r'.sequential
  audits : r.audits = r'.audits
  shared : r.shared.Alike r'.shared

/-- The workers have no specification in hand. -/
def Idle (r : Run) : Prop := ∀ w ∈ r.audits, w.Idle

theorem Alike.idle (h : r.Alike r') (hidle : r.Idle) : r'.Idle :=
  fun w hw => hidle w (h.audits ▸ hw)

theorem Alike.isFinished (h : r.Alike r') : r.isFinished = r'.isFinished := by
  unfold Run.isFinished
  rw [h.audits]

/-- The audit that a step leaves behind is one of the audits then. -/
theorem mem_put {k : Nat} {w : FileAudit} (hk : r.audits[k]? = some w) (w₁ : FileAudit) :
    w₁ ∈ (r.put k w₁).audits := by
  obtain ⟨hlt, -⟩ := List.getElem?_eq_some_iff.1 hk
  exact List.mem_set hlt w₁

/-- An audit that moves asks for workers in vain if the workers have nothing in hand then. -/
theorem getsNone_of_step {k : Nat} {w : FileAudit} (hstep : r.step t (.move k) = some r₁)
    (hidle : r₁.Idle) (hk : r.audits[k]? = some w) : w.GetsNone t r.sequential r.shared := by
  cases stepped_of_step hstep with
  | @move _ v w₁ s hm hv hw =>
    obtain rfl : w = v := Option.some.inj (hk.symm.trans hv)
    exact FileAudit.getsNone_of_idle (FileAudit.move_of_moved hw) (hidle w₁ (mem_put hv w₁))

/-- **A run in which nobody gets workers takes the same step as one that hands nothing over.** -/
theorem step_alike {k : Nat} (h : r.Alike r') (hstep : r.step t (.move k) = some r₁)
    (hidle : r₁.Idle) (hnone : ∀ w, r.audits[k]? = some w →
      w.GetsNone (t.withWorkers b) r'.sequential r'.shared) :
    ∃ r₂, r'.step (t.withWorkers b) (.move k) = some r₂ ∧ r₁.Alike r₂ := by
  cases stepped_of_step hstep with
  | @move _ w w₁ s hm hk hw =>
    have hnone' := hnone w hk
    rw [← h.sequential] at hnone'
    obtain ⟨s', hw', hs⟩ :=
      FileAudit.moved_alike h.shared hw (hidle w₁ (mem_put hk w₁)) hnone'
    have hmay : r'.mayMove k = true := by
      rw [← hm]
      unfold mayMove
      rw [h.sequential, h.audits]
    refine ⟨{ r'.put k w₁ with shared := s' }, ?_, h.sequential, congrArg (·.set k w₁) h.audits, hs⟩
    unfold step
    simp only
    rw [if_pos hmay, ← h.audits, hk, Option.bind_some, ← h.sequential, FileAudit.move_of_moved hw']
    rfl

/-- No step changes whether workers are to be had. -/
theorem staffed_of_step (hstep : r.step t c = some r₁) (h : r.shared.Staffed t has) :
    r₁.shared.Staffed t has := by
  cases stepped_of_step hstep with
  | move hm hk hw => exact FileAudit.staffed_of_moved hw h
  | begin | deliver => exact h
  | abort => exact Shared.staffed_abort t has _

/-- A run leaves the workers as they are. The induction is on its steps. -/
theorem staffed_of_reaches (h : Reaches t r r') (hr : r.shared.Staffed t has) :
    r'.shared.Staffed t has :=
  h.keeps (P := fun r => r.shared.Staffed t has) hr staffed_of_step

/-! ### Runs without workers -/

/-- The workers have no specification in hand at any time of the course. -/
def Unassisted (t : Setting) (cs : List Choice) (r : Run) : Prop :=
  ∀ n r', follow t (cs.take n) r = some r' → r'.Idle

theorem Unassisted.idle (h : Unassisted t cs r) : r.Idle := h 0 r rfl

theorem Unassisted.tail (h : Unassisted t (c :: cs) r) (hstep : r.step t c = some r₁) :
    Unassisted t cs r₁ := by
  intro n r' hr'
  apply h (n + 1) r'
  rw [List.take_succ_cons]
  exact follow_cons_eq_some_iff.2 ⟨r₁, hstep, hr'⟩

/-- Without workers the only step is that of the first audit that is not finished. -/
theorem eq_move_of_step (hs : r.sequential = true) (hidle : r.Idle)
    (hstep : r.step t c = some r₁) (hc : c ≠ .abort) :
    ∃ k w, c = .move k ∧ r.audits[k]? = some w ∧ w.isFinished = false ∧
      ∀ i v, i < k → r.audits[i]? = some v → v.isFinished = true := by
  cases stepped_of_step hstep with
  | @move k w w' s hm hk hw =>
    exact ⟨k, w, rfl, hk, not_isFinished_of_moved hw,
      fun i v hlt hi => isFinished_of_mayMove hm hs hlt hi⟩
  | begin hk hw =>
    rw [FileAudit.not_begin_of_idle (hidle _ (List.mem_of_getElem? hk))] at hw
    cases hw
  | deliver hk hw =>
    rw [FileAudit.not_deliver_of_idle (hidle _ (List.mem_of_getElem? hk))] at hw
    cases hw
  | abort ha => exact absurd rfl hc

/-- Two runs that differ in their workers have no choice but to move the same audit. -/
theorem choice_unique (h : r.Alike r') (hs : r.sequential = true) (hidle : r.Idle)
    (hstep : r.step t c = some r₁) (hc : c ≠ .abort)
    (hstep' : r'.step (t.withWorkers b) c' = some r₂) (hc' : c' ≠ .abort) :
    ∃ k, c = .move k ∧ c' = .move k := by
  obtain ⟨k, w, rfl, hk, hw, hbefore⟩ := eq_move_of_step hs hidle hstep hc
  obtain ⟨k', w', rfl, hk', hw', hbefore'⟩ :=
    eq_move_of_step (h.sequential ▸ hs) (h.idle hidle) hstep' hc'
  rw [← h.audits] at hk' hbefore'
  rcases Nat.lt_trichotomy k k' with hlt | rfl | hgt
  · rw [hbefore' k w hlt hk] at hw
    cases hw
  · exact ⟨k, rfl, rfl⟩
  · rw [hbefore k' w' hgt hk'] at hw'
    cases hw'

/-- Behind the end there is no step but to ask to stop. -/
theorem not_isFinished_of_step (hs : r.sequential = true) (hidle : r.Idle)
    (hstep : r.step t c = some r₁) (hc : c ≠ .abort) : r.isFinished = false := by
  obtain ⟨k, w, -, hk, hw, -⟩ := eq_move_of_step hs hidle hstep hc
  cases hf : r.isFinished with
  | false => rfl
  | true =>
    rw [List.all_eq_true.1 hf w (List.mem_of_getElem? hk)] at hw
    cases hw

theorem sequential_of_step (hstep : r.step t c = some r₁) : r₁.sequential = r.sequential := by
  cases stepped_of_step hstep <;> rfl

/-- The other run uses no workers either, or none are to be had for it unless they are for this
one. -/
def NoMoreWorkers (t : Setting) (b : Bool) (r r' : Run) (cs' : List Choice) : Prop :=
  Unassisted (t.withWorkers b) cs' r' ∨
    ∃ has has', r.shared.Staffed t has ∧ r'.shared.Staffed (t.withWorkers b) has' ∧
      (has' = true → has = true)

theorem NoMoreWorkers.tail (h : NoMoreWorkers t b r r' (c' :: cs'))
    (hstep : r.step t c = some r₁) (hstep' : r'.step (t.withWorkers b) c' = some r₂) :
    NoMoreWorkers t b r₁ r₂ cs' := by
  rcases h with hun | ⟨has, has', hs, hs', hhas⟩
  · exact .inl (hun.tail hstep')
  · exact .inr ⟨has, has', staffed_of_step hstep hs, staffed_of_step hstep' hs', hhas⟩

/-- Where this run hands nothing over, the other one gets no workers. -/
theorem NoMoreWorkers.getsNone {k : Nat} {w : FileAudit}
    (h : NoMoreWorkers t b r r' (.move k :: cs')) (halike : r.Alike r')
    (hstep : r.step t (.move k) = some r₁) (hidle : r₁.Idle)
    (hstep' : r'.step (t.withWorkers b) (.move k) = some r₂) (hk : r.audits[k]? = some w) :
    w.GetsNone (t.withWorkers b) r'.sequential r'.shared := by
  rcases h with hun | ⟨has, has', hs, hs', hhas⟩
  · exact getsNone_of_step hstep' (hun.tail hstep').idle (halike.audits ▸ hk)
  · have hnone := getsNone_of_step hstep hidle hk
    rw [halike.sequential] at hnone
    exact FileAudit.getsNone_of_staffed halike.shared hs hs' hhas hnone

/-- **Two runs that differ in their workers end alike if none are used**: they have the same course.
The induction is on the courses of both; at each step there is only one choice. -/
theorem alike_of_unassisted (h : r.Alike r') (hs : r.sequential = true)
    (hun : Unassisted t cs r) (hother : NoMoreWorkers t b r r' cs')
    (hcs : follow t cs r = some r₁) (hf : r₁.isFinished = true) (habort : .abort ∉ cs)
    (hcs' : follow (t.withWorkers b) cs' r' = some r₂) (hf' : r₂.isFinished = true)
    (habort' : .abort ∉ cs') : r₁.Alike r₂ := by
  induction cs generalizing r r' cs' with
  | nil =>
    cases hcs
    cases cs' with
    | nil =>
      cases hcs'
      exact h
    | cons c' cs' =>
      -- the one run is at its end, so the other one is
      obtain ⟨r'', hstep', -⟩ := follow_cons_eq_some_iff.1 hcs'
      have hnot := not_isFinished_of_step (h.sequential ▸ hs) (h.idle hun.idle) hstep'
        (List.ne_of_not_mem_cons habort').symm
      rw [← h.isFinished, hf] at hnot
      cases hnot
  | cons c cs ih =>
    obtain ⟨r₃, hstep, hrest⟩ := follow_cons_eq_some_iff.1 hcs
    have hne : c ≠ .abort := (List.ne_of_not_mem_cons habort).symm
    cases cs' with
    | nil =>
      cases hcs'
      have hnot := not_isFinished_of_step hs hun.idle hstep hne
      rw [h.isFinished, hf'] at hnot
      cases hnot
    | cons c' cs' =>
      obtain ⟨r₄, hstep', hrest'⟩ := follow_cons_eq_some_iff.1 hcs'
      have hne' : c' ≠ .abort := (List.ne_of_not_mem_cons habort').symm
      obtain ⟨k, rfl, rfl⟩ := choice_unique h hs hun.idle hstep hne hstep' hne'
      obtain ⟨r₅, hstep₅, halike⟩ := step_alike h hstep (hun.tail hstep).idle
        fun w hk => hother.getsNone h hstep (hun.tail hstep).idle hstep' hk
      obtain rfl : r₄ = r₅ := Option.some.inj (hstep'.symm.trans hstep₅)
      exact ih halike (by rw [sequential_of_step hstep, hs]) (hun.tail hstep)
        (hother.tail hstep hstep') hrest (List.not_mem_of_not_mem_cons habort) hrest'
        (List.not_mem_of_not_mem_cons habort')

/-! ### No workers at all -/

/-- Without workers nothing is delegated in a step. -/
theorem idle_of_step (hstep : r.step t c = some r₁) (hs : r.shared.Staffed t false)
    (h : r.Idle) : r₁.Idle := by
  cases stepped_of_step hstep with
  | @move k w w' s hm hk hw =>
    have hidle := FileAudit.idle_of_moved hs (h w (List.mem_of_getElem? hk)) hw
    intro v hv
    obtain hv | rfl := List.mem_or_eq_of_mem_set hv
    · exact h v hv
    · exact hidle
  | begin hk hw =>
    rw [FileAudit.not_begin_of_idle (h _ (List.mem_of_getElem? hk))] at hw
    cases hw
  | deliver hk hw =>
    rw [FileAudit.not_deliver_of_idle (h _ (List.mem_of_getElem? hk))] at hw
    cases hw
  | abort ha => exact h

/-- **Where no workers are to be had, none are used.** -/
theorem unassisted_of_staffed (hs : r.shared.Staffed t false) (h : r.Idle)
    (cs : List Choice) : Unassisted t cs r := by
  induction cs generalizing r with
  | nil =>
    intro n r' hr'
    rw [List.take_nil] at hr'
    cases hr'
    exact h
  | cons c cs ih =>
    intro n r' hr'
    cases n with
    | zero =>
      cases hr'
      exact h
    | succ n =>
      rw [List.take_succ_cons] at hr'
      obtain ⟨r₁, hstep, hrest⟩ := follow_cons_eq_some_iff.1 hr'
      exact ih (staffed_of_step hstep hs) (idle_of_step hstep hs h) n r' hrest

end Run

end BimAudit.Session
