import BimAudit.Session.FileAudit

/-!
# Runs

A run takes the audits of all models from one atomic step to the next. Whose turn it is is a
`Choice`; every sequence of choices is a possible run. One after the other, an audit may move once
those before it are finished, and may hand specifications to the workers; at the same time, every
audit may move and none hands anything over.

* `Run.step`: the state after a choice. `Run.step_decreases`: no run goes on for ever.
* `Run.Reaches`: a state can come after another one.
* `Run.exhaust`: the end of the run that a schedule makes.
* `Run.report`: the report once the audits are finished.
-/

namespace BimAudit.Session

open Audit (FileResult DocumentResult Report)

/-- The state of a run. -/
structure Run where
  shared : Shared
  /-- The audits take place one after the other and may hand specifications to the workers. -/
  sequential : Bool
  audits : List FileAudit

/-- Whose turn it is. -/
inductive Choice where
  /-- The audit of a model moves. -/
  | move (audit : Nat)
  /-- A worker begins a task of an audit. -/
  | begin (audit task : Nat)
  /-- A worker delivers a task of an audit. -/
  | deliver (audit task : Nat)
  /-- Somebody breaks the session off. -/
  | abort
deriving DecidableEq, Repr

namespace Run

/-- The audit may move. -/
def mayMove (r : Run) (k : Nat) : Bool := !r.sequential || (r.audits.take k).all (·.isFinished)

/-- Replaces an audit. -/
def put (r : Run) (k : Nat) (w : FileAudit) : Run := { r with audits := r.audits.set k w }

/-- The state after a choice; none if the choice cannot be made. -/
def step (t : Setting) (c : Choice) (r : Run) : Option Run :=
  match c with
  | .move k =>
    if r.mayMove k then
      (r.audits[k]?).bind fun w =>
        (w.move t r.sequential r.shared).map fun (shared, w) => { r.put k w with shared }
    else none
  | .begin k task => (r.audits[k]?).bind fun w => (w.begin task r.shared).map (r.put k)
  | .deliver k task => (r.audits[k]?).bind fun w => (w.deliver t task).map (r.put k)
  | .abort => if r.shared.aborted then none else some { r with shared := r.shared.abort }

/-- The second state can come after the first one. -/
inductive Reaches (t : Setting) : Run → Run → Prop where
  | refl (r : Run) : Reaches t r r
  | step {r r' r'' : Run} (c : Choice) : r.step t c = some r' → Reaches t r' r'' → Reaches t r r''

/-- All audits are finished. -/
def isFinished (r : Run) : Bool := r.audits.all (·.isFinished)

/-! ### Every run comes to an end -/

/-- The steps that the audits may still take. -/
def cost (t : Setting) (r : Run) : Nat := total (·.cost t) r.audits

/-- The work left within phases of reading. -/
def readingCost (r : Run) : Nat := total (·.readingCost) r.audits

/-- What every step brings down. -/
def rank (t : Setting) (r : Run) : Nat × Nat × Nat :=
  (if r.shared.aborted then 0 else 1, r.cost t, r.readingCost)

/-- The order of ranks. -/
def rankLt : Nat × Nat × Nat → Nat × Nat × Nat → Prop :=
  Prod.Lex (· < ·) (Prod.Lex (· < ·) (· < ·))

/-- What one audit counts for is exchanged in the sum over all. -/
theorem total_set (f : FileAudit → Nat) {ws : List FileAudit} {k : Nat} {w : FileAudit}
    (h : ws[k]? = some w) (w' : FileAudit) :
    total f (ws.set k w') + f w = total f ws + f w' := by
  induction ws generalizing k with
  | nil => simp at h
  | cons v ws ih =>
    cases k with
    | zero =>
      simp only [List.getElem?_cons_zero, Option.some.injEq] at h
      simp only [List.set_cons_zero, total_cons, h]; omega
    | succ k =>
      simp only [List.getElem?_cons_succ] at h
      have := ih h
      simp only [List.set_cons_succ, total_cons]; omega

/-- The rank falls where the cost falls, or the cost of reading while the other is kept. -/
theorem rank_lt_of_cost {t : Setting} {r r' : Run}
    (ha : r.shared.aborted = true → r'.shared.aborted = true)
    (hc : r'.cost t < r.cost t ∨ (r'.cost t = r.cost t ∧ r'.readingCost < r.readingCost)) :
    rankLt (r'.rank t) (r.rank t) := by
  unfold rankLt rank
  by_cases h : r.shared.aborted = true
  · -- the sign to stop stays, so the cost decides
    simp only [h, ha h, if_true]
    refine Prod.Lex.right _ ?_
    rcases hc with hc | ⟨hc, hb⟩
    · exact Prod.Lex.left _ _ hc
    · rw [hc]; exact Prod.Lex.right _ hb
  · -- the sign may be set by the step itself, which already brings the rank down
    by_cases h' : r'.shared.aborted = true
    · simp only [h, h', if_true]
      exact Prod.Lex.left _ _ (by decide)
    · simp only [h, h']
      refine Prod.Lex.right _ ?_
      rcases hc with hc | ⟨hc, hb⟩
      · exact Prod.Lex.left _ _ hc
      · rw [hc]; exact Prod.Lex.right _ hb

/-- Nothing takes the sign to stop back while an event is shown. -/
theorem aborted_emit {t : Setting} {e : Event} {s : Shared} (h : s.aborted = true) :
    (s.emit t e).aborted = true := by
  unfold Shared.emit
  simp only
  split
  · rfl
  · exact h

theorem aborted_usePool {t : Setting} {s : Shared} (h : s.aborted = true) :
    (s.usePool t).2.aborted = true := by
  unfold Shared.usePool
  rw [if_pos h]
  exact h

theorem aborted_askPool (t : Setting) (delegates : Bool) (n : Nat) {s : Shared}
    (h : s.aborted = true) : (s.askPool t delegates n).2.aborted = true := by
  unfold Shared.askPool
  split
  · exact aborted_usePool h
  · exact h

/-- The sign to stop stays where a specification is taken on. -/
theorem aborted_takeSpecification {t : Setting} {delegates : Bool} {s : Shared} {w : FileAudit}
    {es : List Ifc.Entity} {d : DocumentAudit} {spec : Ids.Specification}
    {rest : List Ids.Specification} {todo : List RuleSource} {done : List FileResult}
    (h : s.aborted = true) :
    (w.takeSpecification t delegates s es d spec rest todo done).1.aborted = true := by
  unfold FileAudit.takeSpecification
  have ha := aborted_askPool t delegates (es.filter (Audit.appliesTo spec)).length h
  generalize hp : s.askPool t delegates (es.filter (Audit.appliesTo spec)).length = p at ha
  obtain ⟨pool, s'⟩ := p
  simp only [hp]
  cases pool <;> exact ha

/-- **No step of an audit takes the sign to stop back.** -/
theorem aborted_move {t : Setting} {delegates : Bool} {s s' : Shared} {w w' : FileAudit}
    (h : w.move t delegates s = some (s', w')) (ha : s.aborted = true) : s'.aborted = true := by
  unfold FileAudit.move at h
  split at h
  · cases h; exact ha
  · cases h; exact aborted_emit ha
  · split at h
    · split at h <;> cases h <;> exact ha
    · split at h <;> cases h <;> exact ha
    · split at h <;> cases h <;> exact ha
    · split at h
      · split at h
        · simp only [Option.some.injEq] at h
          have hs : s' = (s', w').1 := rfl
          rw [hs, ← h]
          exact aborted_takeSpecification ha
        · cases h; exact ha
      · split at h
        · cases h; exact ha
        · split at h
          · cases h; exact ha
          · split at h <;> cases h
            exact ha
    · cases h

/-- **Every step brings the rank down.** -/
theorem step_decreases {t : Setting} {c : Choice} {r r' : Run} (h : r.step t c = some r') :
    rankLt (r'.rank t) (r.rank t) := by
  unfold step at h
  split at h
  · next k =>
    split at h
    · obtain ⟨w, hk, h⟩ := Option.bind_eq_some_iff.1 h
      obtain ⟨⟨s, w'⟩, hm, rfl⟩ := Option.map_eq_some_iff.1 h
      refine rank_lt_of_cost (aborted_move hm) ?_
      -- only the audit `k` changes, so the totals differ by its own costs
      have hc := total_set (·.cost t) hk w'
      have hr := total_set (·.readingCost) hk w'
      have hd := FileAudit.move_decreases hm
      simp only [cost, readingCost, put] at hc hr ⊢
      omega
    · cases h
  · next k task =>
    obtain ⟨w, hk, h⟩ := Option.bind_eq_some_iff.1 h
    obtain ⟨w', hb, rfl⟩ := Option.map_eq_some_iff.1 h
    refine rank_lt_of_cost id (.inl ?_)
    have hc := total_set (·.cost t) hk w'
    have hd := FileAudit.begin_decreases (t := t) hb
    simp only [cost, put] at hc ⊢
    omega
  · next k task =>
    obtain ⟨w, hk, h⟩ := Option.bind_eq_some_iff.1 h
    obtain ⟨w', hb, rfl⟩ := Option.map_eq_some_iff.1 h
    refine rank_lt_of_cost id (.inl ?_)
    have hc := total_set (·.cost t) hk w'
    have hd := FileAudit.deliver_decreases hb
    simp only [cost, put] at hc ⊢
    omega
  · split at h
    · cases h
    · next ha =>
      cases h
      simp only [rankLt, rank, Shared.abort, ha, if_true]
      exact Prod.Lex.left _ _ (by decide)

/-! ### Schedules -/

/-- Takes the steps that a schedule chooses until it chooses none that is possible. -/
def exhaust (t : Setting) (schedule : Run → Option Choice) (r : Run) : Run :=
  match _h : (schedule r).bind fun c => r.step t c with
  | some r' => r'.exhaust t schedule
  | none => r
termination_by r.rank t
decreasing_by
  obtain ⟨c, _, hc⟩ := Option.bind_eq_some_iff.1 _h
  exact step_decreases hc

/-- The choice for one audit: its tasks come first, and then its own step. -/
def eagerChoice (k : Nat) (w : FileAudit) : Choice :=
  match w.stage with
  | .auditing _ d _ _ =>
    if !d.waiting.isEmpty then .begin k 0
    else if !d.running.isEmpty then .deliver k 0
    else .move k
  | _ => .move k

/-- The audits one after the other, where the workers are faster than the audits. -/
def eager (r : Run) : Option Choice :=
  (r.audits.zipIdx.find? fun w => !w.1.isFinished).map fun w => eagerChoice w.2 w.1

/-! ### Reports -/

/-- The results of the models that were read, in the order of the models. -/
def fileResults (r : Run) : List (List FileResult) := r.audits.filterMap FileAudit.results?

/-- The report of a finished run: for every document the results of the models that came to it. -/
def report (t : Setting) (r : Run) : Report where
  documents := t.rules.zipIdx.map fun d => ⟨d.1.name, r.fileResults.filterMap (·[d.2]?)⟩
  aborted := r.shared.aborted

end Run

end BimAudit.Session
