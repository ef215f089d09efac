import BimAudit.Proofs.AuditSteps
import BimAudit.Session.Validate

/-!
# Courses of runs

The course of a run is the list of choices that are made in it. Whether a run has been broken off
can be read from its course and from the events that its observer has handled; every course can be
taken to an end, and none goes on for ever.

* `Run.follow`: the state behind a course. `Run.reaches_iff_follow`: the states behind some course
  are those that can be reached.
* `Run.BrokenOff`: somebody has asked to stop. `Run.aborted_iff_brokenOff`: the run knows it.
* `Run.comesToEnd`: **every course comes to an end with all audits finished.**
* `validate_eq_finishRun`: the course that a session takes is one of them.
-/

namespace BimAudit.Session

namespace Run

variable {t : Setting} {r r' r'' : Run} {c : Choice} {cs : List Choice}

/-- The state behind some choices, if all of them can be made. -/
def follow (t : Setting) : List Choice → Run → Option Run
  | [], r => some r
  | c :: cs, r => (r.step t c).bind (follow t cs)

theorem follow_cons_eq_some_iff :
    follow t (c :: cs) r = some r'' ↔ ∃ r', r.step t c = some r' ∧ follow t cs r' = some r'' := by
  rw [follow, Option.bind_eq_some_iff]

/-- **The states behind some course are those that can be reached.** -/
theorem reaches_iff_follow : Reaches t r r' ↔ ∃ cs, follow t cs r = some r' := by
  constructor
  · intro h
    induction h with
    | refl r => exact ⟨[], rfl⟩
    | step c hc _ ih =>
      obtain ⟨cs, hcs⟩ := ih
      exact ⟨c :: cs, follow_cons_eq_some_iff.2 ⟨_, hc, hcs⟩⟩
  · rintro ⟨cs, h⟩
    induction cs generalizing r with
    | nil =>
      cases h
      exact .refl _
    | cons c cs ih =>
      obtain ⟨r₁, hc, hcs⟩ := follow_cons_eq_some_iff.1 h
      exact .step c hc (ih hcs)

/-! ### Asking to stop -/

/-- On a course from the start to `r`, somebody has asked to stop: the observer while it handled one
of the events, or somebody else. -/
def BrokenOff (t : Setting) (cs : List Choice) (r : Run) : Prop :=
  .abort ∈ cs ∨ ∃ n < r.shared.events.length, t.breaksOff n = true

theorem emit_events (t : Setting) (e : Event) (s : Shared) :
    (s.emit t e).events = e :: s.events := by
  unfold Shared.emit Shared.abort
  simp only
  split <;> rfl

theorem emit_aborted (t : Setting) (e : Event) (s : Shared) :
    (s.emit t e).aborted = (s.aborted || t.breaksOff s.events.length) := by
  unfold Shared.emit Shared.abort
  simp only
  cases hb : t.breaksOff s.events.length <;> simp

theorem emit_units (t : Setting) (e : Event) (s : Shared) : (s.emit t e).units = s.units := by
  unfold Shared.emit Shared.abort
  simp only
  split <;> rfl

/-- Asking for the workers makes nothing known. -/
theorem usePool_eq (t : Setting) (s : Shared) :
    (s.usePool t).2.events = s.events ∧ (s.usePool t).2.units = s.units := by
  unfold Shared.usePool
  split
  · exact ⟨rfl, rfl⟩
  · simp only
    split <;> exact ⟨rfl, rfl⟩

/-- Asking for the workers tells nothing and counts nothing. -/
theorem askPool_eq {delegates : Bool} {n : Nat} {s s' : Shared} {b : Bool}
    (h : s.askPool t delegates n = (b, s')) : s'.events = s.events ∧ s'.units = s.units := by
  unfold Shared.askPool at h
  split at h
  · have hpool := usePool_eq t s
    rw [h] at hpool
    exact hpool
  · cases h
    exact ⟨rfl, rfl⟩

/-- An audit either shows one event to the observer, or leaves the events and the sign to stop
alone. -/
theorem emit_or_of_moved {delegates : Bool} {s s' : Shared} {w w' : FileAudit}
    (h : FileAudit.Moved t delegates s w s' w') :
    (∃ e, s' = s.emit t e) ∨ s'.events = s.events ∧ s'.aborted = s.aborted := by
  cases h with
  | tell units hw => exact .inl ⟨_, rfl⟩
  | handOver es d spec rest todo done _ hw hs hd hc hp =>
    exact .inr ⟨(askPool_eq hp).1, aborted_askPool_eq hp⟩
  | checkHere es d spec rest todo done _ hw hs hd hc hp =>
    exact .inr ⟨(askPool_eq hp).1, aborted_askPool_eq hp⟩
  | _ => exact .inr ⟨rfl, rfl⟩

/-- The sign to stop is set by a step if and only if the step asks to stop, or the observer does
while it handles the event of the step. -/
theorem aborted_iff_of_step (h : r.step t c = some r') :
    r.shared.events.length ≤ r'.shared.events.length ∧
      (r'.shared.aborted = true ↔ r.shared.aborted = true ∨ c = .abort ∨
        ∃ n, r.shared.events.length ≤ n ∧ n < r'.shared.events.length ∧
          t.breaksOff n = true) := by
  have hsame : ∀ {s : Shared} {c : Choice}, c ≠ .abort → s.events = r.shared.events →
      s.aborted = r.shared.aborted →
      r.shared.events.length ≤ s.events.length ∧
        (s.aborted = true ↔ r.shared.aborted = true ∨ c = .abort ∨
          ∃ n, r.shared.events.length ≤ n ∧ n < s.events.length ∧ t.breaksOff n = true) := by
    intro s c hc hevents haborted
    rw [hevents, haborted]
    refine ⟨Nat.le_refl _, fun ha => .inl ha, ?_⟩
    rintro (ha | hc' | ⟨n, hle, hlt, -⟩)
    · exact ha
    · exact absurd hc' hc
    · omega
  cases stepped_of_step h with
  | move hm hk hw =>
    rcases emit_or_of_moved hw with ⟨e, he⟩ | ⟨hevents, haborted⟩
    · subst he
      simp only [emit_events, emit_aborted, List.length_cons, Bool.or_eq_true]
      refine ⟨Nat.le_succ _, ?_⟩
      constructor
      · rintro (ha | hb)
        · exact .inl ha
        · exact .inr (.inr ⟨_, Nat.le_refl _, Nat.lt_succ_self _, hb⟩)
      · rintro (ha | hc | ⟨n, hle, hlt, hb⟩)
        · exact .inl ha
        · cases hc
        · have hn : n = r.shared.events.length := by omega
          rw [hn] at hb
          exact .inr hb
    · exact hsame (by simp) hevents haborted
  | begin hk hw => exact hsame (by simp) rfl rfl
  | deliver hk hw => exact hsame (by simp) rfl rfl
  | abort ha => exact ⟨Nat.le_refl _, fun _ => .inr (.inl rfl), fun _ => rfl⟩

/-- **A run is broken off** by a choice, or by an observer who is told of something. The induction
is on the choices. -/
theorem aborted_iff_of_follow (h : follow t cs r = some r') :
    r.shared.events.length ≤ r'.shared.events.length ∧
      (r'.shared.aborted = true ↔ r.shared.aborted = true ∨ .abort ∈ cs ∨
        ∃ n, r.shared.events.length ≤ n ∧ n < r'.shared.events.length ∧
          t.breaksOff n = true) := by
  induction cs generalizing r with
  | nil =>
    cases h
    refine ⟨Nat.le_refl _, fun ha => .inl ha, ?_⟩
    rintro (ha | hmem | ⟨n, hle, hlt, -⟩)
    · exact ha
    · cases hmem
    · omega
  | cons c cs ih =>
    obtain ⟨r₁, hc, hcs⟩ := follow_cons_eq_some_iff.1 h
    obtain ⟨hle, hstep⟩ := aborted_iff_of_step hc
    obtain ⟨hle', hrest⟩ := ih hcs
    refine ⟨Nat.le_trans hle hle', ?_⟩
    rw [hrest, hstep, List.mem_cons]
    constructor
    · rintro ((ha | hc | ⟨n, h₁, h₂, hb⟩) | hmem | ⟨n, h₁, h₂, hb⟩)
      · exact .inl ha
      · exact .inr (.inl (.inl hc.symm))
      · exact .inr (.inr ⟨n, h₁, by omega, hb⟩)
      · exact .inr (.inl (.inr hmem))
      · exact .inr (.inr ⟨n, by omega, h₂, hb⟩)
    · rintro (ha | (hc | hmem) | ⟨n, h₁, h₂, hb⟩)
      · exact .inl (.inl ha)
      · exact .inl (.inr (.inl hc.symm))
      · exact .inr (.inl hmem)
      · -- the event was handled in the first step or behind it
        rcases Nat.lt_or_ge n r₁.shared.events.length with hn | hn
        · exact .inl (.inr (.inr ⟨n, h₁, hn, hb⟩))
        · exact .inr (.inr ⟨n, hn, h₂, hb⟩)

/-! ### Ends -/

/-- No course goes on for ever, and none is stuck before all audits are finished. -/
def ComesToEnd (t : Setting) (r : Run) : Prop :=
  (¬∃ f : Nat → Run, f 0 = r ∧ ∀ n, ∃ c, (f n).step t c = some (f (n + 1))) ∧
    ∀ r', Reaches t r r' → r'.isFinished = false →
      ∃ c, c ≠ .abort ∧ (r'.step t c).isSome = true

/-- **Every course comes to an end with all audits finished.** -/
theorem comesToEnd (t : Setting) (r : Run) : r.ComesToEnd t := by
  refine ⟨?_, ?_⟩
  · rintro ⟨f, -, hf⟩
    exact not_endless f hf
  · intro r' _ hf
    obtain ⟨c, -, hc, hstep⟩ := eager_possible (t := t) hf
    exact ⟨c, hc, hstep⟩

/-- The eager schedule makes a course on which nobody asks to stop. -/
theorem exists_follow_exhaust (r : Run) :
    ∃ cs, follow t cs r = some (r.exhaust t eager) ∧ .abort ∉ cs := by
  fun_induction exhaust t eager r with
  | case1 r r' h ih =>
    obtain ⟨c, he, hc⟩ := Option.bind_eq_some_iff.1 h
    obtain ⟨cs, hcs, habort⟩ := ih
    unfold eager at he
    obtain ⟨x, -, rfl⟩ := Option.map_eq_some_iff.1 he
    refine ⟨eagerChoice x.2 x.1 :: cs, follow_cons_eq_some_iff.2 ⟨r', hc, hcs⟩, ?_⟩
    rw [List.mem_cons, not_or]
    exact ⟨(eagerChoice_ne_abort x.2 x.1).symm, habort⟩
  | case2 r h => exact ⟨[], rfl, List.not_mem_nil⟩

end Run

/-! ### The start of a run -/

/-- At the start one event has been told. -/
theorem events_startRun (s : Session) (t : Setting) :
    (s.startRun t).shared.events = [.started (s.chooseStrategy t.files) t.files.length] := by
  unfold Session.startRun
  simp only
  split
  · rw [(Run.usePool_eq _ _).1, Run.emit_events]
  · rw [Run.emit_events]

theorem aborted_startRun_eq (s : Session) (t : Setting) :
    (s.startRun t).shared.aborted = t.breaksOff 0 := by
  unfold Session.startRun
  simp only
  split
  · rw [Run.aborted_usePool_eq, Run.emit_aborted]
    rfl
  · rw [Run.emit_aborted]
    rfl

/-- **A run has the sign to stop if and only if somebody has asked to stop.** -/
theorem Run.aborted_iff_brokenOff {s : Session} {t : Setting} {cs : List Choice} {r : Run}
    (h : follow t cs (s.startRun t) = some r) :
    r.shared.aborted = true ↔ BrokenOff t cs r := by
  obtain ⟨hle, haborted⟩ := aborted_iff_of_follow h
  rw [events_startRun, List.length_singleton] at hle haborted
  rw [haborted, aborted_startRun_eq]
  unfold BrokenOff
  constructor
  · rintro (hb | hmem | ⟨n, -, hlt, hb⟩)
    · exact .inr ⟨0, hle, hb⟩
    · exact .inl hmem
    · exact .inr ⟨n, hlt, hb⟩
  · rintro (hmem | ⟨n, hlt, hb⟩)
    · exact .inr (.inl hmem)
    · -- the event is the first one or comes behind it
      rcases Nat.eq_zero_or_pos n with rfl | hn
      · exact .inl hb
      · exact .inr (.inr ⟨n, hn, hlt, hb⟩)

/-- **A session takes one of the courses to its end.** It never asks to stop itself. -/
theorem validate_eq_finishRun (s : Session) (workersCome : Bool) (breaksOff : Nat → Bool)
    (files : List ModelSource) (rules : List RuleSource) :
    let t : Setting := ⟨s.config, files, rules, breaksOff, workersCome⟩
    ∃ cs r, (s.startRun t).follow t cs = some r ∧ r.isFinished = true ∧ .abort ∉ cs ∧
      s.validate workersCome breaksOff files rules = s.finishRun t r := by
  intro t
  obtain ⟨cs, hcs, habort⟩ := Run.exists_follow_exhaust (t := t) (s.startRun t)
  exact ⟨cs, _, hcs, Run.exhaust_eager_isFinished _, habort, rfl⟩

end BimAudit.Session
