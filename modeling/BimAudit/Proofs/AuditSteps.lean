import BimAudit.Session.Run

/-!
# What a step can do

The steps of an audit and of a run, each with what it needs and what it leaves behind. Whatever
holds along all runs is proved from these relations, case by case.

* `FileAudit.Moved`: the steps of an audit itself. `FileAudit.moved_of_move`: there are no others.
  `FileAudit.move_of_moved`: each of them can be taken.
* `Run.Stepped`: the steps of a run. `Run.stepped_of_step`: there are no others.
* `Run.Reaches.keeps`: what every step keeps holds along all runs.
* `FileAudit.move_isSome`: an audit can only wait for the workers or be finished.
* `Run.eager_possible`: some step is possible until all audits are finished.
-/

namespace BimAudit.Session

open Audit (SpecificationResult FileResult)
open Ids (Specification)

namespace FileAudit

/-- A step of an audit from `w` with the shared state `s`. -/
inductive Moved (t : Setting) (delegates : Bool) (s : Shared) (w : FileAudit) :
    Shared → FileAudit → Prop where
  | publish (hw : w.announcement = .publish) :
    Moved t delegates s w { s with units := s.units.set w.position w.units }
      { w with announcement := .tell (s.units.set w.position w.units) }
  | tell (units : List Nat) (hw : w.announcement = .tell units) :
    Moved t delegates s w (s.emit t (.progress ⟨w.file.name, w.position, units, t.unitsPerFile⟩))
      { w with announcement := .nothing }
  /-- The model is not read. -/
  | skip (hw : w.announcement = .nothing) (hs : w.stage = .ready) (ha : s.aborted = true) :
    Moved t delegates s w s { w with stage := .finished none }
  | start (hw : w.announcement = .nothing) (hs : w.stage = .ready) (ha : s.aborted = false) :
    Moved t delegates s w s { w with
      stage := .reading (Ifc.Reader.ofText t.config.chunkLines w.file.name w.file.content.toList) }
  /-- The model is complete. -/
  | read (r r' : Ifc.Reader) (m : Ifc.Model) (hw : w.announcement = .nothing)
    (hs : w.stage = .reading r) (hr : r.advance = (.done m, r')) :
    Moved t delegates s w s (w.advance (.between m.entities t.rules []))
  | readOn (r r' : Ifc.Reader) (p : Ifc.Progress) (hw : w.announcement = .nothing)
    (hs : w.stage = .reading r) (hr : r.advance = (.pending p, r')) (ha : s.aborted = false) :
    Moved t delegates s w s { w with stage := .reading r' }
  | stopReading (r r' : Ifc.Reader) (p : Ifc.Progress) (hw : w.announcement = .nothing)
    (hs : w.stage = .reading r) (hr : r.advance = (.pending p, r')) (ha : s.aborted = true) :
    Moved t delegates s w s { w with stage := .finished none }
  /-- There is no other document. -/
  | finish (es : List Ifc.Entity) (done : List FileResult) (hw : w.announcement = .nothing)
    (hs : w.stage = .between es [] done) :
    Moved t delegates s w s { w with stage := .finished (some done) }
  | openDocument (es : List Ifc.Entity) (r : RuleSource) (todo : List RuleSource)
    (done : List FileResult) (hw : w.announcement = .nothing)
    (hs : w.stage = .between es (r :: todo) done) (ha : s.aborted = false) :
    Moved t delegates s w s { w with stage := .auditing es (.ofRules r) todo done }
  | stopBetween (es : List Ifc.Entity) (r : RuleSource) (todo : List RuleSource)
    (done : List FileResult) (hw : w.announcement = .nothing)
    (hs : w.stage = .between es (r :: todo) done) (ha : s.aborted = true) :
    Moved t delegates s w s { w with stage := .finished (some done) }
  | look (es : List Ifc.Entity) (d : DocumentAudit) (spec : Specification)
    (rest : List Specification) (todo : List RuleSource) (done : List FileResult)
    (hw : w.announcement = .nothing) (hs : w.stage = .auditing es d todo done)
    (hd : d.todo = spec :: rest) (hc : d.checked = false) (ha : s.aborted = false) :
    Moved t delegates s w s { w with stage := .auditing es { d with checked := true } todo done }
  /-- The other specifications of the document are left out. -/
  | leaveOut (es : List Ifc.Entity) (d : DocumentAudit) (spec : Specification)
    (rest : List Specification) (todo : List RuleSource) (done : List FileResult)
    (hw : w.announcement = .nothing) (hs : w.stage = .auditing es d todo done)
    (hd : d.todo = spec :: rest) (hc : d.checked = false) (ha : s.aborted = true) :
    Moved t delegates s w s { w with stage := .auditing es { d with todo := [] } todo done }
  /-- A specification goes to the workers. -/
  | handOver (es : List Ifc.Entity) (d : DocumentAudit) (spec : Specification)
    (rest : List Specification) (todo : List RuleSource) (done : List FileResult) (s' : Shared)
    (hw : w.announcement = .nothing) (hs : w.stage = .auditing es d todo done)
    (hd : d.todo = spec :: rest) (hc : d.checked = true)
    (hp : s.askPool t delegates (es.filter (Audit.appliesTo spec)).length = (true, s')) :
    Moved t delegates s w s' { w with
      stage := .auditing es
        { d with
          todo := rest
          position := d.position + 1
          checked := false
          waiting := d.waiting ++ [⟨d.position, spec, es.filter (Audit.appliesTo spec)⟩] }
        todo done }
  /-- A specification is dealt with at once. -/
  | checkHere (es : List Ifc.Entity) (d : DocumentAudit) (spec : Specification)
    (rest : List Specification) (todo : List RuleSource) (done : List FileResult) (s' : Shared)
    (hw : w.announcement = .nothing) (hs : w.stage = .auditing es d todo done)
    (hd : d.todo = spec :: rest) (hc : d.checked = true)
    (hp : s.askPool t delegates (es.filter (Audit.appliesTo spec)).length = (false, s')) :
    Moved t delegates s w s' (w.advance (.auditing es
      { d with
        todo := rest
        position := d.position + 1
        checked := false
        results := d.results.set d.position (Audit.validate? t.config.strict es spec) }
      todo done))
  /-- The results that have not been taken are left out. -/
  | stopTaking (es : List Ifc.Entity) (d : DocumentAudit) (todo : List RuleSource)
    (done : List FileResult) (hw : w.announcement = .nothing)
    (hs : w.stage = .auditing es d todo done) (hd : d.todo = []) (hr : d.received = true)
    (ha : s.aborted = true) :
    Moved t delegates s w s (w.closeDocument es d todo done)
  | takeOn (es : List Ifc.Entity) (d : DocumentAudit) (todo : List RuleSource)
    (done : List FileResult) (hw : w.announcement = .nothing)
    (hs : w.stage = .auditing es d todo done) (hd : d.todo = []) (hr : d.received = true)
    (ha : s.aborted = false) :
    Moved t delegates s w s { w with stage := .auditing es { d with received := false } todo done }
  | take (es : List Ifc.Entity) (d : DocumentAudit) (todo : List RuleSource)
    (done : List FileResult) (i : Nat) (result : Option SpecificationResult)
    (queue : List (Nat × Option SpecificationResult)) (hw : w.announcement = .nothing)
    (hs : w.stage = .auditing es d todo done) (hd : d.todo = []) (hr : d.received = false)
    (hq : d.queue = (i, result) :: queue) :
    Moved t delegates s w s (w.advance (.auditing es
      { d with queue, received := true, results := d.results.set i result } todo done))
  | close (es : List Ifc.Entity) (d : DocumentAudit) (todo : List RuleSource)
    (done : List FileResult) (hw : w.announcement = .nothing)
    (hs : w.stage = .auditing es d todo done) (hd : d.todo = []) (hr : d.received = false)
    (hq : d.queue = []) (hwait : d.waiting = []) (hrun : d.running = []) :
    Moved t delegates s w s (w.closeDocument es d todo done)

variable {t : Setting} {delegates : Bool} {s s' : Shared} {w w' : FileAudit}

/-- The next specification is checked at once, delegated or left out. -/
theorem moved_of_takeSpecification {es : List Ifc.Entity} {d : DocumentAudit}
    {spec : Specification} {rest : List Specification} {todo : List RuleSource}
    {done : List FileResult} (hw : w.announcement = .nothing)
    (hs : w.stage = .auditing es d todo done) (hd : d.todo = spec :: rest)
    (hc : d.checked = true)
    (h : w.takeSpecification t delegates s es d spec rest todo done = (s', w')) :
    Moved t delegates s w s' w' := by
  unfold takeSpecification at h
  simp only at h
  cases hp : s.askPool t delegates (es.filter (Audit.appliesTo spec)).length with
  | mk pool shared =>
    rw [hp] at h
    cases pool with
    | true =>
      cases h
      exact .handOver es d spec rest todo done _ hw hs hd hc hp
    | false =>
      cases h
      exact .checkHere es d spec rest todo done _ hw hs hd hc hp

/-- The audit of a document moves in one of the ways above. -/
theorem moved_of_auditing {es : List Ifc.Entity} {d : DocumentAudit} {todo : List RuleSource}
    {done : List FileResult} (hw : w.announcement = .nothing)
    (hs : w.stage = .auditing es d todo done) (h : w.move t delegates s = some (s', w')) :
    Moved t delegates s w s' w' := by
  obtain ⟨file, position, stage, units, announcement⟩ := w
  cases hw
  cases hs
  simp only [move] at h
  split at h
  · next spec rest hd =>
    split at h
    · next hc => exact moved_of_takeSpecification rfl rfl hd hc (Option.some.inj h)
    · next hc =>
      cases h
      cases ha : s.aborted with
      | true => exact .leaveOut es d spec rest todo done rfl rfl hd (by simpa using hc) ha
      | false => exact .look es d spec rest todo done rfl rfl hd (by simpa using hc) ha
  · next hd =>
    split at h
    · next hr =>
      cases h
      cases ha : s.aborted with
      | true => exact .stopTaking es d todo done rfl rfl hd hr ha
      | false => exact .takeOn es d todo done rfl rfl hd hr ha
    · next hr =>
      split at h
      · next i result queue hq =>
        cases h
        exact .take es d todo done i result queue rfl rfl hd (by simpa using hr) hq
      · next hq =>
        split at h
        · next he =>
          cases h
          simp only [Bool.and_eq_true, List.isEmpty_iff] at he
          exact .close es d todo done rfl rfl hd (by simpa using hr) hq he.1 he.2
        · cases h

/-- **An audit moves in one of the ways above.** -/
theorem moved_of_move (h : w.move t delegates s = some (s', w')) :
    Moved t delegates s w s' w' := by
  obtain ⟨file, position, stage, units, announcement⟩ := w
  cases announcement with
  | publish =>
    cases h
    exact .publish rfl
  | tell units =>
    cases h
    exact .tell units rfl
  | nothing =>
    cases stage with
    | ready =>
      simp only [move] at h
      split at h
      · next ha =>
        cases h
        exact .skip rfl rfl ha
      · next ha =>
        cases h
        exact .start rfl rfl (by simpa using ha)
    | reading r =>
      simp only [move] at h
      split at h
      · next m r' hr =>
        cases h
        exact .read r r' m rfl rfl hr
      · next p r' hr =>
        cases h
        cases ha : s.aborted with
        | true => exact .stopReading r r' p rfl rfl hr ha
        | false => exact .readOn r r' p rfl rfl hr ha
    | between es todo done =>
      cases todo with
      | nil =>
        cases h
        exact .finish es done rfl rfl
      | cons r todo =>
        simp only [move] at h
        cases h
        cases ha : s.aborted with
        | true => exact .stopBetween es r todo done rfl rfl ha
        | false => exact .openDocument es r todo done rfl rfl ha
    | auditing es d todo done => exact moved_of_auditing rfl rfl h
    | finished results => cases h

/-- No step changes which model is audited. -/
theorem Moved.file (h : Moved t delegates s w s' w') :
    w'.file = w.file ∧ w'.position = w.position := by
  cases h <;> exact ⟨rfl, rfl⟩

/-- An audit can move in each of the ways above. -/
theorem move_of_moved (h : Moved t delegates s w s' w') :
    w.move t delegates s = some (s', w') := by
  cases h with
  | publish hw | tell units hw => simp only [move, hw]
  | skip hw hs ha | start hw hs ha =>
    simp only [move, hw, hs, ha, Bool.false_eq_true, if_true, if_false]
  | read r r' m hw hs hr => simp only [move, hw, hs, hr]
  | readOn r r' p hw hs hr ha | stopReading r r' p hw hs hr ha =>
    simp only [move, hw, hs, hr, ha, Bool.false_eq_true, if_true, if_false]
  | finish es done hw hs => simp only [move, hw, hs]
  | openDocument es r todo done hw hs ha | stopBetween es r todo done hw hs ha =>
    simp only [move, hw, hs, ha, Bool.false_eq_true, if_true, if_false]
  | look es d spec rest todo done hw hs hd hc ha
  | leaveOut es d spec rest todo done hw hs hd hc ha =>
    simp only [move, hw, hs, hd, hc, ha, Bool.false_eq_true, if_true, if_false]
  | handOver es d spec rest todo done _ hw hs hd hc hp =>
    simp only [move, hw, hs, hd, hc, if_true, takeSpecification, hp]
  | checkHere es d spec rest todo done _ hw hs hd hc hp =>
    simp only [move, hw, hs, hd, hc, if_true, takeSpecification, hp, Bool.false_eq_true, if_false]
    rfl
  | stopTaking es d todo done hw hs hd hr ha | takeOn es d todo done hw hs hd hr ha =>
    simp only [move, hw, hs, hd, hr, ha, Bool.false_eq_true, if_true, if_false]
  | take es d todo done i result queue hw hs hd hr hq =>
    simp only [move, hw, hs, hd, hr, hq, Bool.false_eq_true, if_false]
  | close es d todo done hw hs hd hr hq hwait hrun =>
    simp only [move, hw, hs, hd, hr, hq, hwait, hrun, List.isEmpty_nil, Bool.and_self, if_true,
      Bool.false_eq_true, if_false]

/-- **An audit can move unless it is finished or waits for the workers.** -/
theorem move_isSome (hf : w.isFinished = false)
    (hw : ∀ es d todo done, w.stage = .auditing es d todo done →
      d.waiting = [] ∧ d.running = []) : (w.move t delegates s).isSome = true := by
  cases ha : w.announcement with
  | publish => simp [move, ha]
  | tell units => simp [move, ha]
  | nothing =>
    cases hs : w.stage with
    | ready =>
      simp only [move, ha, hs]
      split <;> rfl
    | reading r =>
      simp only [move, ha, hs]
      split <;> rfl
    | between es todo done =>
      simp only [move, ha, hs]
      cases todo <;> rfl
    | auditing es d todo done =>
      obtain ⟨hwait, hrun⟩ := hw es d todo done hs
      simp only [move, ha, hs]
      split
      · split <;> rfl
      · split
        · rfl
        · split
          · rfl
          · simp [hwait, hrun]
    | finished results => simp [isFinished, ha, hs] at hf

/-! ### Workers -/

/-- A worker begins a task of the document in hand, or drops it after the sign to stop. -/
theorem begin_eq_some {k : Nat} (h : w.begin k s = some w') :
    ∃ es d todo done task, w.stage = .auditing es d todo done ∧ d.waiting[k]? = some task ∧
      w' = { w with
        stage := .auditing es
          { d with
            waiting := d.waiting.eraseIdx k
            running := if s.aborted then d.running else d.running ++ [task] }
          todo done } := by
  unfold FileAudit.begin at h
  split at h
  · next es d todo done hs =>
    obtain ⟨task, hk, rfl⟩ := Option.map_eq_some_iff.1 h
    exact ⟨es, d, todo, done, task, hs, hk, rfl⟩
  · cases h

/-- A worker delivers a task of the document in hand. -/
theorem deliver_eq_some {k : Nat} (h : w.deliver t k = some w') :
    ∃ es d todo done task, w.stage = .auditing es d todo done ∧ d.running[k]? = some task ∧
      w' = { w with
        stage := .auditing es
          { d with
            running := d.running.eraseIdx k
            queue := d.queue ++ [(task.position, task.result t)] }
          todo done } := by
  unfold deliver at h
  split at h
  · next es d todo done hs =>
    obtain ⟨task, hk, rfl⟩ := Option.map_eq_some_iff.1 h
    exact ⟨es, d, todo, done, task, hs, hk, rfl⟩
  · cases h

theorem file_of_begin {k : Nat} (h : w.begin k s = some w') :
    w'.file = w.file ∧ w'.position = w.position := by
  obtain ⟨es, d, todo, done, task, -, -, rfl⟩ := begin_eq_some h
  exact ⟨rfl, rfl⟩

theorem file_of_deliver {k : Nat} (h : w.deliver t k = some w') :
    w'.file = w.file ∧ w'.position = w.position := by
  obtain ⟨es, d, todo, done, task, -, -, rfl⟩ := deliver_eq_some h
  exact ⟨rfl, rfl⟩

end FileAudit

/-! ### Runs -/

namespace Run

/-- A step of a run from `r`. -/
inductive Stepped (t : Setting) (r : Run) : Choice → Run → Prop where
  | move {k : Nat} {w w' : FileAudit} {s : Shared} (hm : r.mayMove k = true)
    (hk : r.audits[k]? = some w) (hw : FileAudit.Moved t r.sequential r.shared w s w') :
    Stepped t r (.move k) { r.put k w' with shared := s }
  | begin {k task : Nat} {w w' : FileAudit} (hk : r.audits[k]? = some w)
    (hw : w.begin task r.shared = some w') : Stepped t r (.begin k task) (r.put k w')
  | deliver {k task : Nat} {w w' : FileAudit} (hk : r.audits[k]? = some w)
    (hw : w.deliver t task = some w') : Stepped t r (.deliver k task) (r.put k w')
  | abort (ha : r.shared.aborted = false) :
    Stepped t r .abort { r with shared := r.shared.abort }

variable {t : Setting} {r r' r'' : Run} {c : Choice}

/-- What every step keeps holds from there on. -/
theorem Reaches.keeps {P : Run → Prop} (h : Reaches t r r') (hr : P r)
    (hstep : ∀ {r r' : Run} {c : Choice}, r.step t c = some r' → P r → P r') : P r' := by
  induction h with
  | refl => exact hr
  | step c hc _ ih => exact ih (hstep hc hr)

theorem Reaches.trans (h : Reaches t r r') (h' : Reaches t r' r'') : Reaches t r r'' := by
  induction h with
  | refl => exact h'
  | step c hc _ ih => exact .step c hc (ih h')

/-- **A run steps in one of the ways above.** -/
theorem stepped_of_step (h : r.step t c = some r') : Stepped t r c r' := by
  unfold step at h
  split at h
  · split at h
    · next hm =>
      obtain ⟨w, hk, h⟩ := Option.bind_eq_some_iff.1 h
      obtain ⟨⟨s, w'⟩, hw, rfl⟩ := Option.map_eq_some_iff.1 h
      exact .move hm hk (FileAudit.moved_of_move hw)
    · cases h
  · obtain ⟨w, hk, h⟩ := Option.bind_eq_some_iff.1 h
    obtain ⟨w', hw, rfl⟩ := Option.map_eq_some_iff.1 h
    exact .begin hk hw
  · obtain ⟨w, hk, h⟩ := Option.bind_eq_some_iff.1 h
    obtain ⟨w', hw, rfl⟩ := Option.map_eq_some_iff.1 h
    exact .deliver hk hw
  · split at h
    · cases h
    · next ha =>
      cases h
      exact .abort (by simpa using ha)

/-- The sign to stop stays. -/
theorem aborted_of_step (h : r.step t c = some r') (ha : r.shared.aborted = true) :
    r'.shared.aborted = true := by
  unfold step at h
  split at h
  · split at h
    · obtain ⟨w, -, h⟩ := Option.bind_eq_some_iff.1 h
      obtain ⟨⟨s, w'⟩, hw, rfl⟩ := Option.map_eq_some_iff.1 h
      exact aborted_move hw ha
    · cases h
  · obtain ⟨w, -, h⟩ := Option.bind_eq_some_iff.1 h
    obtain ⟨w', -, rfl⟩ := Option.map_eq_some_iff.1 h
    exact ha
  · obtain ⟨w, -, h⟩ := Option.bind_eq_some_iff.1 h
    obtain ⟨w', -, rfl⟩ := Option.map_eq_some_iff.1 h
    exact ha
  · rw [if_pos ha] at h
    cases h

/-! ### Some step is possible until all audits are finished -/

/-- The first audit that is not finished, with those before it. -/
theorem eager_eq_some (hf : r.isFinished = false) :
    ∃ k w, r.audits[k]? = some w ∧ w.isFinished = false ∧
      (r.audits.take k).all (·.isFinished) = true ∧ r.eager = some (eagerChoice k w) := by
  unfold eager
  cases hx : r.audits.zipIdx.find? fun w => !w.1.isFinished with
  | none =>
    exfalso
    have hall : r.isFinished = true := by
      unfold isFinished
      rw [List.all_eq_true]
      intro w hw
      obtain ⟨k, hk⟩ := List.mem_iff_getElem?.1 hw
      have hmem : (w, k) ∈ r.audits.zipIdx := List.mk_mem_zipIdx_iff_getElem?.2 hk
      simpa using List.find?_eq_none.1 hx (w, k) hmem
    rw [hall] at hf
    cases hf
  | some x =>
    obtain ⟨w, k⟩ := x
    -- the audits with their numbers, cut where the first unfinished one stands
    obtain ⟨hp, as, bs, hsplit, hbefore⟩ := List.find?_eq_some_iff_append.1 hx
    have hlen : as.length < r.audits.zipIdx.length := by rw [hsplit]; simp
    have hget : r.audits.zipIdx[as.length]? = some (w, k) := by
      rw [hsplit, List.getElem?_append_right (Nat.le_refl _), Nat.sub_self]
      rfl
    rw [List.getElem?_zipIdx] at hget
    obtain ⟨v, hv, hvw⟩ := Option.map_eq_some_iff.1 hget
    simp only [Prod.mk.injEq, Nat.zero_add] at hvw
    obtain ⟨rfl, rfl⟩ := hvw
    refine ⟨as.length, v, hv, by simpa using hp, ?_, rfl⟩
    rw [List.all_eq_true]
    intro u hu
    obtain ⟨i, hi⟩ := List.mem_iff_getElem?.1 hu
    have hilt : i < as.length := by
      have := (List.getElem?_eq_some_iff.1 hi).1
      rw [List.length_take] at this
      omega
    have hui : (u, i) ∈ as := by
      have hz : r.audits.zipIdx[i]? = some (u, i) := by
        rw [List.getElem?_take_of_lt hilt] at hi
        rw [List.getElem?_zipIdx, hi]
        simp
      rw [hsplit, List.getElem?_append_left hilt] at hz
      exact List.mem_of_getElem? hz
    simpa using hbefore (u, i) hui

/-- A task that waits may begin. -/
theorem step_begin_isSome {k : Nat} {w : FileAudit} (hk : r.audits[k]? = some w)
    {es : List Ifc.Entity} {d : DocumentAudit} {todo : List RuleSource}
    {done : List Audit.FileResult} (hs : w.stage = .auditing es d todo done)
    (hd : d.waiting ≠ []) : (r.step t (.begin k 0)).isSome = true := by
  cases hwait : d.waiting with
  | nil => exact absurd hwait hd
  | cons task rest => simp [step, hk, FileAudit.begin, hs, hwait]

/-- A task that is under way may be delivered. -/
theorem step_deliver_isSome {k : Nat} {w : FileAudit} (hk : r.audits[k]? = some w)
    {es : List Ifc.Entity} {d : DocumentAudit} {todo : List RuleSource}
    {done : List Audit.FileResult} (hs : w.stage = .auditing es d todo done)
    (hd : d.running ≠ []) : (r.step t (.deliver k 0)).isSome = true := by
  cases hrun : d.running with
  | nil => exact absurd hrun hd
  | cons task rest => simp [step, hk, FileAudit.deliver, hs, hrun]

/-- An audit may move if those in front are finished and it waits for no worker. -/
theorem step_move_isSome {k : Nat} {w : FileAudit} (hk : r.audits[k]? = some w)
    (hf : w.isFinished = false) (hbefore : (r.audits.take k).all (·.isFinished) = true)
    (hw : ∀ es d todo done, w.stage = .auditing es d todo done →
      d.waiting = [] ∧ d.running = []) : (r.step t (.move k)).isSome = true := by
  have hm : r.mayMove k = true := by
    unfold mayMove
    rw [hbefore, Bool.or_true]
  have hmove : (w.move t r.sequential r.shared).isSome = true := FileAudit.move_isSome hf hw
  obtain ⟨p, hp⟩ := Option.isSome_iff_exists.1 hmove
  simp [step, hm, hk, hp]

/-- The eager schedule never breaks the session off. -/
theorem eagerChoice_ne_abort (k : Nat) (w : FileAudit) : eagerChoice k w ≠ .abort := by
  unfold eagerChoice
  split
  · split
    · simp
    · split <;> simp
  · simp

/-- **Until all audits are finished, the eager schedule makes a possible choice.** -/
theorem eager_possible (hf : r.isFinished = false) :
    ∃ c, r.eager = some c ∧ c ≠ .abort ∧ (r.step t c).isSome = true := by
  obtain ⟨k, w, hk, hw, hbefore, he⟩ := eager_eq_some hf
  refine ⟨_, he, eagerChoice_ne_abort k w, ?_⟩
  cases hs : w.stage with
  | auditing es d todo done =>
    simp only [eagerChoice, hs]
    -- a task that waits is begun, one that runs is delivered, else the audit itself moves
    by_cases hwait : d.waiting = []
    · by_cases hrun : d.running = []
      · have hidle : ∀ es' d' todo' done', w.stage = .auditing es' d' todo' done' →
            d'.waiting = [] ∧ d'.running = [] := by
          intro es' d' todo' done' hs'
          rw [hs] at hs'
          cases hs'
          exact ⟨hwait, hrun⟩
        simp only [hwait, hrun, List.isEmpty_nil, Bool.not_true, Bool.false_eq_true, if_false]
        exact step_move_isSome hk hw hbefore hidle
      · simp only [hwait, List.isEmpty_nil, Bool.not_true, Bool.false_eq_true, if_false,
          List.isEmpty_eq_false_iff.2 hrun, Bool.not_false, if_true]
        exact step_deliver_isSome hk hs hrun
    · simp only [List.isEmpty_eq_false_iff.2 hwait, Bool.not_false, if_true]
      exact step_begin_isSome hk hs hwait
  | _ =>
    simp only [eagerChoice, hs]
    refine step_move_isSome hk hw hbefore ?_
    intro es' d' todo' done' hs'
    rw [hs] at hs'
    cases hs'

/-- A schedule leads along the steps. -/
theorem exhaust_reaches (schedule : Run → Option Choice) (r : Run) :
    Reaches t r (r.exhaust t schedule) := by
  fun_induction exhaust t schedule r with
  | case1 r r' h ih =>
    obtain ⟨c, -, hc⟩ := Option.bind_eq_some_iff.1 h
    exact .step c hc ih
  | case2 r h => exact .refl r

/-- The eager schedule ends with all audits finished. -/
theorem exhaust_eager_isFinished (r : Run) : (r.exhaust t eager).isFinished = true := by
  fun_induction exhaust t eager r with
  | case1 r r' h ih => exact ih
  | case2 r h =>
    cases hf : r.isFinished with
    | true => rfl
    | false =>
      obtain ⟨c, he, -, hc⟩ := eager_possible (t := t) hf
      rw [he, Option.bind_some] at h
      rw [h] at hc
      cases hc

/-! ### Runs that nobody breaks off -/

theorem aborted_usePool_eq (s : Shared) : (s.usePool t).2.aborted = s.aborted := by
  unfold Shared.usePool
  split
  · rfl
  · simp only
    split <;> rfl

theorem aborted_askPool_eq {delegates : Bool} {n : Nat} {s s' : Shared} {b : Bool}
    (h : s.askPool t delegates n = (b, s')) : s'.aborted = s.aborted := by
  unfold Shared.askPool at h
  split at h
  · rw [← aborted_usePool_eq (t := t) s, h]
  · cases h
    rfl

/-- An audit sets the sign to stop only when it tells the observer something. -/
theorem aborted_of_moved {delegates : Bool} {s s' : Shared} {w w' : FileAudit}
    (h : FileAudit.Moved t delegates s w s' w') (hb : ∀ n, t.breaksOff n = false) :
    s'.aborted = s.aborted := by
  cases h with
  | tell units hw =>
    unfold Shared.emit
    simp only
    rw [if_neg (by simp [hb])]
  | handOver es d spec rest todo done _ hw hs hd hc hp => exact aborted_askPool_eq hp
  | checkHere es d spec rest todo done _ hw hs hd hc hp => exact aborted_askPool_eq hp
  | _ => rfl

theorem aborted_of_step_ne_abort (h : r.step t c = some r') (hc : c ≠ .abort)
    (hb : ∀ n, t.breaksOff n = false) : r'.shared.aborted = r.shared.aborted := by
  cases stepped_of_step h with
  | move hm hk hw => exact aborted_of_moved hw hb
  | begin hk hw => rfl
  | deliver hk hw => rfl
  | abort ha => exact absurd rfl hc

theorem aborted_exhaust_eager (r : Run) (hb : ∀ n, t.breaksOff n = false) :
    (r.exhaust t eager).shared.aborted = r.shared.aborted := by
  fun_induction exhaust t eager r with
  | case1 r r' h ih =>
    obtain ⟨c, he, hc⟩ := Option.bind_eq_some_iff.1 h
    unfold eager at he
    obtain ⟨x, -, rfl⟩ := Option.map_eq_some_iff.1 he
    rw [ih, aborted_of_step_ne_abort hc (eagerChoice_ne_abort x.2 x.1) hb]
  | case2 r h => rfl

/-- **No run goes on for ever.** -/
theorem not_endless (f : Nat → Run) : ¬∀ n, ∃ c, (f n).step t c = some (f (n + 1)) := by
  intro h
  have hwf : WellFounded rankLt :=
    (Prod.lex ⟨_, Nat.lt_wfRel.wf⟩ (Prod.lex ⟨_, Nat.lt_wfRel.wf⟩ ⟨_, Nat.lt_wfRel.wf⟩)).wf
  -- else the ranks of the states would go down for ever
  have key : ∀ x n, (f n).rank t = x → False := by
    intro x
    induction x using hwf.induction with
    | h x ih =>
      intro n hn
      obtain ⟨c, hc⟩ := h n
      exact ih _ (hn ▸ step_decreases hc) (n + 1) rfl
  exact key _ 0 rfl

end Run

end BimAudit.Session
