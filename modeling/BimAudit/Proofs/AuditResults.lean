import BimAudit.Proofs.AuditSteps
import BimAudit.Proofs.ChunkedReading
import BimAudit.Session.Validate

/-!
# What an audit has found

The result of a model against a document can be said directly: the model is read in one piece, and
the specifications are checked one after the other (`directResult`). An audit that is handed to
workers, held up and broken off never finds anything else, and unless it is broken off it finds all
of it.

* `DocumentAudit.Sound`, `FileAudit.Sound`: what holds of an audit at any time.
* `FileAudit.sound_of_moved`, `FileAudit.sound_of_begin`, `FileAudit.sound_of_deliver`: no step
  changes that.
* `FileAudit.Sound.results`: what this says of a finished audit.
-/

namespace BimAudit.Session

open Audit (SpecificationResult FileResult)
open Ids (Specification)

/-- The entities of a model. -/
def ModelSource.entities (m : ModelSource) : List Ifc.Entity :=
  (Ifc.read Ifc.Reader.defaultChunkSize m.name m.content.toList).entities

/-- The result of a model against a document, one specification after the other. -/
def directResult (strict : Bool) (m : ModelSource) (r : RuleSource) : FileResult :=
  ⟨m.name, m.entities.length,
    r.document.specifications.filterMap (Audit.validate? strict m.entities)⟩

/-- A result that lacks nothing but results of some specifications. -/
structure IsPart (a b : FileResult) : Prop where
  fileName : a.fileName = b.fileName
  entityCount : a.entityCount = b.entityCount
  specifications : a.specifications.Sublist b.specifications

variable {t : Setting} {aborted : Bool} {es : List Ifc.Entity} {specs : List Specification}
  {d : DocumentAudit}

/-! ### One document -/

/-- The result of the specification at a position, if it applies to any entity. -/
def resultAt (t : Setting) (es : List Ifc.Entity) (specs : List Specification) (i : Nat) :
    Option SpecificationResult :=
  specs[i]?.bind (Audit.validate? t.config.strict es)

/-- The positions whose results the workers have or have had. -/
def DocumentAudit.outstanding (d : DocumentAudit) : List Nat :=
  (d.waiting ++ d.running).map (·.position) ++ d.queue.map (·.1)

/-- What holds of the audit against a document with some specifications. -/
structure DocumentAudit.Sound (t : Setting) (aborted : Bool) (es : List Ifc.Entity)
    (specs : List Specification) (d : DocumentAudit) : Prop where
  todo : d.todo = specs.drop d.position ∨ aborted = true ∧ d.todo = []
  position : d.position ≤ specs.length
  length : d.results.length = specs.length
  /-- No result is wrong. -/
  results : ∀ i x, d.results[i]? = some (some x) → resultAt t es specs i = some x
  tasks : ∀ k ∈ d.waiting ++ d.running, k.result t = resultAt t es specs k.position
  queue : ∀ q ∈ d.queue, q.2 = resultAt t es specs q.1
  /-- No result gets lost. -/
  complete : aborted = false → ∀ i < d.position,
    i ∈ d.outstanding ∨ d.results[i]? = some (resultAt t es specs i)

namespace DocumentAudit

theorem Sound.mono {aborted' : Bool} (h : d.Sound t aborted es specs)
    (ha : aborted = true → aborted' = true) : d.Sound t aborted' es specs := by
  refine ⟨?_, h.position, h.length, h.results, h.tasks, h.queue, ?_⟩
  · rcases h.todo with htodo | ⟨ha', htodo⟩
    · exact .inl htodo
    · exact .inr ⟨ha ha', htodo⟩
  · intro hf
    apply h.complete
    cases haborted : aborted with
    | false => rfl
    | true => rw [ha haborted] at hf; cases hf

theorem sound_ofRules (r : RuleSource) :
    (ofRules r).Sound t aborted es r.document.specifications := by
  refine ⟨.inl rfl, Nat.zero_le _, List.length_replicate, ?_, ?_, ?_, ?_⟩
  · intro i x hx
    obtain ⟨hi, hx⟩ := List.getElem?_eq_some_iff.1 hx
    simp [ofRules] at hx
  · intro k hk
    cases hk
  · intro q hq
    cases hq
  · intro _ i hi
    cases hi

/-- The specification that comes next stands at the current position. -/
theorem Sound.next {spec : Specification} {rest : List Specification}
    (h : d.Sound t aborted es specs) (hd : d.todo = spec :: rest) :
    specs[d.position]? = some spec ∧ rest = specs.drop (d.position + 1) := by
  have hdrop : specs.drop d.position = spec :: rest := by
    rcases h.todo with htodo | ⟨-, htodo⟩
    · rw [← htodo, hd]
    · rw [hd] at htodo; cases htodo
  have hget : (specs.drop d.position)[0]? = some spec := by rw [hdrop]; rfl
  rw [List.getElem?_drop, Nat.add_zero] at hget
  refine ⟨hget, ?_⟩
  rw [← List.tail_drop, hdrop]
  rfl

/-- The result at a position is that of the specification there. -/
theorem resultAt_of_getElem? {spec : Specification} {i : Nat} (h : specs[i]? = some spec) :
    resultAt t es specs i = Audit.validate? t.config.strict es spec := by
  unfold resultAt
  rw [h]
  rfl

/-- A right result may be put in its place. -/
theorem Sound.set {i : Nat} {x : Option SpecificationResult} (h : d.Sound t aborted es specs)
    (hx : x = resultAt t es specs i) (j : Nat) (y : SpecificationResult)
    (hy : (d.results.set i x)[j]? = some (some y)) : resultAt t es specs j = some y := by
  by_cases hij : i = j
  · subst hij
    rw [List.getElem?_set, if_pos rfl] at hy
    split at hy
    · rw [← hx]; exact Option.some.inj hy
    · cases hy
  · rw [List.getElem?_set_ne hij] at hy
    exact h.results j y hy

theorem Sound.getElem?_set_self {i : Nat} {x : Option SpecificationResult}
    (h : d.Sound t aborted es specs) (hx : x = resultAt t es specs i) (hi : i < specs.length) :
    (d.results.set i x)[i]? = some (resultAt t es specs i) := by
  rw [List.getElem?_set, if_pos rfl, if_pos (by rw [h.length]; exact hi), hx]

theorem Sound.look (h : d.Sound t aborted es specs) :
    ({ d with checked := true } : DocumentAudit).Sound t aborted es specs :=
  ⟨h.todo, h.position, h.length, h.results, h.tasks, h.queue, h.complete⟩

/-- After the sign to stop specifications may be left out. -/
theorem Sound.leaveOut (h : d.Sound t aborted es specs) (ha : aborted = true) :
    ({ d with todo := [] } : DocumentAudit).Sound t aborted es specs :=
  ⟨.inr ⟨ha, rfl⟩, h.position, h.length, h.results, h.tasks, h.queue, h.complete⟩

/-- The step to the results of the workers changes no result. -/
theorem Sound.takeOn (h : d.Sound t aborted es specs) :
    ({ d with received := false } : DocumentAudit).Sound t aborted es specs :=
  ⟨h.todo, h.position, h.length, h.results, h.tasks, h.queue, h.complete⟩

/-- A task is made of the next specification and the entities that it applies to. -/
theorem Sound.handOver {spec : Specification} {rest : List Specification}
    (h : d.Sound t aborted es specs) (hd : d.todo = spec :: rest) :
    ({ d with
      todo := rest
      position := d.position + 1
      checked := false
      waiting := d.waiting ++ [⟨d.position, spec, es.filter (Audit.appliesTo spec)⟩] } :
      DocumentAudit).Sound t aborted es specs := by
  obtain ⟨hspec, hrest⟩ := h.next hd
  refine ⟨.inl hrest, (List.getElem?_eq_some_iff.1 hspec).1, h.length, h.results, ?_, h.queue, ?_⟩
  · -- the new task gives the result of this specification
    intro k hk
    simp only [List.mem_append, List.mem_singleton] at hk
    rcases hk with (hk | rfl) | hk
    · exact h.tasks k (List.mem_append_left _ hk)
    · rw [resultAt_of_getElem? hspec]
      rfl
    · exact h.tasks k (List.mem_append_right _ hk)
  · intro ha i hi
    simp only [outstanding, List.map_append, List.mem_append, List.map_cons, List.map_nil,
      List.mem_singleton]
    -- the position that is passed now is the one of the new task
    rcases Nat.lt_or_eq_of_le (Nat.le_of_lt_succ hi) with hi | rfl
    · have := h.complete ha i hi
      simp only [outstanding, List.map_append, List.mem_append] at this
      grind
    · exact .inl (.inl (.inl (.inr rfl)))

theorem Sound.checkHere {spec : Specification} {rest : List Specification}
    (h : d.Sound t aborted es specs) (hd : d.todo = spec :: rest) :
    ({ d with
      todo := rest
      position := d.position + 1
      checked := false
      results := d.results.set d.position (Audit.validate? t.config.strict es spec) } :
      DocumentAudit).Sound t aborted es specs := by
  obtain ⟨hspec, hrest⟩ := h.next hd
  have hlt := (List.getElem?_eq_some_iff.1 hspec).1
  have hresult : Audit.validate? t.config.strict es spec = resultAt t es specs d.position :=
    (resultAt_of_getElem? hspec).symm
  refine ⟨.inl hrest, hlt, by rw [List.length_set, h.length], h.set hresult, h.tasks, h.queue, ?_⟩
  intro ha i hi
  rcases Nat.lt_or_eq_of_le (Nat.le_of_lt_succ hi) with hi | rfl
  · rcases h.complete ha i hi with hout | hres
    · exact .inl hout
    · exact .inr (by rw [List.getElem?_set_ne (Nat.ne_of_gt hi), hres])
  · exact .inr (h.getElem?_set_self hresult hlt)

/-- The result that is taken is that of the specification at its position. -/
theorem Sound.take {i : Nat} {x : Option SpecificationResult}
    {queue : List (Nat × Option SpecificationResult)} (h : d.Sound t aborted es specs)
    (hq : d.queue = (i, x) :: queue) :
    ({ d with queue, received := true, results := d.results.set i x } : DocumentAudit).Sound
      t aborted es specs := by
  have hx : x = resultAt t es specs i := h.queue (i, x) (by rw [hq]; exact List.mem_cons_self)
  refine ⟨h.todo, h.position, by rw [List.length_set, h.length], h.set hx, h.tasks, ?_, ?_⟩
  · intro q hmem
    exact h.queue q (by rw [hq]; exact List.mem_cons_of_mem _ hmem)
  · intro ha j hj
    -- the result that is taken leaves the queue and is in its place
    by_cases hij : i = j
    · subst hij
      exact .inr (h.getElem?_set_self hx (Nat.lt_of_lt_of_le hj h.position))
    · rw [List.getElem?_set_ne hij]
      rcases h.complete ha j hj with hout | hres
      · left
        unfold outstanding at hout ⊢
        rw [hq, List.map_cons, List.mem_append, List.mem_cons] at hout
        rw [List.mem_append]
        rcases hout with hout | hout | hout
        · exact .inl hout
        · exact absurd hout.symm hij
        · exact .inr hout
      · exact .inr hres

theorem mem_eraseIdx_or_eq {α : Type} {l : List α} {k : Nat} {a b : α} (hk : l[k]? = some a)
    (hb : b ∈ l) : b ∈ l.eraseIdx k ∨ b = a := by
  obtain ⟨i, hi⟩ := List.mem_iff_getElem?.1 hb
  by_cases hik : i = k
  · subst hik
    rw [hk] at hi
    exact .inr (Option.some.inj hi).symm
  · exact .inl (List.mem_eraseIdx_iff_getElem?.2 ⟨i, hik, hi⟩)

/-- A task that is begun stays the same. -/
theorem Sound.begin {k : Nat} {task : Task} (h : d.Sound t aborted es specs)
    (hk : d.waiting[k]? = some task) :
    ({ d with
      waiting := d.waiting.eraseIdx k
      running := if aborted then d.running else d.running ++ [task] } : DocumentAudit).Sound
      t aborted es specs := by
  have htask : task ∈ d.waiting := List.mem_of_getElem? hk
  refine ⟨h.todo, h.position, h.length, h.results, ?_, h.queue, ?_⟩
  · intro x hx
    have hmem : x ∈ d.waiting ++ d.running := by
      rw [List.mem_append] at hx ⊢
      rcases hx with hx | hx
      · exact .inl (List.mem_of_mem_eraseIdx hx)
      · split at hx
        · exact .inr hx
        · rcases List.mem_append.1 hx with hx | hx
          · exact .inr hx
          · rw [List.mem_singleton.1 hx]; exact .inl htask
    exact h.tasks x hmem
  · intro ha i hi
    rcases h.complete ha i hi with hout | hres
    · left
      -- the task moves from one list to the other
      rw [ha]
      unfold outstanding at hout ⊢
      rw [List.mem_append] at hout ⊢
      rcases hout with hout | hout
      · left
        obtain ⟨x, hx, rfl⟩ := List.mem_map.1 hout
        refine List.mem_map_of_mem ?_
        simp only [Bool.false_eq_true, if_false, List.mem_append, List.mem_singleton]
        rcases List.mem_append.1 hx with hx | hx
        · rcases mem_eraseIdx_or_eq hk hx with hx | rfl
          · exact .inl hx
          · exact .inr (.inr rfl)
        · exact .inr (.inl hx)
      · exact .inr hout
    · exact .inr hres

/-- The result that is delivered is that of the task. -/
theorem Sound.deliver {k : Nat} {task : Task} (h : d.Sound t aborted es specs)
    (hk : d.running[k]? = some task) :
    ({ d with
      running := d.running.eraseIdx k
      queue := d.queue ++ [(task.position, task.result t)] } : DocumentAudit).Sound
      t aborted es specs := by
  have htask := h.tasks task (List.mem_append_right _ (List.mem_of_getElem? hk))
  refine ⟨h.todo, h.position, h.length, h.results, ?_, ?_, ?_⟩
  · intro x hx
    rcases List.mem_append.1 hx with hx | hx
    · exact h.tasks x (List.mem_append_left _ hx)
    · exact h.tasks x (List.mem_append_right _ (List.mem_of_mem_eraseIdx hx))
  · intro q hq
    rcases List.mem_append.1 hq with hq | hq
    · exact h.queue q hq
    · rw [List.mem_singleton.1 hq]; exact htask
  · intro ha i hi
    rcases h.complete ha i hi with hout | hres
    · left
      -- the task leaves the workers, and its result joins the queue
      unfold outstanding at hout ⊢
      simp only [List.mem_append, List.map_append, List.map_cons, List.map_nil,
        List.mem_singleton] at hout ⊢
      rcases hout with (hout | hout) | hout
      · exact .inl (.inl hout)
      · obtain ⟨x, hx, rfl⟩ := List.mem_map.1 hout
        rcases mem_eraseIdx_or_eq hk hx with hx | rfl
        · exact .inl (.inr (List.mem_map_of_mem hx))
        · exact .inr (.inr rfl)
      · exact .inr (.inl hout)
    · exact .inr hres

/-- Lists agree if their items do, as far as there are any. -/
theorem filterMap_sublist {α β : Type} {f : α → Option β} {l : List (Option β)} {as : List α}
    (hlen : l.length = as.length)
    (h : ∀ (i : Nat) (x : β), l[i]? = some (some x) → as[i]?.bind f = some x) :
    (l.filterMap id).Sublist (as.filterMap f) := by
  induction l generalizing as with
  | nil => exact List.nil_sublist _
  | cons o l ih =>
    cases as with
    | nil => cases hlen
    | cons a as =>
      have htail := ih (Nat.succ.inj hlen) fun i x hx => h (i + 1) x hx
      cases o with
      | none =>
        rw [List.filterMap_cons_none rfl, List.filterMap_cons]
        split
        · exact htail
        · exact htail.cons _
      | some x =>
        have ha : f a = some x := h 0 x rfl
        show (x :: l.filterMap id).Sublist _
        rw [List.filterMap_cons_some ha]
        exact htail.cons_cons _

/-- What is found of a document is part of what there is to be found. -/
theorem Sound.sublist (h : d.Sound t aborted es specs) :
    (d.results.filterMap id).Sublist (specs.filterMap (Audit.validate? t.config.strict es)) :=
  filterMap_sublist h.length h.results

/-- Once no result is under way, all of it is found. -/
theorem Sound.filterMap_eq (h : d.Sound t aborted es specs) (ha : aborted = false)
    (hd : d.todo = []) (hq : d.queue = []) (hwait : d.waiting = []) (hrun : d.running = []) :
    d.results.filterMap id = specs.filterMap (Audit.validate? t.config.strict es) := by
  -- nothing is left to do, so the position is behind the last specification
  have hpos : specs.length ≤ d.position := by
    rcases h.todo with htodo | ⟨ha', -⟩
    · rw [hd] at htodo
      exact List.drop_eq_nil_iff.1 htodo.symm
    · rw [ha] at ha'; cases ha'
  have hresults : d.results = specs.map (Audit.validate? t.config.strict es) := by
    apply List.ext_getElem?
    intro i
    rcases Nat.lt_or_ge i specs.length with hi | hi
    · rcases h.complete ha i (Nat.lt_of_lt_of_le hi hpos) with hout | hres
      · simp [outstanding, hq, hwait, hrun] at hout
      · rw [hres, List.getElem?_map, resultAt_of_getElem? (List.getElem?_eq_getElem hi),
          List.getElem?_eq_getElem hi]
        rfl
    · rw [List.getElem?_eq_none (by rw [h.length]; exact hi),
        List.getElem?_eq_none (by rw [List.length_map]; exact hi)]
  rw [hresults, List.filterMap_map]
  rfl

end DocumentAudit

/-! ### One model -/

/-- Some results are those of the given documents, in order. After the sign to stop the last one may
lack some specifications. -/
def AreResults (t : Setting) (aborted : Bool) (m : ModelSource) (rs : List RuleSource)
    (done : List FileResult) : Prop :=
  done = rs.map (directResult t.config.strict m) ∨
    aborted = true ∧ ∃ init last a, rs = init ++ [last] ∧
      done = init.map (directResult t.config.strict m) ++ [a] ∧
      IsPart a (directResult t.config.strict m last)

namespace FileAudit

/-- What holds of the audit of a model. -/
def Sound (t : Setting) (aborted : Bool) (w : FileAudit) : Prop :=
  match w.stage with
  | .ready => True
  | .reading r => r.outcome.entities = w.file.entities
  | .between es todo done =>
    es = w.file.entities ∧ ∃ rs, t.rules = rs ++ todo ∧ AreResults t aborted w.file rs done
  | .auditing es d todo done =>
    es = w.file.entities ∧ ∃ rs r, t.rules = rs ++ r :: todo ∧
      done = rs.map (directResult t.config.strict w.file) ∧
      d.Sound t aborted es r.document.specifications
  | .finished none => aborted = true
  | .finished (some done) =>
    ∃ rs todo, t.rules = rs ++ todo ∧ AreResults t aborted w.file rs done ∧
      (aborted = false → todo = [])

variable {s s' : Shared} {w w' : FileAudit}

theorem areResults_mono {aborted' : Bool} {m : ModelSource} {rs : List RuleSource}
    {done : List FileResult} (h : AreResults t aborted m rs done)
    (ha : aborted = true → aborted' = true) : AreResults t aborted' m rs done := by
  rcases h with h | ⟨h, hrest⟩
  · exact .inl h
  · exact .inr ⟨ha h, hrest⟩

theorem Sound.mono {aborted' : Bool} (h : w.Sound t aborted)
    (ha : aborted = true → aborted' = true) : w.Sound t aborted' := by
  obtain ⟨file, position, stage, units, announcement⟩ := w
  cases stage with
  | ready => trivial
  | reading r => exact h
  | between es todo done =>
    obtain ⟨hes, rs, hrs, hdone⟩ := h
    exact ⟨hes, rs, hrs, areResults_mono hdone ha⟩
  | auditing es d todo done =>
    obtain ⟨hes, rs, r, hrs, hdone, hd⟩ := h
    exact ⟨hes, rs, r, hrs, hdone, hd.mono ha⟩
  | finished results =>
    cases results with
    | none => exact ha h
    | some done =>
      obtain ⟨rs, todo, hrs, hdone, htodo⟩ := h
      refine ⟨rs, todo, hrs, areResults_mono hdone ha, fun hf => htodo ?_⟩
      cases haborted : aborted with
      | false => rfl
      | true => rw [ha haborted] at hf; cases hf

theorem Sound.of_between {todo : List RuleSource} {done : List FileResult}
    (h : w.Sound t aborted) (hs : w.stage = .between es todo done) :
    es = w.file.entities ∧ ∃ rs, t.rules = rs ++ todo ∧ AreResults t aborted w.file rs done := by
  unfold Sound at h
  rwa [hs] at h

theorem Sound.of_auditing {todo : List RuleSource} {done : List FileResult}
    (h : w.Sound t aborted) (hs : w.stage = .auditing es d todo done) :
    es = w.file.entities ∧ ∃ rs r, t.rules = rs ++ r :: todo ∧
      done = rs.map (directResult t.config.strict w.file) ∧
      d.Sound t aborted es r.document.specifications := by
  unfold Sound at h
  rwa [hs] at h

/-- A step within a document needs to be sound for this document only. -/
theorem Sound.auditing {d' : DocumentAudit} {todo : List RuleSource} {done : List FileResult}
    (h : w.Sound t aborted) (hs : w.stage = .auditing es d todo done)
    (hs' : w'.stage = .auditing es d' todo done) (hfile : w'.file = w.file)
    (hd : ∀ specs, d.Sound t aborted es specs → d'.Sound t aborted es specs) :
    w'.Sound t aborted := by
  obtain ⟨hes, rs, r, hrs, hdone, hsound⟩ := h.of_auditing hs
  unfold Sound
  rw [hs', hfile]
  exact ⟨hes, rs, r, hrs, hdone, hd _ hsound⟩

/-- Before the sign to stop the results are complete. -/
theorem areResults_of_not_aborted {m : ModelSource} {rs : List RuleSource}
    {done : List FileResult} (h : AreResults t false m rs done) :
    done = rs.map (directResult t.config.strict m) := by
  rcases h with h | ⟨h, -⟩
  · exact h
  · cases h

theorem isPart_closeDocument {r : RuleSource} {m : ModelSource} (hes : es = m.entities)
    (hd : d.Sound t aborted es r.document.specifications) :
    IsPart ⟨m.name, es.length, d.results.filterMap id⟩ (directResult t.config.strict m r) := by
  subst hes
  exact ⟨rfl, rfl, hd.sublist⟩

/-- The audit of a document that is broken off leaves a part of the result. -/
theorem sound_closeDocument_of_aborted {todo : List RuleSource} {done : List FileResult}
    (hs : w.stage = .auditing es d todo done) (h : w.Sound t true) :
    (w.closeDocument es d todo done).Sound t true := by
  obtain ⟨hes, rs, r, hrs, rfl, hd⟩ := h.of_auditing hs
  refine ⟨hes, rs ++ [r], by rw [hrs, List.append_assoc]; rfl, .inr ⟨rfl, ?_⟩⟩
  exact ⟨rs, r, _, rfl, rfl, isPart_closeDocument hes hd⟩

/-- Once no result is under way, the document is through. -/
theorem sound_closeDocument {todo : List RuleSource} {done : List FileResult}
    (hs : w.stage = .auditing es d todo done) (hd : d.todo = []) (hq : d.queue = [])
    (hwait : d.waiting = []) (hrun : d.running = []) (h : w.Sound t aborted) :
    (w.closeDocument es d todo done).Sound t aborted := by
  cases ha : aborted with
  | true =>
    subst ha
    exact sound_closeDocument_of_aborted hs h
  | false =>
    obtain ⟨hes, rs, r, hrs, rfl, hsound⟩ := h.of_auditing hs
    refine ⟨hes, rs ++ [r], by rw [hrs, List.append_assoc]; rfl, .inl ?_⟩
    rw [List.map_append, hsound.filterMap_eq ha hd hq hwait hrun, hes]
    rfl

/-- **No step of an audit makes its results wrong.** -/
theorem sound_of_moved {delegates : Bool} (h : Moved t delegates s w s' w')
    (hw : w.Sound t s.aborted) : w'.Sound t s.aborted := by
  cases h with
  | publish | tell => exact hw
  | skip ha hs hab => exact hab
  | start ha hs hab =>
    -- in chunks of whatever size, the model is the one that is read in one piece
    show (Ifc.Reader.ofText _ _ _).outcome.entities = _
    unfold ModelSource.entities Ifc.read
    rw [Ifc.Reader.run_eq_outcome, Ifc.Reader.outcome_ofText t.config.chunkLines]
  | read r r' m ha hs hr =>
    unfold Sound at hw
    rw [hs] at hw
    refine ⟨?_, [], rfl, .inl rfl⟩
    rw [← Ifc.Reader.outcome_of_done hr]
    exact hw
  | readOn r r' p ha hs hr hab =>
    unfold Sound at hw
    rw [hs] at hw
    show r'.outcome.entities = _
    rw [Ifc.Reader.outcome_of_pending hr]
    exact hw
  | stopReading r r' p ha hs hr hab => exact hab
  | finish es done ha hs =>
    obtain ⟨-, rs, hrs, hdone⟩ := hw.of_between hs
    exact ⟨rs, [], hrs, hdone, fun _ => rfl⟩
  | openDocument es r todo done ha hs hab =>
    obtain ⟨hes, rs, hrs, hdone⟩ := hw.of_between hs
    rw [hab] at hdone
    exact ⟨hes, rs, r, hrs, areResults_of_not_aborted hdone, DocumentAudit.sound_ofRules r⟩
  | stopBetween es r todo done ha hs hab =>
    obtain ⟨-, rs, hrs, hdone⟩ := hw.of_between hs
    refine ⟨rs, r :: todo, hrs, hdone, fun hf => ?_⟩
    rw [hab] at hf
    cases hf
  | look es d spec rest todo done ha hs hd hc hab =>
    exact hw.auditing hs rfl rfl fun _ hsound => hsound.look
  | leaveOut es d spec rest todo done ha hs hd hc hab =>
    exact hw.auditing hs rfl rfl fun _ hsound => hsound.leaveOut hab
  | handOver es d spec rest todo done _ ha hs hd hc hp =>
    exact hw.auditing hs rfl rfl fun _ hsound => hsound.handOver hd
  | checkHere es d spec rest todo done _ ha hs hd hc hp =>
    exact hw.auditing hs rfl rfl fun _ hsound => hsound.checkHere hd
  | stopTaking es d todo done ha hs hd hr hab =>
    rw [hab] at hw ⊢
    exact sound_closeDocument_of_aborted hs hw
  | takeOn es d todo done ha hs hd hr hab =>
    exact hw.auditing hs rfl rfl fun _ hsound => hsound.takeOn
  | take es d todo done i x queue ha hs hd hr hq =>
    exact hw.auditing hs rfl rfl fun _ hsound => hsound.take hq
  | close es d todo done ha hs hd hr hq hwait hrun =>
    exact sound_closeDocument hs hd hq hwait hrun hw

theorem sound_of_begin {k : Nat} (h : w.begin k s = some w') (hw : w.Sound t s.aborted) :
    w'.Sound t s.aborted := by
  obtain ⟨es, d, todo, done, task, hs, hk, rfl⟩ := begin_eq_some h
  exact hw.auditing hs rfl rfl fun _ hsound => hsound.begin hk

theorem sound_of_deliver {k : Nat} (h : w.deliver t k = some w') (hw : w.Sound t aborted) :
    w'.Sound t aborted := by
  obtain ⟨es, d, todo, done, task, hs, hk, rfl⟩ := deliver_eq_some h
  exact hw.auditing hs rfl rfl fun _ hsound => hsound.deliver hk

/-- **A finished audit that was not broken off has all results, and no others.** -/
theorem Sound.results (hw : w.Sound t false) (hf : w.isFinished = true) :
    w.results? = some (t.rules.map (directResult t.config.strict w.file)) := by
  obtain ⟨file, position, stage, units, announcement⟩ := w
  cases announcement with
  | nothing =>
    cases stage with
    | finished results =>
      cases results with
      | none => cases hw
      | some done =>
        obtain ⟨rs, todo, hrs, hdone, htodo⟩ := hw
        rw [htodo rfl, List.append_nil] at hrs
        rw [hrs]
        exact congrArg some (areResults_of_not_aborted hdone)
    | _ => cases hf
  | _ => cases hf

end FileAudit

end BimAudit.Session
