import Mathlib.Data.List.Perm.Basic
import BimAudit.Proofs.AuditResults
import BimAudit.Proofs.SpecificationResults

/-!
# Results that are under way

A specification that is handed over leaves the place of its result empty until the result is taken
from the queue. The results that are under way belong to different places, and each of them is
there: the workers only get specifications that apply to some entity.

* `DocumentAudit.Open`: this invariant.
* `FileAudit.Tidy`: the same of the audit of a model, which looks for the next specification only
  when it has nothing to announce.
* `FileAudit.tidy_of_moved`, `FileAudit.tidy_of_begin`, `FileAudit.tidy_of_deliver`: every step
  keeps it.
-/

namespace BimAudit.Session

open Audit (SpecificationResult FileResult)

/-! ### One document -/

variable {t : Setting} {d : DocumentAudit}

/-- The results that are under way belong to different places that are still empty, and so do those
of the specifications to come. The workers only have results that are there. -/
structure DocumentAudit.Open (d : DocumentAudit) : Prop where
  nodup : d.outstanding.Nodup
  before : ∀ i ∈ d.outstanding, i < d.position
  bound : d.position + d.todo.length ≤ d.results.length
  empty : ∀ i < d.results.length, i ∈ d.outstanding ∨ d.position ≤ i → d.results[i]? = some none
  tasks : ∀ k ∈ d.waiting ++ d.running, k.applicable ≠ []
  queue : ∀ q ∈ d.queue, q.2.isSome = true
  /-- The audit looks whether it is broken off only where there is something to come. -/
  checked : d.todo = [] → d.checked = false

/-- Workers have a result for every specification that applies to some entity. -/
theorem Task.isSome_result {k : Task} (h : k.applicable ≠ []) : (k.result t).isSome = true := by
  rw [← Option.ne_none_iff_isSome]
  unfold Task.result Audit.resultFor?
  rw [ne_eq, Audit.ofEntities?_eq_none_iff, List.map_eq_nil_iff]
  exact h

/-- Only specifications that apply to some entity are handed over. -/
theorem Shared.pos_of_askPool {delegates : Bool} {n : Nat} {s s' : Shared}
    (h : s.askPool t delegates n = (true, s')) : 0 < n := by
  unfold askPool at h
  split at h
  case isTrue hn =>
    rw [Bool.and_eq_true, decide_eq_true_eq] at hn
    omega
  case isFalse => cases h

namespace DocumentAudit

/-- At the start of a document no result is under way, and all places are empty. -/
theorem open_ofRules (r : RuleSource) : (ofRules r).Open where
  nodup := List.nodup_nil
  before := by
    intro i hi
    cases hi
  bound := by simp [ofRules]
  empty := by
    intro i hi _
    rw [ofRules, List.length_replicate] at hi
    rw [ofRules, List.getElem?_replicate, if_pos hi]
  tasks := by
    intro k hk
    cases hk
  queue := by
    intro q hq
    cases hq
  checked := fun _ => rfl

variable {spec : Ids.Specification} {rest : List Ids.Specification}

/-- A look whether the audit is broken off changes no place. -/
theorem Open.look (h : d.Open) (hd : d.todo = spec :: rest) :
    ({ d with checked := true } : DocumentAudit).Open := by
  refine ⟨h.nodup, h.before, h.bound, h.empty, h.tasks, h.queue, fun hnil => ?_⟩
  rw [hd] at hnil
  cases hnil

theorem Open.takeOn (h : d.Open) : ({ d with received := false } : DocumentAudit).Open :=
  ⟨h.nodup, h.before, h.bound, h.empty, h.tasks, h.queue, h.checked⟩

theorem Open.leaveOut (h : d.Open) (hc : d.checked = false) :
    ({ d with todo := [] } : DocumentAudit).Open :=
  ⟨h.nodup, h.before, Nat.le_trans (Nat.le_add_right _ _) h.bound, h.empty, h.tasks, h.queue,
    fun _ => hc⟩

/-- A specification that is handed over has a place of its own, which is empty. -/
theorem Open.handOver {applicable : List Ifc.Entity} (h : d.Open) (hd : d.todo = spec :: rest)
    (hne : applicable ≠ []) :
    ({ d with
      todo := rest
      position := d.position + 1
      checked := false
      waiting := d.waiting ++ [⟨d.position, spec, applicable⟩] } : DocumentAudit).Open := by
  have hbound := h.bound
  rw [hd, List.length_cons] at hbound
  -- the new task comes between the others, and nobody else has its position
  have hperm : (DocumentAudit.outstanding { d with
      todo := rest
      position := d.position + 1
      checked := false
      waiting := d.waiting ++ [⟨d.position, spec, applicable⟩] }).Perm
        (d.position :: d.outstanding) := by
    unfold outstanding
    simp only [List.map_append, List.map_cons, List.append_assoc, List.singleton_append]
    exact List.perm_middle
  refine ⟨?_, ?_, ?_, ?_, ?_, h.queue, fun _ => rfl⟩
  · rw [hperm.nodup_iff, List.nodup_cons]
    exact ⟨fun hmem => Nat.lt_irrefl _ (h.before _ hmem), h.nodup⟩
  · intro i hi
    obtain rfl | hi := List.mem_cons.1 (hperm.mem_iff.1 hi)
    · exact Nat.lt_succ_self _
    · exact Nat.lt_succ_of_lt (h.before i hi)
  · show d.position + 1 + rest.length ≤ d.results.length
    omega
  · intro i hlt hi
    apply h.empty i hlt
    obtain hi | hi := hi
    · obtain rfl | hi := List.mem_cons.1 (hperm.mem_iff.1 hi)
      · exact .inr (Nat.le_refl _)
      · exact .inl hi
    · exact .inr (Nat.le_of_succ_le hi)
  · intro k hk
    simp only [List.mem_append, List.mem_singleton] at hk
    obtain (hk | rfl) | hk := hk
    · exact h.tasks k (List.mem_append_left _ hk)
    · exact hne
    · exact h.tasks k (List.mem_append_right _ hk)

/-- A result that is made at once is put into the place of its specification. -/
theorem Open.checkHere (h : d.Open) (hd : d.todo = spec :: rest)
    (x : Option SpecificationResult) :
    ({ d with
      todo := rest
      position := d.position + 1
      checked := false
      results := d.results.set d.position x } : DocumentAudit).Open := by
  have hbound := h.bound
  rw [hd, List.length_cons] at hbound
  refine ⟨h.nodup, fun i hi => Nat.lt_succ_of_lt (h.before i hi), ?_, ?_, h.tasks, h.queue,
    fun _ => rfl⟩
  · show d.position + 1 + rest.length ≤ (d.results.set d.position x).length
    rw [List.length_set]
    omega
  · intro i hlt hi
    show (d.results.set d.position x)[i]? = some none
    replace hlt : i < (d.results.set d.position x).length := hlt
    rw [List.length_set] at hlt
    -- the place that is filled is neither under way nor to come
    have hne : d.position ≠ i := by
      obtain hi | hi := hi
      · exact Nat.ne_of_gt (h.before i hi)
      · exact Nat.ne_of_lt hi
    rw [List.getElem?_set_ne hne]
    exact h.empty i hlt (hi.imp_right Nat.le_of_succ_le)

/-- A result that is taken is put into the place of its specification, and no other is under way to
it. -/
theorem Open.take {i : Nat} {x : Option SpecificationResult}
    {queue : List (Nat × Option SpecificationResult)} (h : d.Open)
    (hq : d.queue = (i, x) :: queue) :
    ({ d with queue, received := true, results := d.results.set i x } : DocumentAudit).Open := by
  have hperm : d.outstanding.Perm
      (i :: ((d.waiting ++ d.running).map (·.position) ++ queue.map (·.1))) := by
    unfold outstanding
    rw [hq, List.map_cons]
    exact List.perm_middle
  obtain ⟨hfresh, hnodup⟩ := List.nodup_cons.1 (hperm.nodup_iff.1 h.nodup)
  have hmem : ∀ j, j ∈ (d.waiting ++ d.running).map (·.position) ++ queue.map (·.1) →
      j ∈ d.outstanding := fun j hj => hperm.mem_iff.2 (List.mem_cons_of_mem _ hj)
  refine ⟨hnodup, fun j hj => h.before j (hmem j hj), ?_, ?_, h.tasks, ?_, h.checked⟩
  · rw [List.length_set]
    exact h.bound
  · intro j hlt hj
    show (d.results.set i x)[j]? = some none
    replace hlt : j < (d.results.set i x).length := hlt
    rw [List.length_set] at hlt
    have hne : i ≠ j := by
      rintro rfl
      obtain hj | hj := hj
      · exact hfresh hj
      · exact Nat.not_lt_of_le hj (h.before i (hperm.mem_iff.2 List.mem_cons_self))
    rw [List.getElem?_set_ne hne]
    exact h.empty j hlt (hj.imp_left (hmem j))
  · intro q hmem
    exact h.queue q (by rw [hq]; exact List.mem_cons_of_mem _ hmem)

/-- The workers do not add to what is under way. -/
theorem Open.work {waiting running : List Task} {queue : List (Nat × Option SpecificationResult)}
    (h : d.Open)
    (hsub : ((waiting ++ running).map (·.position) ++ queue.map (·.1)).Subperm d.outstanding)
    (htasks : ∀ k ∈ waiting ++ running, k ∈ d.waiting ++ d.running)
    (hqueue : ∀ q ∈ queue, q.2.isSome = true) :
    ({ d with waiting, running, queue } : DocumentAudit).Open := by
  have hmem : ∀ i, i ∈ (waiting ++ running).map (·.position) ++ queue.map (·.1) →
      i ∈ d.outstanding := fun i hi => hsub.subset hi
  refine ⟨?_, fun i hi => h.before i (hmem i hi), h.bound, ?_, ?_, hqueue, h.checked⟩
  · obtain ⟨l, hperm, hl⟩ := hsub
    exact hperm.nodup_iff.1 (hl.nodup h.nodup)
  · intro i hlt hi
    exact h.empty i hlt (hi.imp_left (hmem i))
  · intro k hk
    exact h.tasks k (htasks k hk)

theorem perm_cons_eraseIdx {α : Type} {l : List α} {k : Nat} {a : α} (h : l[k]? = some a) :
    (a :: l.eraseIdx k).Perm l := by
  obtain ⟨hk, rfl⟩ := List.getElem?_eq_some_iff.1 h
  exact List.getElem_cons_eraseIdx_perm hk

/-- A task that is begun is under way to the same place. -/
theorem Open.begin {k : Nat} {task : Task} (aborted : Bool) (h : d.Open)
    (hk : d.waiting[k]? = some task) :
    ({ d with
      waiting := d.waiting.eraseIdx k
      running := if aborted then d.running else d.running ++ [task] } : DocumentAudit).Open := by
  cases aborted with
  | true =>
    -- the task is dropped
    have hsub : (d.waiting.eraseIdx k ++ d.running).Sublist (d.waiting ++ d.running) :=
      (List.eraseIdx_sublist _ _).append_right _
    exact h.work ((hsub.map _).append_right _).subperm (fun _ hx => hsub.subset hx) h.queue
  | false =>
    have hperm : (d.waiting.eraseIdx k ++ (d.running ++ [task])).Perm (d.waiting ++ d.running) := by
      rw [← List.append_assoc]
      exact List.perm_append_comm.trans ((perm_cons_eraseIdx hk).append_right d.running)
    exact h.work ((hperm.map _).append_right _).subperm (fun _ hx => hperm.subset hx) h.queue

/-- A result that is delivered is under way to the same place. -/
theorem Open.deliver {k : Nat} {task : Task} (h : d.Open) (hk : d.running[k]? = some task) :
    ({ d with
      running := d.running.eraseIdx k
      queue := d.queue ++ [(task.position, task.result t)] } : DocumentAudit).Open := by
  have hperm := perm_cons_eraseIdx hk
  have hresult := Task.isSome_result (t := t)
    (h.tasks task (List.mem_append_right _ (List.mem_of_getElem? hk)))
  refine h.work ?_ ?_ ?_
  · apply List.Perm.subperm
    unfold outstanding
    have hmap := (hperm.map (·.position))
    rw [List.map_cons] at hmap
    simp only [List.map_append, List.map_cons, List.map_nil, List.append_assoc]
    refine List.Perm.append_left _ ?_
    rw [← List.append_assoc]
    exact List.perm_append_comm.trans (hmap.append_right _)
  · intro x hx
    obtain hx | hx := List.mem_append.1 hx
    · exact List.mem_append_left _ hx
    · exact List.mem_append_right _ (List.mem_of_mem_eraseIdx hx)
  · intro q hq
    obtain hq | hq := List.mem_append.1 hq
    · exact h.queue q hq
    · rw [List.mem_singleton.1 hq]
      exact hresult

end DocumentAudit

/-! ### One model -/

namespace FileAudit

/-- Nothing is counted after the sign to stop but what the workers deliver: the model has been read
or will not be, and the next specification has not been looked for. -/
def Settled (w : FileAudit) : Prop :=
  match w.stage with
  | .reading _ => False
  | .auditing _ d _ _ => d.checked = false
  | .ready | .between _ _ _ | .finished _ => True

/-- The results under way have their places, and an audit that has something to announce has not yet
gone on. -/
structure Tidy (w : FileAudit) : Prop where
  auditing : ∀ es d todo done, w.stage = .auditing es d todo done → d.Open
  settled : w.announcement ≠ .nothing → w.Settled

variable {delegates : Bool} {s s' : Shared} {w w' : FileAudit}

/-- A step within a document. -/
theorem Tidy.document {es : List Ifc.Entity} {d' : DocumentAudit} {todo : List RuleSource}
    {done : List FileResult} (hs : w'.stage = .auditing es d' todo done) (hd : d'.Open)
    (hsettled : w'.announcement ≠ .nothing → d'.checked = false) : w'.Tidy := by
  refine ⟨?_, ?_⟩
  · intro es' d'' todo' done' hs'
    rw [hs] at hs'
    cases hs'
    exact hd
  · intro ha
    unfold Settled
    rw [hs]
    exact hsettled ha

/-- A step that leaves the documents. -/
theorem Tidy.outside (hs : ∀ es d todo done, w'.stage ≠ .auditing es d todo done)
    (hsettled : w'.announcement ≠ .nothing → w'.Settled) : w'.Tidy :=
  ⟨fun es d todo done h => absurd h (hs es d todo done), hsettled⟩

/-- **No step of an audit mixes its results up.** -/
theorem tidy_of_moved (h : Moved t delegates s w s' w') (hw : w.Tidy) : w'.Tidy := by
  cases h with
  | publish ha =>
    have hsettled : w.Settled := hw.settled (by rw [ha]; exact Announcement.noConfusion)
    exact ⟨hw.auditing, fun _ => hsettled⟩
  | tell units ha => exact ⟨hw.auditing, fun hne => absurd rfl hne⟩
  | read r r' m ha hs hr => exact .outside (fun _ _ _ _ => Stage.noConfusion) fun _ => trivial
  | skip ha | start ha | readOn _ _ _ ha | stopReading _ _ _ ha | finish _ _ ha
  | stopBetween _ _ _ _ ha | stopTaking _ _ _ _ ha | close _ _ _ _ ha =>
    exact .outside (fun _ _ _ _ => Stage.noConfusion) fun hne => absurd ha hne
  | openDocument es r todo done ha hs hab =>
    exact .document rfl (DocumentAudit.open_ofRules r) fun _ => rfl
  | look es d spec rest todo done ha hs hd hc hab =>
    exact .document rfl ((hw.auditing _ _ _ _ hs).look hd) fun hne => absurd ha hne
  | leaveOut es d spec rest todo done ha hs hd hc hab =>
    exact .document rfl ((hw.auditing _ _ _ _ hs).leaveOut hc) fun _ => hc
  | handOver es d spec rest todo done _ ha hs hd hc hp =>
    have hne := List.ne_nil_of_length_pos (Shared.pos_of_askPool hp)
    exact .document rfl ((hw.auditing _ _ _ _ hs).handOver hd hne) fun _ => rfl
  | checkHere es d spec rest todo done _ ha hs hd hc hp =>
    exact .document rfl ((hw.auditing _ _ _ _ hs).checkHere hd _) fun _ => rfl
  | takeOn es d todo done ha hs hd hr hab =>
    exact .document rfl (hw.auditing _ _ _ _ hs).takeOn fun hne => absurd ha hne
  | take es d todo done i x queue ha hs hd hr hq =>
    have hopen := hw.auditing _ _ _ _ hs
    exact .document rfl (hopen.take hq) fun _ => hopen.checked hd

/-- A task that is begun mixes no results up. -/
theorem tidy_of_begin {k : Nat} (h : w.begin k s = some w') (hw : w.Tidy) : w'.Tidy := by
  obtain ⟨es, d, todo, done, task, hs, hk, rfl⟩ := begin_eq_some h
  refine .document rfl ((hw.auditing _ _ _ _ hs).begin s.aborted hk) fun hne => ?_
  have hsettled := hw.settled hne
  unfold Settled at hsettled
  rwa [hs] at hsettled

/-- A task that is delivered mixes no results up. -/
theorem tidy_of_deliver {k : Nat} (h : w.deliver t k = some w') (hw : w.Tidy) : w'.Tidy := by
  obtain ⟨es, d, todo, done, task, hs, hk, rfl⟩ := deliver_eq_some h
  refine .document rfl ((hw.auditing _ _ _ _ hs).deliver hk) fun hne => ?_
  have hsettled := hw.settled hne
  unfold Settled at hsettled
  rwa [hs] at hsettled

end FileAudit

end BimAudit.Session
