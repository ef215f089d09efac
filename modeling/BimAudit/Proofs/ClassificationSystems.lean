import Mathlib.Data.Fintype.Pigeonhole
import BimAudit.Proofs.ReadRecords

/-!
# Systems of classifications

The system of a classification reference stands at the end of a chain of sources. Each record has
one source at most, so a chain can miss a system in three ways only: it runs into a circle, it is
too long, or it ends at a record that is no system.

* `Sources`: the chains of sources. `Sources.tail`: there is one chain from each record, so a longer
  one goes on behind a shorter one.
* `exists_circle_of_endless`: a chain that never ends runs into a circle.
* `systemOf?_eq_some_iff`, `systemOf?_eq_none_iff`: **where a system is found, and why none is.**
* `classification?_ofRecords`: what is resolved to a classification is the record that the reference
  leads to, with this system.
-/

namespace BimAudit.Ifc

open Step (Record)

/-! ### Chains of sources -/

/-- The record is a classification system. -/
def isSystem (r : Record) : Bool := r.type = "IFCCLASSIFICATION"

/-- The record is a reference to a classification. -/
def isReference (r : Record) : Bool := r.type = "IFCCLASSIFICATIONREFERENCE"

/-- The record that a classification reference names as its source, if there is one. -/
def source? (rs : List Record) (r : Record) : Option Record :=
  if isReference r then (referenceAt r.values 3).bind (lastWith rs) else none

/-- So many sources lead from one record to another. -/
inductive Sources (rs : List Record) : Nat → Record → Record → Prop where
  | refl (r : Record) : Sources rs 0 r r
  | step {r s c : Record} {n : Nat} :
    source? rs r = some s → Sources rs n s c → Sources rs (n + 1) r c

/-- Why no system is found from a record. -/
inductive NoSystem (rs : List Record) (r : Record) : Prop where
  /-- The chain comes to a record from which it leads back to this record. -/
  | cyclic {m n : Nat} {p : Record} : Sources rs m r p → Sources rs (n + 1) p p → NoSystem rs r
  /-- The chain comes to a system, but too late. -/
  | longer {n : Nat} {c : Record} :
    Sources rs n r c → isSystem c = true → maxLinkDepth + 1 < n → NoSystem rs r
  /-- The chain ends at a record that is no system. -/
  | broken {n : Nat} {p : Record} :
    Sources rs n r p → isSystem p = false → source? rs p = none → NoSystem rs r

/-- The system that a record leads to within `depth` sources. -/
def systemWithin? (rs : List Record) : Nat → Record → Option Record
  | 0, r => if isSystem r then some r else none
  | depth + 1, r => if isSystem r then some r else (source? rs r).bind (systemWithin? rs depth)

/-- The system that a record leads to. -/
def systemOf? (rs : List Record) (r : Record) : Option Record :=
  systemWithin? rs (maxLinkDepth + 1) r

variable {rs : List Record} {r s c p : Record} {m n depth : Nat}

theorem not_isReference_of_isSystem (h : isSystem r = true) : isReference r = false := by
  unfold isSystem at h
  unfold isReference
  rw [of_decide_eq_true h]
  decide

/-- A system has no source. -/
theorem not_isSystem_of_source? (h : source? rs r = some s) : ¬isSystem r = true := by
  intro hr
  unfold source? at h
  rw [not_isReference_of_isSystem hr] at h
  cases h

theorem mem_of_source? (h : source? rs r = some s) : s ∈ rs := by
  unfold source? at h
  split at h
  · obtain ⟨id, -, hs⟩ := Option.bind_eq_some_iff.1 h
    exact (mem_of_lastWith hs).1
  · cases h

theorem Sources.trans (h : Sources rs m r p) (h' : Sources rs n p c) :
    Sources rs (m + n) r c := by
  induction h with
  | refl => rwa [Nat.zero_add]
  | step hs _ ih =>
    rw [Nat.add_right_comm]
    exact .step hs (ih h')

/-- **There is one chain from each record**: a longer one goes on behind a shorter one. -/
theorem Sources.tail {k : Nat} (h : Sources rs (m + k) r c) (h' : Sources rs m r p) :
    Sources rs k p c := by
  induction h' with
  | refl => rwa [Nat.zero_add] at h
  | step hs _ ih =>
    rw [Nat.add_right_comm] at h
    cases h with
    | step hs' h =>
      rw [hs] at hs'
      cases hs'
      exact ih h

/-- The last record of a chain is one of the records, if there is a source at all. -/
theorem Sources.mem (h : Sources rs (n + 1) r c) : c ∈ rs := by
  induction n generalizing r with
  | zero =>
    cases h with
    | step hs h =>
      cases h
      exact mem_of_source? hs
  | succ n ih =>
    cases h with
    | step _ h => exact ih h

/-- A chain ends at a system, so no chain from the same record is longer. -/
theorem Sources.le_of_isSystem (h : Sources rs n r c) (hc : isSystem c = true)
    (h' : Sources rs m r p) : m ≤ n := by
  by_contra hlt
  obtain ⟨k, rfl⟩ : ∃ k, m = n + (k + 1) := ⟨m - n - 1, by omega⟩
  cases h'.tail h with
  | step hs => exact not_isSystem_of_source? hs hc

/-- A chain to a system goes on behind every chain from the same record. -/
theorem Sources.tail_of_isSystem (h : Sources rs n r c) (hc : isSystem c = true)
    (h' : Sources rs m r p) : ∃ k, n = m + k ∧ Sources rs k p c := by
  obtain ⟨k, rfl⟩ := Nat.exists_eq_add_of_le (h.le_of_isSystem hc h')
  exact ⟨k, rfl, h.tail h'⟩

/-- Two chains from one record to systems are the same. -/
theorem Sources.eq_of_isSystem {c' : Record} (h : Sources rs n r c) (hc : isSystem c = true)
    (h' : Sources rs m r c') (hc' : isSystem c' = true) : n = m ∧ c = c' := by
  obtain ⟨k, rfl, hk⟩ := h.tail_of_isSystem hc h'
  cases hk with
  | refl => exact ⟨rfl, rfl⟩
  | step hs => exact absurd hc' (not_isSystem_of_source? hs)

/-- No chain to a system goes through a circle. -/
theorem Sources.not_circle (h : Sources rs m r c) (hc : isSystem c = true) :
    ¬Sources rs (n + 1) r r := by
  intro hcircle
  induction m using Nat.strongRecOn generalizing r with
  | ind m ih =>
    obtain ⟨k, rfl, hk⟩ := h.tail_of_isSystem hc hcircle
    exact ih k (by omega) hk hcircle

/-- **A chain without an end runs into a circle**, because there are only so many records. -/
theorem exists_circle_of_endless (h : ∀ n p, Sources rs n r p → source? rs p ≠ none) :
    ∃ m n p, Sources rs m r p ∧ Sources rs (n + 1) p p := by
  have hchain : ∀ n, ∃ p, Sources rs n r p := by
    intro n
    induction n with
    | zero => exact ⟨r, .refl r⟩
    | succ n ih =>
      obtain ⟨p, hp⟩ := ih
      obtain ⟨s, hs⟩ := Option.ne_none_iff_exists'.1 (h n p hp)
      exact ⟨s, hp.trans (.step hs (.refl s))⟩
  choose met hmet using hchain
  obtain ⟨i, j, hne, heq⟩ := Finite.exists_ne_map_eq_of_infinite
    fun n => (⟨met (n + 1), (hmet (n + 1)).mem⟩ : {s // s ∈ rs})
  have htwice : met (i + 1) = met (j + 1) := congrArg Subtype.val heq
  wlog hlt : i < j generalizing i j
  · exact this j i hne.symm heq.symm htwice.symm (by omega)
  obtain ⟨k, rfl⟩ : ∃ k, j = i + (k + 1) := ⟨j - i - 1, by omega⟩
  have hcircle : Sources rs (i + 1 + (k + 1)) r (met (i + 1)) := by
    rw [htwice, Nat.add_right_comm i 1]
    exact hmet _
  exact ⟨i + 1, k, met (i + 1), hmet (i + 1), hcircle.tail (hmet (i + 1))⟩

/-! ### Finding the system -/

theorem systemWithin?_of_isSystem (h : isSystem r = true) :
    systemWithin? rs depth r = some r := by
  cases depth <;> simp [systemWithin?, h]

/-- **A system is found if so many sources at most lead to it.** -/
theorem systemWithin?_eq_some_iff : systemWithin? rs depth r = some c
    ↔ ∃ n ≤ depth, Sources rs n r c ∧ isSystem c = true := by
  induction depth generalizing r with
  | zero =>
    constructor
    · intro h
      unfold systemWithin? at h
      split at h
      · next hr =>
        cases h
        exact ⟨0, Nat.le_refl _, .refl _, hr⟩
      · cases h
    · rintro ⟨n, hn, h, hc⟩
      cases Nat.le_zero.1 hn
      cases h
      exact systemWithin?_of_isSystem hc
  | succ depth ih =>
    constructor
    · intro h
      unfold systemWithin? at h
      split at h
      · next hr =>
        cases h
        exact ⟨0, Nat.zero_le _, .refl _, hr⟩
      · obtain ⟨s, hs, hsome⟩ := Option.bind_eq_some_iff.1 h
        obtain ⟨n, hn, hn', hc⟩ := ih.1 hsome
        exact ⟨n + 1, Nat.succ_le_succ hn, .step hs hn', hc⟩
    · rintro ⟨n, hn, h, hc⟩
      cases h with
      | refl => exact systemWithin?_of_isSystem hc
      | step hs h =>
        rw [systemWithin?, if_neg (not_isSystem_of_source? hs), hs]
        exact ih.2 ⟨_, Nat.le_of_succ_le_succ hn, h, hc⟩

/-- A system is found from a record if so many sources at most lead to it. -/
theorem systemOf?_eq_some_iff : systemOf? rs r = some c
    ↔ ∃ n ≤ maxLinkDepth + 1, Sources rs n r c ∧ isSystem c = true :=
  systemWithin?_eq_some_iff

/-- **No system is found** if the chain is cyclic, too long or broken, and only then. -/
theorem systemOf?_eq_none_iff : systemOf? rs r = none ↔ NoSystem rs r := by
  constructor
  · intro hnone
    have hfar : ∀ n c, Sources rs n r c → isSystem c = true → maxLinkDepth + 1 < n := by
      intro n c h hc
      by_contra hle
      rw [systemOf?_eq_some_iff.2 ⟨n, Nat.le_of_not_lt hle, h, hc⟩] at hnone
      cases hnone
    by_cases hend : ∃ n p, Sources rs n r p ∧ source? rs p = none
    · obtain ⟨n, p, h, hp⟩ := hend
      cases hsystem : isSystem p with
      | true => exact .longer h hsystem (hfar n p h hsystem)
      | false => exact .broken h hsystem hp
    · have hendless : ∀ n p, Sources rs n r p → source? rs p ≠ none :=
        fun n p h hp => hend ⟨n, p, h, hp⟩
      obtain ⟨m, n, p, hp, hcircle⟩ := exists_circle_of_endless hendless
      exact .cyclic hp hcircle
  · intro hno
    rw [Option.eq_none_iff_forall_ne_some]
    intro c hc
    obtain ⟨n, hn, h, hsystem⟩ := systemOf?_eq_some_iff.1 hc
    cases hno with
    | cyclic hp hcircle =>
      obtain ⟨k, -, hk⟩ := h.tail_of_isSystem hsystem hp
      exact hk.not_circle hsystem hcircle
    | longer h' hsystem' hlt =>
      have hlen := (h.eq_of_isSystem hsystem h' hsystem').1
      omega
    | broken h' hsystem' hend =>
      obtain ⟨k, -, hk⟩ := h.tail_of_isSystem hsystem h'
      cases hk with
      | refl =>
        rw [hsystem'] at hsystem
        cases hsystem
      | step hs =>
        rw [hend] at hs
        cases hs

/-! ### Classifications -/

/-- The record is a classification or a reference to one. -/
def isClassification (r : Record) : Bool := isReference r || isSystem r

/-- The name of a classification system. -/
def systemName (r : Record) : String := (textAt r.values 3).getD ""

/-- The classification that a record stands for: a system without a code, or the system that the
reference leads to with the identification of the reference, or its name if there is none. -/
def classificationOf (rs : List Record) (r : Record) : Classification :=
  if isReference r then
    ⟨((systemOf? rs r).map systemName).getD "",
      (((textAt r.values 1).filter (· ≠ "")).or (textAt r.values 2)).getD ""⟩
  else ⟨systemName r, ""⟩

theorem classificationSystem?_ofRecords (rs : List Record) (depth id : Nat) :
    (Store.ofRecords rs).classificationSystem? (depth + 1) id
      = ((lastWith rs id).bind (systemWithin? rs depth)).bind (textAt ·.values 3) := by
  induction depth generalizing id with
  | zero =>
    unfold Store.classificationSystem?
    rw [Store.find?_ofRecords]
    cases lastWith rs id with
    | none => rfl
    | some r =>
      by_cases hs : r.type = "IFCCLASSIFICATION"
      · simp [systemWithin?, isSystem, hs]
      · simp [systemWithin?, isSystem, hs, Store.classificationSystem?]
  | succ depth ih =>
    unfold Store.classificationSystem?
    rw [Store.find?_ofRecords]
    cases lastWith rs id with
    | none => rfl
    | some r =>
      by_cases hs : r.type = "IFCCLASSIFICATION"
      · simp [systemWithin?, isSystem, hs]
      · by_cases hr : r.type = "IFCCLASSIFICATIONREFERENCE"
        · simp [systemWithin?, source?, isSystem, isReference, hr, ih, Option.bind_assoc]
        · simp [systemWithin?, source?, isSystem, isReference, hs, hr]

theorem getD_systemOf? (rs : List Record) (hr : isReference r = true) :
    ((systemOf? rs r).map systemName).getD ""
      = ((referenceAt r.values 3).bind
          ((Store.ofRecords rs).classificationSystem? (maxLinkDepth + 1))).getD "" := by
  have hs : ¬isSystem r = true := by
    intro hs
    rw [not_isReference_of_isSystem hs] at hr
    cases hr
  have hsystem : systemOf? rs r
      = (referenceAt r.values 3).bind fun id =>
          (lastWith rs id).bind (systemWithin? rs maxLinkDepth) := by
    unfold systemOf?
    rw [systemWithin?, if_neg hs, source?, if_pos hr, Option.bind_assoc]
  rw [funext (classificationSystem?_ofRecords rs maxLinkDepth), ← Option.bind_assoc, ← hsystem]
  cases systemOf? rs r <;> rfl

theorem classification?_ofRecords (rs : List Record) (id : Nat) :
    (Store.ofRecords rs).classification? id
      = ((lastWith rs id).filter isClassification).map (classificationOf rs) := by
  unfold Store.classification?
  rw [Store.find?_ofRecords]
  cases lastWith rs id with
  | none => rfl
  | some r =>
    by_cases hr : r.type = "IFCCLASSIFICATIONREFERENCE"
    · have hsystem := getD_systemOf? rs (decide_eq_true hr : isReference r = true)
      simp [isClassification, classificationOf, isReference, hr, hsystem]
    · by_cases hs : r.type = "IFCCLASSIFICATION"
      · simp [isClassification, classificationOf, isReference, isSystem, systemName, hs]
      · simp [isClassification, isReference, isSystem, hr, hs]

end BimAudit.Ifc
