import Mathlib.Data.List.Induction
import Mathlib.Data.List.Nodup
import BimAudit.Dictionary

/-!
# Entries of dictionaries

What an insertion does to the entries depends on whether the name is there: a new name gets an entry
at the end, and one that is there gets its new value in place.

* `entries_insert_of_not_mem`, `entries_insert_of_mem`: the two cases.
* `mem_entries_iff`: entries are what is found.
* `find?_ofList`: of several entries with a name, the last one counts.
* `find?_merge`: the entries that are merged in override those that are there.
-/

namespace BimAudit.Dictionary

variable {α : Type} {k : String} {v : α}

theorem mem_of_mem_put {es : List (String × α)} {e : String × α} (h : e ∈ put k v es) :
    e = (k, v) ∨ e ∈ es := by
  induction es with
  | nil => exact .inl (List.mem_singleton.1 h)
  | cons a es ih =>
    unfold put at h
    split at h
    · obtain rfl | h := List.mem_cons.1 h
      · exact .inl rfl
      · exact .inr (List.mem_cons_of_mem _ h)
    · obtain rfl | h := List.mem_cons.1 h
      · exact .inr List.mem_cons_self
      · exact (ih h).imp_right (List.mem_cons_of_mem _)

theorem put_of_not_mem {es : List (String × α)} (h : k ∉ es.map (·.1)) :
    put k v es = es ++ [(k, v)] := by
  induction es with
  | nil => rfl
  | cons a es ih =>
    rw [List.map_cons, List.mem_cons, not_or] at h
    rw [put, if_neg (Ne.symm h.1), ih h.2, List.cons_append]

theorem put_of_mem {es : List (String × α)} (hd : (es.map (·.1)).Nodup) (h : k ∈ es.map (·.1)) :
    put k v es = es.map fun e => if e.1 = k then (k, v) else e := by
  induction es with
  | nil => cases h
  | cons a es ih =>
    rw [List.map_cons, List.nodup_cons] at hd
    by_cases ha : a.1 = k
    · -- no other entry has the name
      have hrest : es.map (fun e => if e.1 = k then (k, v) else e) = es := by
        refine (List.map_congr_left fun e he => ?_).trans (List.map_id es)
        have hne : e.1 ≠ k := by
          intro hk
          rw [ha, ← hk] at hd
          exact hd.1 (List.mem_map_of_mem he)
        exact if_neg hne
      rw [put, if_pos ha, List.map_cons, if_pos ha, hrest]
    · have hmem : k ∈ es.map (·.1) := by
        obtain h | h := List.mem_cons.1 h
        · exact absurd h.symm ha
        · exact h
      rw [put, if_neg ha, List.map_cons, if_neg ha, ih hd.2 hmem]

variable {d : Dictionary α}

theorem exists_mem_of_find? (h : d.find? k = some v) : ∃ e ∈ d.entries, e.2 = v := by
  obtain ⟨e, he, hv⟩ := Option.map_eq_some_iff.1 h
  exact ⟨e, List.mem_of_find?_eq_some he, hv⟩

theorem find?_eq_none_iff : d.find? k = none ↔ k ∉ d.keys := by
  unfold find? keys
  rw [Option.map_eq_none_iff, List.find?_eq_none, List.mem_map]
  constructor
  · rintro h ⟨e, he, rfl⟩
    simpa using h e he
  · intro h e he
    rw [decide_eq_true_eq]
    exact fun hk => h ⟨e, he, hk⟩

/-- **A new name gets an entry at the end.** -/
theorem entries_insert_of_not_mem (h : k ∉ d.keys) (v : α) :
    (d.insert k v).entries = d.entries ++ [(k, v)] := put_of_not_mem h

/-- **A name that is there gets its new value in place.** -/
theorem entries_insert_of_mem (h : k ∈ d.keys) (v : α) :
    (d.insert k v).entries = d.entries.map fun e => if e.1 = k then (k, v) else e :=
  put_of_mem d.nodup h

/-- The value that is found is that of the entry with the name. -/
theorem eq_of_find? (h : d.find? k = some v) {e : String × α} (he : e ∈ d.entries)
    (hk : e.1 = k) : e.2 = v := by
  obtain ⟨a, ha, rfl⟩ := Option.map_eq_some_iff.1 h
  have hkey : a.1 = k := by simpa using List.find?_some ha
  have hmem := List.mem_of_find?_eq_some ha
  have hae : a = e := List.inj_on_of_nodup_map d.nodup hmem he (hkey.trans hk.symm)
  rw [hae]

/-- The entries are the names with the values that are found for them. -/
theorem mem_entries_iff : (k, v) ∈ d.entries ↔ d.find? k = some v := by
  constructor
  · intro hmem
    cases h : d.find? k with
    | none =>
      have hk : k ∉ d.keys := find?_eq_none_iff.1 h
      exact absurd (List.mem_map_of_mem hmem) hk
    | some u => exact congrArg some (eq_of_find? h hmem rfl).symm
  · intro h
    obtain ⟨a, ha, rfl⟩ := Option.map_eq_some_iff.1 h
    have hkey : a.1 = k := by simpa using List.find?_some ha
    rw [← hkey]
    exact List.mem_of_find?_eq_some ha

/-- Entries that are inserted one after the other override what was there, and the last one with a
name counts. -/
theorem find?_foldl_insert (es : List (String × α)) (d : Dictionary α) (k : String) :
    (es.foldl (fun d e => d.insert e.1 e.2) d).find? k
      = ((es.reverse.find? (·.1 = k)).map (·.2)).or (d.find? k) := by
  induction es using List.reverseRecOn with
  | nil => rfl
  | append_singleton es e ih =>
    rw [List.foldl_concat, find?_insert, ih, List.reverse_append, List.reverse_singleton,
      List.singleton_append, List.find?_cons]
    by_cases h : k = e.1
    · simp [h]
    · simp [h, Ne.symm h]

/-- **Of several entries with a name, the last one counts.** -/
theorem find?_ofList (es : List (String × α)) (k : String) :
    (ofList es).find? k = (es.reverse.find? (·.1 = k)).map (·.2) := by
  have hempty : (empty : Dictionary α).find? k = none := rfl
  unfold ofList
  rw [find?_foldl_insert, hempty, Option.or_none]

/-- **The entries that are merged in override those that are there**, name by name. -/
theorem find?_merge (d e : Dictionary α) (k : String) :
    (d.merge e).find? k = (e.find? k).or (d.find? k) := by
  have hlast : (e.entries.reverse.find? (·.1 = k)).map (·.2) = e.find? k := by
    cases ha : e.entries.reverse.find? (·.1 = k) with
    | none =>
      have hnone : k ∉ e.keys := by
        intro hk
        obtain ⟨a, ha', hak⟩ := List.mem_map.1 hk
        have hne := List.find?_eq_none.1 ha a (List.mem_reverse.2 ha')
        simp [hak] at hne
      rw [find?_eq_none_iff.2 hnone]
      rfl
    | some a =>
      -- no other entry has the name
      have hak : a.1 = k := by simpa using List.find?_some ha
      have hmem : a ∈ e.entries := List.mem_reverse.1 (List.mem_of_find?_eq_some ha)
      rw [← hak]
      exact (mem_entries_iff.1 hmem).symm
  unfold merge
  rw [find?_foldl_insert, hlast]

end BimAudit.Dictionary
