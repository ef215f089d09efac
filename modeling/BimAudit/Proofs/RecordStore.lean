import Mathlib.Data.List.Nodup
import BimAudit.Proofs.ChunkedReading

/-!
# Records by id

A store finds, for each id, the last of its records that bears it. If the ids are pairwise distinct,
the order of the records does not matter.

* `lastWith`: the last of some records with an id. `lastWith_perm`: distinct ids make it independent
  of the order.
* `Store.Indexed`: a store finds the last record with an id. `Store.indexed_foldl_push`: every store
  does that records are pushed into.
-/

namespace BimAudit.Ifc

open Step (Record)

variable {rs rs' : List Record} {r : Record} {id : Nat}

/-- The last of some records with an id. -/
def lastWith (rs : List Record) (id : Nat) : Option Record := rs.reverse.find? (·.id = id)

/-- A record behind others is the last one with its identifier. -/
theorem lastWith_concat (rs : List Record) (r : Record) (id : Nat) :
    lastWith (rs ++ [r]) id = if r.id = id then some r else lastWith rs id := by
  unfold lastWith
  rw [List.reverse_append, List.reverse_singleton, List.singleton_append, List.find?_cons]
  by_cases h : r.id = id <;> simp [h]

theorem mem_of_lastWith (h : lastWith rs id = some r) : r ∈ rs ∧ r.id = id := by
  unfold lastWith at h
  have hmem := List.mem_of_find?_eq_some h
  have hid := List.find?_some h
  exact ⟨List.mem_reverse.1 hmem, by simpa using hid⟩

/-- Among records with distinct ids, the last one with an id is the only one. -/
theorem lastWith_eq_some_iff (hd : (rs.map (·.id)).Nodup) :
    lastWith rs id = some r ↔ r ∈ rs ∧ r.id = id := by
  refine ⟨mem_of_lastWith, ?_⟩
  rintro ⟨hr, hid⟩
  cases h : lastWith rs id with
  | none =>
    unfold lastWith at h
    have hne := List.find?_eq_none.1 h r (List.mem_reverse.2 hr)
    simp [hid] at hne
  | some q =>
    obtain ⟨hq, hqid⟩ := mem_of_lastWith h
    rw [List.inj_on_of_nodup_map hd hq hr (hqid.trans hid.symm)]

/-- **The order of records with distinct ids does not matter.** -/
theorem lastWith_perm (h : rs.Perm rs') (hd : (rs.map (·.id)).Nodup) (id : Nat) :
    lastWith rs id = lastWith rs' id := by
  have hd' : (rs'.map (·.id)).Nodup := (h.map _).nodup_iff.1 hd
  apply Option.ext
  intro r
  rw [lastWith_eq_some_iff hd, lastWith_eq_some_iff hd', h.mem_iff]

namespace Store

/-- The store finds the last record with an id, at a position that it has. -/
structure Indexed (st : Store) : Prop where
  lt : ∀ id i : Nat, st.index[id]? = some i → i < st.records.size
  find : ∀ id : Nat, st.find? id = lastWith st.list id

theorem list_push (st : Store) (r : Record) : (st.push r).list = st.list ++ [r] := by
  simp [list, push]

/-- Records are put behind the others in their order. -/
theorem list_foldl_push (rs : List Record) (st : Store) :
    (rs.foldl Store.push st).list = st.list ++ rs := by
  induction rs generalizing st with
  | nil => simp
  | cons r rs ih => rw [List.foldl_cons, ih, list_push, List.append_assoc, List.singleton_append]

theorem indexed_empty : ({} : Store).Indexed := by
  constructor
  · intro id i hi
    simp at hi
  · intro id
    simp [find?, lastWith, list]

/-- The index of an identifier is the place of the last record with it. -/
theorem getElem?_index_push (st : Store) (r : Record) (id : Nat) :
    (st.push r).index[id]? = if r.id = id then some st.records.size else st.index[id]? := by
  unfold Store.push
  rw [Std.HashMap.getElem?_insert]
  simp

/-- **Each record keeps the index right.** -/
theorem Indexed.push {st : Store} (h : st.Indexed) (r : Record) : (st.push r).Indexed := by
  have hindex := st.getElem?_index_push r
  have hsize : (st.push r).records.size = st.records.size + 1 := by simp [Store.push]
  constructor
  · intro id i hi
    rw [hindex] at hi
    split at hi
    · cases hi
      omega
    · have := h.lt id i hi
      omega
  · intro id
    rw [list_push, lastWith_concat, ← h.find id]
    unfold find?
    rw [hindex]
    split
    · simp [Store.push]
    · -- the positions of the other ids are those from before
      cases hi : st.index[id]? with
      | none => rfl
      | some i =>
        have hlt := h.lt id i hi
        simp only [Option.bind_some, Store.push]
        rw [Array.getElem?_push_lt hlt, Array.getElem?_eq_getElem hlt]

/-- **A store finds the last record with an id**, whatever records have been pushed into it. -/
theorem indexed_foldl_push (rs : List Record) {st : Store} (h : st.Indexed) :
    (rs.foldl Store.push st).Indexed := by
  induction rs generalizing st with
  | nil => exact h
  | cons r rs ih => exact ih (h.push r)

end Store

end BimAudit.Ifc
