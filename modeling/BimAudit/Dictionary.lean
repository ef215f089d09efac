/-!
# Dictionaries

A dictionary gives a value to each of finitely many names. Its entries are kept in the order in
which the names first came; `insert` gives a name that is present its new value in place.
-/

namespace BimAudit

/-- Finitely many names, each with one value. -/
structure Dictionary (α : Type) where
  entries : List (String × α)
  /-- No name has two entries. -/
  nodup : (entries.map (·.1)).Nodup

namespace Dictionary

variable {α : Type}

/-- No names at all. -/
def empty : Dictionary α := ⟨[], List.nodup_nil⟩

instance : EmptyCollection (Dictionary α) := ⟨empty⟩

instance : Inhabited (Dictionary α) := ⟨empty⟩

/-- The names, in the order of the entries. -/
def keys (d : Dictionary α) : List String := d.entries.map (·.1)

/-- The value of a name. -/
def find? (d : Dictionary α) (k : String) : Option α := (d.entries.find? (·.1 = k)).map (·.2)

/-- The number of names. -/
def size (d : Dictionary α) : Nat := d.entries.length

/-- Replaces the value of the first entry with the name, or adds an entry at the end. -/
def put (k : String) (v : α) : List (String × α) → List (String × α)
  | [] => [(k, v)]
  | e :: es => if e.1 = k then (k, v) :: es else e :: put k v es

/-- The keys are those from before and the one that is put. -/
theorem mem_keys_put {k x : String} {v : α} {es : List (String × α)} :
    x ∈ (put k v es).map (·.1) ↔ x = k ∨ x ∈ es.map (·.1) := by
  induction es with
  | nil => simp [put]
  | cons e es ih =>
    by_cases h : e.1 = k
    · simp only [put, h, if_true, List.map_cons, List.mem_cons]
      grind
    · simp only [put, h, if_false, List.map_cons, List.mem_cons, ih]
      grind

/-- Putting an entry repeats no key. -/
theorem nodup_put {k : String} {v : α} {es : List (String × α)}
    (h : (es.map (·.1)).Nodup) : ((put k v es).map (·.1)).Nodup := by
  induction es with
  | nil => simp [put]
  | cons e es ih =>
    simp only [List.map_cons, List.nodup_cons] at h
    by_cases hk : e.1 = k
    · rw [put, if_pos hk, List.map_cons, List.nodup_cons]
      exact ⟨hk ▸ h.1, h.2⟩
    · rw [put, if_neg hk, List.map_cons, List.nodup_cons, mem_keys_put]
      exact ⟨fun hm => hm.elim hk h.1, ih h.2⟩

/-- Gives a name a value. -/
def insert (d : Dictionary α) (k : String) (v : α) : Dictionary α :=
  ⟨put k v d.entries, nodup_put d.nodup⟩

/-- Gives the names of the list their values one after the other, so the last one counts. -/
def ofList (es : List (String × α)) : Dictionary α := es.foldl (fun d e => d.insert e.1 e.2) empty

/-- Takes over every entry of `e`. -/
def merge (d e : Dictionary α) : Dictionary α :=
  e.entries.foldl (fun d e => d.insert e.1 e.2) d

theorem find?_put {k x : String} {v : α} {es : List (String × α)} :
    ((put k v es).find? (·.1 = x)).map (·.2)
      = if x = k then some v else (es.find? (·.1 = x)).map (·.2) := by
  induction es with
  | nil => by_cases h : x = k <;> simp [put, h, eq_comm]
  | cons e es ih =>
    by_cases hk : e.1 = k
    · by_cases hx : x = k
      · simp [put, hk, hx]
      · simp [put, hk, hx, Ne.symm hx]
    · by_cases hx : e.1 = x
      · simp [put, hx, hx ▸ hk]
      · simp only [put, hk, if_false, List.find?_cons, hx, decide_false]
        exact ih

/-- The value of a key is the one that was inserted last. -/
@[simp] theorem find?_insert (d : Dictionary α) (k x : String) (v : α) :
    (d.insert k v).find? x = if x = k then some v else d.find? x := find?_put

end Dictionary

end BimAudit
