import BimAudit.Proofs.RecordOrder

/-!
# The records of a text

What is read from a text depends on its records alone: they are what the scan leaves in the store,
and the store is nothing but these records, pushed one after the other. So every statement about the
entities of a text can be made about a list of records.

* `Scan.keeps_lines`: what each record keeps that is pushed into a store, a scan keeps.
* `recordsIn`: the records of a text, in order. `exists_read?_of_mem_recordsIn`: each has been read.
* `Store.find?_ofRecords`: the store of some records finds the last one with an id.
* `eq_of_entity?`: what an entity is made of.
* `entities_read`: **the entities of a text are those of its records**, all of them with the links
  between these records.
-/

namespace BimAudit.Ifc

open Step (Record)

/-! ### Stores made of records -/

namespace Store

@[simp] theorem list_ofRecords (rs : List Record) : (ofRecords rs).list = rs :=
  list_foldl_push rs {}

/-- A record is found by its identifier, the last one of several. -/
theorem find?_ofRecords (rs : List Record) (id : Nat) :
    (ofRecords rs).find? id = lastWith rs id := by
  have hfind := (indexed_foldl_push rs indexed_empty).find id
  rwa [list_foldl_push] at hfind

/-- Records are stored one behind the other. -/
theorem push_ofRecords (rs : List Record) (r : Record) :
    (ofRecords rs).push r = ofRecords (rs ++ [r]) := by
  unfold ofRecords
  rw [List.foldl_concat]

/-- The store holds nothing but its records, in the order in which they were pushed. -/
def Pushed (st : Store) : Prop := st = ofRecords st.list

theorem pushed_ofRecords (rs : List Record) : (ofRecords rs).Pushed := by
  unfold Pushed
  rw [list_ofRecords]

theorem Pushed.push {st : Store} (h : st.Pushed) (r : Record) : (st.push r).Pushed := by
  unfold Pushed at h
  rw [h, push_ofRecords]
  exact pushed_ofRecords _

/-- Each record of the store is what some text was read as. -/
def AllRead (st : Store) : Prop := ∀ r ∈ st.list, ∃ line, Record.read? line = some r

theorem allRead_empty : ({} : Store).AllRead := fun _ hmem => nomatch hmem

/-- A record that can be read from a line may be pushed. -/
theorem AllRead.push {st : Store} (h : st.AllRead) {line : List Char} {r : Record}
    (hr : Record.read? line = some r) : (st.push r).AllRead := by
  intro q hq
  rw [Store.list_push] at hq
  rcases List.mem_append.1 hq with hq | hq
  · exact h q hq
  · rw [List.mem_singleton.1 hq]
    exact ⟨line, hr⟩

end Store

/-! ### Scanning -/

namespace Scan

/-! What holds of a store still holds after a scan if it does after each record that is read. -/

variable {s : Scan} {P : Store → Prop}
  (hpush : ∀ st text r, Record.read? text = some r → P st → P (st.push r))

include hpush

/-- What every record keeps is kept when a text is pushed. -/
theorem keeps_push (h : P s.store) (text : List Char) : P (s.push text).store := by
  unfold push
  cases hr : Record.read? text with
  | none => exact h
  | some r => exact hpush _ text r hr h

theorem keeps_start (h : P s.store) (l : List Char) : P (s.start l).store := by
  unfold start
  split
  · split
    · exact keeps_push hpush h l
    · exact h
  · split
    · split <;> exact h
    · exact h

/-- A line changes the store by pushing records only. -/
theorem keeps_line (h : P s.store) (l : List Char) : P (s.line l).store := by
  unfold line
  simp only
  split
  · exact keeps_start hpush h _
  · split
    · exact keeps_start (s := { s with pending := none }) hpush h _
    · split
      · exact keeps_push (s := { s with pending := none }) hpush h _
      · exact h

/-- **What each record keeps, a scan keeps.** -/
theorem keeps_lines (h : P s.store) (ls : List (List Char)) : P (s.lines ls).store := by
  unfold lines
  induction ls generalizing s with
  | nil => exact h
  | cons l ls ih => exact ih (keeps_line hpush h l)

end Scan

/-! ### Entities of records -/

section Entities

variable {st : Store} {l : Links} {file : String} {r : Record} {e : Entity}

/-- A record has an entity if it is an object with a GUID. -/
theorem isSome_entity?_iff : (entity? file st l r).isSome
    ↔ isObjectType r.type = true ∧ ∃ guid ∈ r.strings.head?, guid ≠ "" := by
  unfold entity?
  cases isObjectType r.type with
  | false => simp
  | true =>
    cases r.strings with
    | nil => simp
    | cons guid rest => by_cases h : guid = "" <;> simp [h]

/-- **What an entity is made of:** its own record, where the first text is the GUID and the second
one the name, and the links. -/
theorem eq_of_entity? (h : entity? file st l r = some e) : isObjectType r.type = true ∧
    e.guid ≠ "" ∧ ∃ rest, r.strings = e.guid :: rest ∧ e = {
      id := r.id
      guid := e.guid
      type := r.type
      name := rest.head?.getD "-"
      attributes := withAttribute "PredefinedType" (predefinedType? r.values)
        (withAttribute "Description" (description? r.values)
          (withAttribute "Name" rest.head? (withAttribute "GlobalId" (some e.guid) ∅)))
      propertySets := propertySets st l r
      materials := l.materials.getD r.id []
      classifications := l.classifications.getD r.id []
      parents := (l.parents.getD r.id []).filterMap (parent? st)
      sourceFile := file } := by
  unfold entity? at h
  split at h
  · next htype =>
    split at h
    · cases h
    · next guid rest hstrings =>
      split at h
      · cases h
      · next hne =>
        cases h
        exact ⟨htype, hne, rest, hstrings, rfl⟩
  · cases h

/-- What an entity has through links. -/
theorem links_of_entity? (h : entity? file st l r = some e) :
    e.propertySets = propertySets st l r ∧ e.materials = l.materials.getD r.id [] ∧
      e.classifications = l.classifications.getD r.id [] ∧
      e.parents = (l.parents.getD r.id []).filterMap (parent? st) := by
  obtain ⟨-, -, rest, -, heq⟩ := eq_of_entity? h
  exact ⟨congrArg Entity.propertySets heq, congrArg Entity.materials heq,
    congrArg Entity.classifications heq, congrArg Entity.parents heq⟩

end Entities

/-! ### Reading -/

/-- The records of a text, in order. -/
def recordsIn (text : List Char) : List Record :=
  (({} : Scan).lines (Text.lines text)).store.list

/-- Every record of a text has been read. -/
theorem exists_read?_of_mem_recordsIn {text : List Char} {r : Record} (h : r ∈ recordsIn text) :
    ∃ line, Record.read? line = some r := by
  have hread : (({} : Scan).lines (Text.lines text)).store.AllRead :=
    Scan.keeps_lines (fun _ _ _ hr hst => hst.push hr) Store.allRead_empty _
  exact hread r h

/-- **The entities of a text are those of its records**, with the links between them. -/
theorem entities_read (n : Nat) (file : String) (text : List Char) :
    (read n file text).entities = (recordsIn text).filterMap
      (entity? file (.ofRecords (recordsIn text)) (.ofRecords (recordsIn text))) := by
  have hstore : (({} : Scan).lines (Text.lines text)).store = .ofRecords (recordsIn text) :=
    Scan.keeps_lines (P := Store.Pushed) (fun _ _ r _ h => h.push r) (Store.pushed_ofRecords []) _
  rw [read_of_scan n file rfl]
  simp only [hstore, Store.list_ofRecords]
  rfl

/-- An entity of a text is that of one of its records. -/
theorem mem_entities_read {n : Nat} {file : String} {text : List Char} {e : Entity} :
    e ∈ (read n file text).entities ↔ ∃ r ∈ recordsIn text,
      entity? file (.ofRecords (recordsIn text)) (.ofRecords (recordsIn text)) r = some e := by
  rw [entities_read, List.mem_filterMap]

/-- Every record of an object with a GUID gives an entity. -/
theorem exists_mem_entities_read {text : List Char} {r : Record} {guid : String}
    (hr : r ∈ recordsIn text) (htype : isObjectType r.type = true)
    (hguid : r.strings.head? = some guid) (hne : guid ≠ "") (n : Nat) (file : String) :
    ∃ e ∈ (read n file text).entities, e.id = r.id := by
  have hsome :
      (entity? file (.ofRecords (recordsIn text)) (.ofRecords (recordsIn text)) r).isSome :=
    isSome_entity?_iff.2 ⟨htype, guid, hguid, hne⟩
  obtain ⟨e, he⟩ := Option.isSome_iff_exists.1 hsome
  exact ⟨e, mem_entities_read.2 ⟨r, hr, he⟩, id_of_entity? he⟩

end BimAudit.Ifc
