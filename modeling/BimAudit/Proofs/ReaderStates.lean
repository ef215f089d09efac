import BimAudit.Proofs.ReadRecords
import BimAudit.Proofs.ReadingSteps
import BimAudit.Proofs.TextPlaces

/-!
# The states of a reader

A reader may be asked for any number of steps, also behind the one that hands out the model. In each
state that it comes to, the index of its store leads from every id to the last record that bears it,
so a record may be taken from its position without a look at whether there is one. The store grows
while lines are scanned, stays as it is while its records are dealt with, and is empty from the
moment when the model has been handed out.

* `Store.WellIndexed`: what the index of a store has to do with its records. `WellIndexed.push`: a
  record that is added keeps it.
* `Store.lookUp`: taking a record from its position unseen. `WellIndexed.lookUp_eq`: this finds the
  last record with an id, and never fails.
* `Reader.after`, `Reader.HandedOut`: a reader after some steps, and whether its model is gone.
* `Reader.AtWork`, `Reader.Emptied`: where a reader stands before and after. `AtWork.advance`,
  `Emptied.advance`: what one step makes of it. `atWork_or_emptied`: what any number of steps do.
* `index_of_reached`: **the index is right in every state**, and when the store may change.
-/

namespace BimAudit.Ifc

open Step (Record)
open Text (Misstep require)

/-! ### The index of a store -/

namespace Store

variable {st : Store}

/-- At this position stands the last record with an id. -/
structure IsLast (st : Store) (id i : Nat) : Prop where
  bears : ∃ r, st.records[i]? = some r ∧ r.id = id
  last : ∀ j r, i < j → st.records[j]? = some r → r.id ≠ id

/-- The index knows the ids of the records and no others, and leads to the last record with each. -/
structure WellIndexed (st : Store) : Prop extends st.Indexed where
  mem_index : ∀ id, id ∈ st.index ↔ ∃ r ∈ st.list, r.id = id
  isLast : ∀ id i, st.index[id]? = some i → st.IsLast id i

/-- The record with an id, taken from its position unseen. -/
def lookUp (st : Store) (id : Nat) : Except Misstep (Option Record) :=
  match st.index[id]? with
  | none => .ok none
  | some i => (require .place st.records[i]?).map some

theorem wellIndexed_empty : ({} : Store).WellIndexed where
  toIndexed := indexed_empty
  mem_index := by
    intro id
    simp [list]
  isLast := by
    intro id i hi
    simp at hi

/-- The last record with an identifier stays so when another one is pushed. -/
theorem IsLast.push {id i : Nat} (h : st.IsLast id i) {r : Record} (hne : r.id ≠ id) :
    (st.push r).IsLast id i := by
  obtain ⟨q, hq, hid⟩ := h.bears
  have hi : i < st.records.size := (Array.getElem?_eq_some_iff.1 hq).1
  refine ⟨⟨q, ?_, hid⟩, ?_⟩
  · unfold Store.push
    rw [Array.getElem?_push_lt hi, ← hq, Array.getElem?_eq_getElem hi]
  · intro j p hj hp
    unfold Store.push at hp
    rw [Array.getElem?_push] at hp
    split at hp
    · cases hp
      exact hne
    · exact h.last j p hj hp

/-- A record that is pushed is the last one with its identifier. -/
theorem isLast_push (st : Store) (r : Record) : (st.push r).IsLast r.id st.records.size := by
  refine ⟨⟨r, ?_, rfl⟩, ?_⟩
  · simp [push]
  · intro j p hj hp
    have hlt : j < (st.push r).records.size := (Array.getElem?_eq_some_iff.1 hp).1
    unfold push at hlt
    rw [Array.size_push] at hlt
    omega

/-- **A record that is added keeps the index right.** Its id now leads to it, and every other id to
where it led before. -/
theorem WellIndexed.push (h : st.WellIndexed) (r : Record) : (st.push r).WellIndexed where
  toIndexed := h.toIndexed.push r
  mem_index := by
    intro id
    have hmem : id ∈ (st.push r).index ↔ r.id = id ∨ id ∈ st.index := by
      unfold Store.push
      rw [Std.HashMap.mem_insert, beq_iff_eq]
    rw [hmem, h.mem_index, list_push]
    constructor
    · rintro (rfl | ⟨q, hq, hid⟩)
      · exact ⟨r, List.mem_append_right _ List.mem_cons_self, rfl⟩
      · exact ⟨q, List.mem_append_left _ hq, hid⟩
    · rintro ⟨q, hq, hid⟩
      rcases List.mem_append.1 hq with hq | hq
      · exact .inr ⟨q, hq, hid⟩
      · rw [List.mem_singleton] at hq
        subst hq
        exact .inl hid
  isLast := by
    intro id i hi
    rw [getElem?_index_push] at hi
    split at hi
    · next hid =>
      cases hi
      subst hid
      exact st.isLast_push r
    · next hne => exact (h.isLast id i hi).push hne

/-- **Taking a record from its position never fails**, and finds the last one with the id. -/
theorem WellIndexed.lookUp_eq (h : st.WellIndexed) (id : Nat) :
    st.lookUp id = .ok (lastWith st.list id) := by
  rw [← h.find id]
  unfold lookUp find?
  cases hi : st.index[id]? with
  | none => rfl
  | some i =>
    have hlt := h.lt id i hi
    simp only [Option.bind_some, Array.getElem?_eq_getElem hlt]
    rfl

end Store

/-- The status hands out a model. -/
def Status.isDone : Status → Bool
  | .pending _ => false
  | .done _ => true

namespace Reader

variable {r : Reader} {c n : Nat} {st : Store}

/-! ### Any number of steps -/

/-- The reader after some steps, also after steps behind the last one. -/
def after : Nat → Reader → Reader
  | 0, r => r
  | n + 1, r => after n r.advance.2

/-- One of the first steps hands out the model. -/
def HandedOut (n : Nat) (r : Reader) : Prop := ∃ m, Status.done m ∈ r.statuses n

instance (n : Nat) (r : Reader) : Decidable (r.HandedOut n) :=
  decidable_of_iff ((r.statuses n).any Status.isDone = true) <| by
    rw [List.any_eq_true]
    constructor
    · rintro ⟨status, hmem, hdone⟩
      cases status with
      | pending p => cases hdone
      | done m => exact ⟨m, hmem⟩
    · rintro ⟨m, hmem⟩
      exact ⟨.done m, hmem, rfl⟩

theorem after_succ (n : Nat) (r : Reader) : r.after (n + 1) = (r.after n).advance.2 := by
  induction n generalizing r with
  | zero => rfl
  | succ n ih => exact ih r.advance.2

theorem statuses_concat (n : Nat) (r : Reader) :
    r.statuses (n + 1) = r.statuses n ++ [(r.after n).advance.1] := by
  induction n generalizing r with
  | zero => rfl
  | succ n ih =>
    have h := ih r.advance.2
    rw [statuses, h]
    rfl

theorem not_handedOut_zero (r : Reader) : ¬ r.HandedOut 0 := by
  rintro ⟨m, hm⟩
  cases hm

/-- A model has been handed out if the last step has done so or one before. -/
theorem handedOut_succ : r.HandedOut (n + 1) ↔
    r.HandedOut n ∨ ∃ m, (r.after n).advance.1 = .done m := by
  unfold HandedOut
  rw [statuses_concat]
  constructor
  · rintro ⟨m, hm⟩
    rcases List.mem_append.1 hm with hm | hm
    · exact .inl ⟨m, hm⟩
    · exact .inr ⟨m, (List.mem_singleton.1 hm).symm⟩
  · rintro (⟨m, hm⟩ | ⟨m, hm⟩)
    · exact ⟨m, List.mem_append_left _ hm⟩
    · exact ⟨m, List.mem_append_right _ (List.mem_singleton.2 hm.symm)⟩

/-! ### One step -/

theorem fileName_advance (r : Reader) : r.advance.2.fileName = r.fileName := by
  unfold advance stepTo scanChunk resolveChunk assembleChunk
  simp only
  split <;> split <;> rfl

/-- A step adds to the store what the lines of a chunk hold, or it leaves the store as it is, or it
empties the store. -/
theorem store_advance (r : Reader) : (∃ ls, r.advance.2.store = (r.scan.lines ls).store) ∨
    r.advance.2.store = r.store ∨ r.advance.2.store = {} := by
  cases hp : r.phase with
  | scan =>
    rw [advance_of_scan hp]
    unfold scanChunk
    simp only
    split <;> exact .inl ⟨_, rfl⟩
  | resolve =>
    rw [advance_of_resolve hp]
    unfold resolveChunk
    simp only
    split <;> exact .inr (.inl rfl)
  | assemble =>
    rw [advance_of_assemble hp]
    unfold assembleChunk
    simp only
    split
    · exact .inr (.inl rfl)
    · exact .inr (.inr rfl)

/-- **No step spoils the index.** -/
theorem wellIndexed_advance (h : r.store.WellIndexed) : r.advance.2.store.WellIndexed := by
  rcases r.store_advance with ⟨ls, hls⟩ | hsame | hempty
  · rw [hls]
    exact Scan.keeps_lines (P := Store.WellIndexed) (fun _ _ q _ hst => hst.push q) h ls
  · rw [hsame]
    exact h
  · rw [hempty]
    exact Store.wellIndexed_empty

/-- A reader that has not handed out its model, with `c` lines or records in a chunk: it scans
lines, which together with those behind it give the store `st`, or it deals with the records of
`st`. In the second case it stands at the first record or a chunk at least behind it, and never at
the end. -/
inductive AtWork (c : Nat) (st : Store) (r : Reader) : Prop where
  | scanning (chunkSize : r.chunkSize = c) (phase : r.phase = .scan) (cursor : r.cursor = 0)
    (store : (r.scan.lines r.lines).store = st)
  | working (chunkSize : r.chunkSize = c) (phase : r.phase ≠ .scan) (store : r.store = st)
    (cursor : r.cursor = 0 ∨ c ≤ r.cursor ∧ r.cursor < st.size)

/-- A reader that has handed out its model and keeps nothing of it. -/
structure Emptied (c : Nat) (r : Reader) : Prop where
  chunkSize : r.chunkSize = c
  phase : r.phase = .assemble
  store : r.store = {}
  schema : r.scan.schema = ""
  entities : r.entities = []

theorem AtWork.chunkSize_eq (h : r.AtWork c st) : r.chunkSize = c := by
  cases h with
  | scanning chunkSize => exact chunkSize
  | working chunkSize => exact chunkSize

/-- Where a chunk ends that is not the last one. -/
theorem cursor_of_chunkEnd_lt (hc : r.chunkSize = c) (hst : r.store = st)
    (hlt : r.chunkEnd < st.size) : c ≤ r.chunkEnd ∧ r.chunkEnd < st.size := by
  have hend : r.chunkEnd = min (r.cursor + c) st.size := by
    unfold chunkEnd
    rw [hc, hst]
  omega

/-- A chunk of the scan leaves the reader at work. -/
theorem atWork_scanChunk (hc : r.chunkSize = c) (hp : r.phase = .scan) (h0 : r.cursor = 0)
    (hst : (r.scan.lines r.lines).store = st) (linesRead : Nat) :
    (∃ p, (r.scanChunk linesRead).1 = .pending p) ∧ (r.scanChunk linesRead).2.AtWork c st := by
  unfold scanChunk
  simp only
  split
  · next hlt =>
    -- the lines run out: all of them have been scanned
    have htake : r.lines.take r.chunkSize = r.lines :=
      List.take_of_length_le (Nat.le_of_lt hlt)
    rw [htake]
    refine ⟨⟨_, rfl⟩, .working hc ?_ hst (.inl rfl)⟩
    intro h
    cases h
  · refine ⟨⟨_, rfl⟩, .scanning hc hp h0 ?_⟩
    simp only
    rw [← lines_append, List.take_append_drop]
    exact hst

/-- A chunk of resolved links leaves the reader at work. -/
theorem atWork_resolveChunk (hc : r.chunkSize = c) (hp : r.phase = .resolve)
    (hst : r.store = st) : (∃ p, (r.resolveChunk r.chunkEnd).1 = .pending p) ∧
      (r.resolveChunk r.chunkEnd).2.AtWork c st := by
  unfold resolveChunk
  simp only [hst]
  split
  · next hlt =>
    refine ⟨⟨_, rfl⟩, .working hc ?_ hst (.inr (cursor_of_chunkEnd_lt hc hst hlt))⟩
    simp only [hp]
    intro h
    cases h
  · refine ⟨⟨_, rfl⟩, .working hc ?_ hst (.inl rfl)⟩
    intro h
    cases h

/-- **A chunk of entities** leaves the reader at work, or hands the model out and empties the store.
-/
theorem atWork_assembleChunk (hc : r.chunkSize = c) (hp : r.phase = .assemble)
    (hst : r.store = st) :
    ((∃ p, (r.assembleChunk r.chunkEnd).1 = .pending p) ∧
        (r.assembleChunk r.chunkEnd).2.AtWork c st) ∨
      (∃ m, (r.assembleChunk r.chunkEnd).1 = .done m) ∧
        (r.assembleChunk r.chunkEnd).2.Emptied c ∧
        (r.assembleChunk r.chunkEnd).2.cursor = st.size := by
  unfold assembleChunk
  simp only [hst]
  split
  · next hlt =>
    refine .inl ⟨⟨_, rfl⟩, .working hc ?_ hst (.inr (cursor_of_chunkEnd_lt hc hst hlt))⟩
    simp only [hp]
    intro h
    cases h
  · next hlast =>
    have hle : r.chunkEnd ≤ st.size := by
      rw [← hst]
      exact Nat.min_le_right _ _
    refine .inr ⟨⟨_, rfl⟩, ⟨hc, hp, rfl, rfl, rfl⟩, ?_⟩
    simp only
    omega

/-- **A step of a reader at work** goes on with the work, or it hands out the model and leaves the
cursor behind the last record. -/
theorem AtWork.advance (h : r.AtWork c st) :
    ((∃ p, r.advance.1 = .pending p) ∧ r.advance.2.AtWork c st) ∨
      (∃ m, r.advance.1 = .done m) ∧ r.advance.2.Emptied c ∧ r.advance.2.cursor = st.size := by
  cases h with
  | scanning hc hp h0 hst =>
    rw [advance_of_scan hp]
    exact .inl (atWork_scanChunk hc hp h0 hst _)
  | working hc hp hst hcursor =>
    cases hphase : r.phase with
    | scan => exact absurd hphase hp
    | resolve =>
      rw [advance_of_resolve hphase]
      exact .inl (atWork_resolveChunk hc hphase hst)
    | assemble =>
      rw [advance_of_assemble hphase]
      exact atWork_assembleChunk hc hphase hst

/-- **A step of an emptied reader** hands out an empty model and brings the cursor back to the
beginning. -/
theorem Emptied.advance (h : r.Emptied c) :
    r.advance.1 = .done ⟨r.fileName, "", []⟩ ∧ r.advance.2.Emptied c ∧ r.advance.2.cursor = 0 := by
  have hsize : r.store.size = 0 := by
    rw [h.store]
    rfl
  have hend : r.chunkEnd = 0 := by
    unfold chunkEnd
    omega
  have hchunk : r.chunk 0 = [] := by
    unfold chunk
    rw [h.store, Store.slice_eq]
    exact List.take_eq_nil_of_eq_nil (by simp [Store.list])
  rw [advance_of_assemble h.phase]
  unfold assembleChunk
  rw [hend, hsize, hchunk, h.schema, h.entities]
  exact ⟨rfl, ⟨h.chunkSize, h.phase, rfl, rfl, rfl⟩, rfl⟩

/-! ### All states -/

variable (chunkSize : Nat) (fileName : String) (text : List Char)

/-- What the scan of a whole text leaves in the store. -/
def wholeStore (text : List Char) : Store := (({} : Scan).lines (Text.lines text)).store

/-- **Where a reader of a text stands after any number of steps.** Until the model is handed out it
is at work. From then on it is empty, and its cursor is at the beginning but for the state between
the step that hands out the model and the next one: there it still stands behind the last record. -/
theorem atWork_or_emptied (n : Nat) :
    let start := ofText chunkSize fileName text
    (¬ start.HandedOut n ∧ (start.after n).AtWork (max chunkSize 1) (wholeStore text)) ∨
      start.HandedOut n ∧ (start.after n).Emptied (max chunkSize 1) ∧
        (start.HandedOut (n - 1) → (start.after n).cursor = 0) ∧
        (¬ start.HandedOut (n - 1) → (start.after n).cursor = (wholeStore text).size) := by
  intro start
  induction n with
  | zero => exact .inl ⟨not_handedOut_zero start, .scanning rfl rfl rfl rfl⟩
  | succ n ih =>
    rw [after_succ, Nat.add_sub_cancel]
    rcases ih with ⟨hnot, hwork⟩ | ⟨hout, hempty, -, -⟩
    · rcases hwork.advance with ⟨⟨p, hp⟩, hwork'⟩ | ⟨hdone, hempty, hcursor⟩
      · refine .inl ⟨?_, hwork'⟩
        rw [handedOut_succ]
        rintro (hout | ⟨m, hm⟩)
        · exact hnot hout
        · rw [hp] at hm
          cases hm
      · exact .inr ⟨handedOut_succ.2 (.inr hdone), hempty, fun hout => absurd hout hnot,
          fun _ => hcursor⟩
    · obtain ⟨-, hempty', hcursor⟩ := hempty.advance
      exact .inr ⟨handedOut_succ.2 (.inl hout), hempty', fun _ => hcursor,
        fun hnot => absurd hout hnot⟩

/-- The store is well indexed after every number of steps. -/
theorem wellIndexed_after (n : Nat) :
    ((ofText chunkSize fileName text).after n).store.WellIndexed := by
  induction n with
  | zero => exact Store.wellIndexed_empty
  | succ n ih =>
    rw [after_succ]
    exact wellIndexed_advance ih

end Reader

open Reader in
/-- **The index is right in every state of a reader**, after any number of steps in chunks of any
size, whatever the text is. It knows the ids of the records and no others, and leads from each to
the last record that bears it; so a record can be taken from its position unseen, and this is the
last one with the id. From the end of scanning until the model is handed out the store is that of
the whole text all the time, and from then on it is empty. -/
theorem index_of_reached (chunkSize : Nat) (fileName : String) (text : List Char) (n : Nat) :
    let start := ofText chunkSize fileName text
    let r := start.after n
    (∀ id, id ∈ r.store.index ↔ ∃ q ∈ r.store.list, q.id = id) ∧
    (∀ id i, r.store.index[id]? = some i → i < r.store.size ∧ r.store.IsLast id i) ∧
    (∀ id, r.store.lookUp id = .ok (lastWith r.store.list id)) ∧
    (r.phase ≠ .scan → ¬ start.HandedOut n → r.store = wholeStore text) ∧
    (start.HandedOut n → r.store.list = [] ∧ r.store.index.isEmpty = true) := by
  intro start r
  have hindex : r.store.WellIndexed := wellIndexed_after chunkSize fileName text n
  have hstands := atWork_or_emptied chunkSize fileName text n
  refine ⟨hindex.mem_index, ?_, hindex.lookUp_eq, ?_, ?_⟩
  · intro id i hi
    exact ⟨hindex.lt id i hi, hindex.isLast id i hi⟩
  · intro hphase hnot
    rcases hstands with ⟨-, hwork⟩ | ⟨hout, -⟩
    · cases hwork with
      | scanning _ hscan => exact absurd hscan hphase
      | working _ _ hst => exact hst
    · exact absurd hout hnot
  · intro hout
    rcases hstands with ⟨hnot, -⟩ | ⟨-, hempty, -⟩
    · exact absurd hout hnot
    · rw [hempty.store]
      exact ⟨rfl, Std.HashMap.isEmpty_empty⟩

/-- A text with a line that is no record and with an id that is given twice. -/
def twiceNumbered : List Char :=
  "#1=IFCWALL('W1');\n#2=IFCSLAB;\n#2=IFCSLAB('S1');\n#1=IFCDOOR('D1');\n".toList

open Reader in
/-- In chunks of two the lines take three steps, the records are in hand behind the fourth, and the
seventh hands out the model. -/
theorem index_of_reached_twiceNumbered :
    let start := ofText 2 "a.ifc" twiceNumbered
    (start.after 4).phase ≠ .scan ∧ ¬ start.HandedOut 4 ∧
      (start.after 4).store = wholeStore twiceNumbered ∧
      (start.after 4).store.lookUp 1 = .ok (some ⟨1, "IFCDOOR", "'D1'".toList⟩) ∧
      start.HandedOut 7 ∧ (start.after 7).store.list = [] := by
  intro start
  have hphase : (start.after 4).phase ≠ .scan := by decide +kernel
  have hnot : ¬ start.HandedOut 4 := by decide +kernel
  have hout : start.HandedOut 7 := by decide +kernel
  obtain ⟨-, -, hlookUp, hstore, -⟩ := index_of_reached 2 "a.ifc" twiceNumbered 4
  obtain ⟨-, -, -, -, hempty⟩ := index_of_reached 2 "a.ifc" twiceNumbered 7
  refine ⟨hphase, hnot, hstore hphase hnot, (hlookUp 1).trans ?_, hout, (hempty hout).1⟩
  rw [hstore hphase hnot]
  exact congrArg Except.ok (by decide +kernel)

end BimAudit.Ifc
