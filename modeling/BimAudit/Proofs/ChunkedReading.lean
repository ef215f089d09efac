import BimAudit.Ifc.Reader

/-!
# The chunk size does not matter

A reader cuts each of its three phases into chunks. What it makes of a text can be said without
chunks: all lines are scanned, then all records are resolved, then all are assembled. From every
state on, the model that a reader hands out is the one that this makes of what is left.

* `Reader.outcome`: the model that a reader is heading for, with nothing cut into chunks.
* `Reader.outcome_of_advance`: no step changes it.
* `Reader.run_eq_outcome`, `Reader.runObserved_eq`: it is handed out in the end, unless an observer
  stops the reader.
* `read_of_scan`: so a model is made of what the scan of all lines leaves.
* `read_of_any_chunkSize`: **the chunk size does not matter, and observers see every step until they
  stop the reader.**
-/

namespace BimAudit.Ifc

open Step (Record)

/-- The records of a store, in order. -/
def Store.list (st : Store) : List Record := st.records.toList

theorem Store.length_list (st : Store) : st.list.length = st.size := by
  unfold Store.list Store.size
  exact Array.length_toList

theorem Store.slice_eq (st : Store) (first last : Nat) :
    st.slice first last = (st.list.drop first).take (last - first) := by
  unfold Store.slice Store.list
  rw [Array.toList_extract, List.extract_eq_take_drop]

namespace Reader

/-- The records that the current phase has not dealt with. -/
def remaining (r : Reader) : List Record := r.store.list.drop r.cursor

/-- What remains behind the next chunk. -/
theorem remaining_eq (r : Reader) :
    r.remaining = r.chunk r.chunkEnd ++ r.store.list.drop r.chunkEnd := by
  have hle : r.chunkEnd ≤ r.cursor + r.chunkSize := Nat.min_le_left _ _
  unfold remaining chunk
  rw [Store.slice_eq]
  rcases Nat.le_total r.cursor r.chunkEnd with h | h
  · have hd : r.store.list.drop r.chunkEnd
        = (r.store.list.drop r.cursor).drop (r.chunkEnd - r.cursor) := by
      rw [List.drop_drop, Nat.add_sub_cancel' h]
    rw [hd, List.take_append_drop]
  · -- the cursor is behind the last record
    have hs : r.store.list.length ≤ r.chunkEnd := by
      have hpos := r.chunkSize_pos
      rw [Store.length_list]
      unfold chunkEnd at h ⊢
      omega
    rw [Nat.sub_eq_zero_of_le h, List.take_zero, List.nil_append, List.drop_eq_nil_of_le hs,
      List.drop_eq_nil_of_le (Nat.le_trans hs h)]

/-- The last chunk is all that remains. -/
theorem remaining_eq_chunk {r : Reader} (h : ¬r.chunkEnd < r.store.size) :
    r.remaining = r.chunk r.chunkEnd := by
  have hs : r.store.list.length ≤ r.chunkEnd := by rw [Store.length_list]; omega
  rw [remaining_eq, List.drop_eq_nil_of_le hs, List.append_nil]

/-- The model that some records and links make, on top of the entities that there are. -/
def assembled (r : Reader) (sc : Scan) (links : Links) (todo : List Record) : Model :=
  ⟨r.fileName, sc.schema, r.entities ++ todo.filterMap (entity? r.fileName sc.store links)⟩

/-- The model that some records make once they are resolved. -/
def resolved (r : Reader) (sc : Scan) (todo : List Record) : Model :=
  r.assembled sc (todo.foldl (Links.resolve sc.store) r.links) sc.store.list

/-- The model that a reader is heading for: each phase deals with all that is left at once. -/
def outcome (r : Reader) : Model :=
  match r.phase with
  | .scan => r.resolved (r.scan.lines r.lines).finish (r.scan.lines r.lines).finish.store.list
  | .resolve => r.resolved r.scan r.remaining
  | .assemble => r.assembled r.scan r.links r.remaining

/-- Before the scan is done the outcome is that of all lines to come. -/
theorem outcome_of_scan {r : Reader} (h : r.phase = .scan) :
    r.outcome = r.resolved (r.scan.lines r.lines).finish
      (r.scan.lines r.lines).finish.store.list := by
  unfold outcome
  rw [h]

theorem outcome_of_resolve {r : Reader} (h : r.phase = .resolve) :
    r.outcome = r.resolved r.scan r.remaining := by
  unfold outcome
  rw [h]

theorem outcome_of_assemble {r : Reader} (h : r.phase = .assemble) :
    r.outcome = r.assembled r.scan r.links r.remaining := by
  unfold outcome
  rw [h]

theorem lines_append (s : Scan) (ls ms : List (List Char)) :
    s.lines (ls ++ ms) = (s.lines ls).lines ms := by
  unfold Scan.lines
  rw [List.foldl_append]

/-- What the model is that a status tells of, if the reader goes on from `r'`. -/
def modelOf : Status → Reader → Model
  | .pending _, r' => r'.outcome
  | .done m, _ => m

/-- **A chunk of the scan keeps the outcome**, and so does the step to the next phase. -/
theorem modelOf_scanChunk {r : Reader} (hp : r.phase = .scan) (linesRead : Nat) :
    modelOf (r.scanChunk linesRead).1 (r.scanChunk linesRead).2 = r.outcome := by
  rw [outcome_of_scan hp]
  unfold scanChunk
  split
  · next hlt =>
    -- the lines run out: nothing of them is left behind the chunk
    rw [List.take_of_length_le (Nat.le_of_lt hlt)]
    rfl
  · have hsplit : (r.scan.lines (r.lines.take r.chunkSize)).lines (r.lines.drop r.chunkSize)
        = r.scan.lines r.lines := by
      rw [← lines_append, List.take_append_drop]
    simp only [modelOf]
    rw [outcome_of_scan (by exact hp), hsplit]
    rfl

/-- **A chunk of resolved links keeps the outcome**, and so does the step to the next phase. -/
theorem modelOf_resolveChunk {r : Reader} (hp : r.phase = .resolve) :
    modelOf (r.resolveChunk r.chunkEnd).1 (r.resolveChunk r.chunkEnd).2 = r.outcome := by
  rw [outcome_of_resolve hp]
  unfold resolveChunk
  simp only [modelOf]
  split
  · -- the links of this chunk are there for the next one
    rw [outcome_of_resolve (by exact hp), remaining_eq r]
    unfold resolved
    rw [List.foldl_append]
    rfl
  · next hlast =>
    rw [outcome_of_assemble rfl, remaining_eq_chunk hlast]
    rfl

/-- **A chunk of entities keeps the outcome**, and hands it out at the end. -/
theorem modelOf_assembleChunk {r : Reader} (hp : r.phase = .assemble) :
    modelOf (r.assembleChunk r.chunkEnd).1 (r.assembleChunk r.chunkEnd).2 = r.outcome := by
  rw [outcome_of_assemble hp]
  unfold assembleChunk
  simp only
  split
  · simp only [modelOf]
    rw [outcome_of_assemble (by exact hp), remaining_eq r]
    unfold assembled
    rw [List.filterMap_append, ← List.append_assoc]
    rfl
  · next hlast =>
    rw [remaining_eq_chunk hlast]
    rfl

/-- **No step changes the model that the reader is heading for.** -/
theorem outcome_of_advance (r : Reader) : modelOf r.advance.1 r.advance.2 = r.outcome := by
  cases hp : r.phase with
  | scan =>
    rw [advance_of_scan hp]
    exact modelOf_scanChunk hp _
  | resolve =>
    rw [advance_of_resolve hp]
    exact modelOf_resolveChunk hp
  | assemble =>
    rw [advance_of_assemble hp]
    exact modelOf_assembleChunk hp

theorem outcome_of_pending {r r' : Reader} {p : Progress} (h : r.advance = (.pending p, r')) :
    r'.outcome = r.outcome := by
  rw [← outcome_of_advance r, h]
  rfl

theorem outcome_of_done {r r' : Reader} {m : Model} (h : r.advance = (.done m, r')) :
    r.outcome = m := by
  rw [← outcome_of_advance r, h]
  rfl

/-- **A run hands out the outcome.** The induction is on the work that is left. -/
theorem run_eq_outcome (r : Reader) : r.run = r.outcome := by
  fun_induction run r with
  | case1 r m r' h => rw [outcome_of_done h]
  | case2 r p r' h ih => rw [ih, outcome_of_pending h]

/-- The outcome does not depend on the size of chunks. -/
theorem outcome_ofText (m n : Nat) (fileName : String) (text : List Char) :
    (ofText m fileName text).outcome = (ofText n fileName text).outcome := rfl

/-! ### Observers -/

/-- What the steps before the last one report, in order. -/
def progresses (r : Reader) : List Progress :=
  match _h : r.advance with
  | (.done _, _) => []
  | (.pending p, r') => p :: r'.progresses
termination_by (r.phasesLeft, r.workLeft)
decreasing_by exact advance_pending_decreases _h

/-- The first steps are the pending ones, and the next one hands out the model. -/
theorem statuses_eq (r : Reader) :
    r.statuses (r.progresses.length + 1) = r.progresses.map .pending ++ [.done r.run] := by
  fun_induction progresses r with
  | case1 r m r' h =>
    have hrun : r.run = m := by rw [run_eq_outcome, outcome_of_done h]
    simp [statuses, h, hrun]
  | case2 r p r' h ih =>
    have hrun : r.run = r'.run := by rw [run_eq_outcome, run_eq_outcome, outcome_of_pending h]
    rw [List.length_cons, statuses, h, ih, hrun]
    rfl

/-- Shows some progress to an observer until it asks to stop, and says whether it did. -/
def showAll {σ : Type} (observe : σ → Progress → σ × Bool) (s : σ) : List Progress → σ × Bool
  | [] => (s, false)
  | p :: ps =>
    if (observe s p).2 then ((observe s p).1, true) else showAll observe (observe s p).1 ps

/-- A reader shows its progress in order, and hands out its model unless it is stopped. -/
theorem runObserved_eq {σ : Type} (observe : σ → Progress → σ × Bool) (s : σ) (r : Reader) :
    r.runObserved observe s = ((showAll observe s r.progresses).1,
      if (showAll observe s r.progresses).2 then none else some r.run) := by
  fun_induction progresses r generalizing s with
  | case1 r m r' h =>
    have hrun : r.run = m := by rw [run_eq_outcome, outcome_of_done h]
    rw [runObserved]
    split
    · next m' r'' h' =>
      rw [h] at h'
      cases h'
      rw [hrun]
      rfl
    · next p r'' h' =>
      rw [h] at h'
      cases h'
  | case2 r p r' h ih =>
    have hrun : r.run = r'.run := by rw [run_eq_outcome, run_eq_outcome, outcome_of_pending h]
    rw [runObserved]
    split
    · next m' r'' h' =>
      rw [h] at h'
      cases h'
    · next p' r'' h' =>
      rw [h] at h'
      cases h'
      split
      · next s' ho => simp [showAll, ho]
      · next s' ho => rw [ih s', hrun]; simp [showAll, ho]

/-- An observer that never breaks off is shown everything. -/
theorem showAll_of_never {σ : Type} (f : σ → Progress → σ) (s : σ) (ps : List Progress) :
    showAll (fun s p => (f s p, false)) s ps = (ps.foldl f s, false) := by
  induction ps generalizing s with
  | nil => rfl
  | cons p ps ih => exact ih (f s p)

/-- An observer that counts its calls and asks to stop at call number `k`, the first one being
number one; `f` is what it does with the progress that it sees. -/
def stopAt {σ : Type} (k : Nat) (f : σ → Progress → σ) (s : σ × Nat) (p : Progress) :
    (σ × Nat) × Bool :=
  ((f s.1 p, s.2 + 1), s.2 + 1 = k)

/-- With `n` calls behind it, an observer that stops `k + 1` calls later sees the next `k + 1`
values if there are so many. -/
theorem showAll_stopAt {σ : Type} (f : σ → Progress → σ) (s : σ) (n k : Nat)
    (ps : List Progress) :
    (showAll (stopAt (n + k + 1) f) (s, n) ps).1.1 = (ps.take (k + 1)).foldl f s ∧
      (showAll (stopAt (n + k + 1) f) (s, n) ps).2 = decide (k + 1 ≤ ps.length) := by
  induction ps generalizing s n k with
  | nil => simp [showAll]
  | cons p ps ih =>
    cases k with
    | zero => simp [showAll, stopAt]
    | succ k =>
      have hk : n + (k + 1) + 1 = n + 1 + k + 1 := by omega
      have hne : n ≠ n + 1 + k := by omega
      have h := ih (f s p) (n + 1) k
      rw [hk]
      simpa [showAll, stopAt, hne] using h

end Reader

/-- **Reading without chunks:** a model is made of what is left when all lines have been scanned. -/
theorem read_of_scan (n : Nat) (file : String) {text : List Char} {s : Scan}
    (hs : ({} : Scan).lines (Text.lines text) = s) : read n file text = {
      fileName := file
      schema := s.schema
      entities := s.store.list.filterMap
        (entity? file s.store (s.store.list.foldl (Links.resolve s.store) {})) } := by
  subst hs
  unfold read
  rw [Reader.run_eq_outcome, Reader.outcome_of_scan rfl]
  rfl

/-- **The chunk size does not matter.** Read in chunks of any two sizes, a text holds the same
model; an observer that never asks to stop gets it too. The steps report some progress until the
last one hands out the model. An observer that stops at its call number `k + 1` gets no model if
and only if so many steps report progress, and it has seen the first `k + 1` of these reports. -/
theorem read_of_any_chunkSize (m n : Nat) (fileName : String) (text : List Char) :
    read m fileName text = read n fileName text ∧
      (∀ {σ : Type} (f : σ → Progress → σ) (s : σ),
        (readObserved (fun s p => (f s p, false)) s m fileName text).2
          = some (read n fileName text)) ∧
      ∃ ps : List Progress,
        (Reader.ofText m fileName text).statuses (ps.length + 1)
          = ps.map .pending ++ [.done (read n fileName text)] ∧
        ∀ {σ : Type} (f : σ → Progress → σ) (s : σ) (k : Nat),
          (readObserved (Reader.stopAt (k + 1) f) (s, 0) m fileName text).2
            = (if k + 1 ≤ ps.length then none else some (read n fileName text)) ∧
          (readObserved (Reader.stopAt (k + 1) f) (s, 0) m fileName text).1.1
            = (ps.take (k + 1)).foldl f s := by
  have hread : read m fileName text = read n fileName text := by
    unfold read
    rw [Reader.run_eq_outcome, Reader.run_eq_outcome, Reader.outcome_ofText m n]
  refine ⟨hread, ?_, (Reader.ofText m fileName text).progresses, ?_, ?_⟩
  · intro σ f s
    unfold readObserved
    rw [Reader.runObserved_eq, Reader.showAll_of_never, ← hread]
    rfl
  · rw [Reader.statuses_eq, ← hread]
    rfl
  · intro σ f s k
    obtain ⟨hseen, hstop⟩ :=
      Reader.showAll_stopAt f s 0 k (Reader.ofText m fileName text).progresses
    rw [Nat.zero_add] at hseen hstop
    unfold readObserved
    rw [Reader.runObserved_eq, hseen, hstop, ← hread]
    simp [read]

end BimAudit.Ifc
