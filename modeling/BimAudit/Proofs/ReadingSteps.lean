import Mathlib.Algebra.Order.Floor.Div
import Mathlib.Data.List.Chain
import BimAudit.Proofs.ChunkedReading

/-!
# The steps of a reading

Each phase of a reading deals with whole chunks until less than a chunk is left, and then takes one
more step. The phases end by different rules: scanning when the lines run out within a chunk, so
that a last chunk of full size is followed by an empty one, resolving and assembling when no record
is left behind the chunk. So the number of steps is known beforehand, and so is what they report.

* `Reader.Reports`: what the next steps report, and the state they lead to.
* `Reader.reports_wholeChunks`: the steps of a phase up to its last one, from what one step does.
* `Reader.Scanning`, `Reader.Working`: where a reader stands within a phase, with one lemma for the
  steps that stay in the phase and one for the step that ends it.
* `statuses_of_phases`: **how many steps each phase takes, and how far they come.**
-/

namespace BimAudit.Ifc

/-- The number of records that a text holds. -/
def recordCount (text : List Char) : Nat := (({} : Scan).lines (Text.lines text)).store.size

/-- The reports of a phase: what has been dealt with never becomes less, each step adds a chunk at
most, and the total is the same all the time and never exceeded. -/
structure Advances (phase : Phase) (chunkSize total : Nat) (ps : List Progress) : Prop where
  phase : ∀ p ∈ ps, p.phase = phase
  total : ∀ p ∈ ps, p.total = total
  le_total : ∀ p ∈ ps, p.processed ≤ p.total
  grows : (0 :: ps.map (·.processed)).IsChain fun m n => m ≤ n ∧ n ≤ m + chunkSize

/-- The reports of steps that deal with whole chunks, with `done` lines or records behind them. -/
def wholeChunks (phase : Phase) (chunkSize total done n : Nat) : List Progress :=
  (List.range n).map fun i => ⟨phase, done + (i + 1) * chunkSize, total⟩

variable {phase : Phase} {c total done n bound : Nat}

theorem wholeChunks_succ : wholeChunks phase c total done (n + 1)
    = ⟨phase, done + c, total⟩ :: wholeChunks phase c total (done + c) n := by
  unfold wholeChunks
  rw [List.range_succ_eq_map, List.map_cons, List.map_map]
  refine congrArg₂ List.cons (by rw [Nat.zero_add, Nat.one_mul]) (List.map_congr_left ?_)
  intro i _
  have hsum : done + (i + 1 + 1) * c = done + c + (i + 1) * c := by
    rw [Nat.add_mul (i + 1) 1 c, Nat.one_mul]
    omega
  simp only [Function.comp_apply, Nat.succ_eq_add_one]
  rw [hsum]

theorem length_wholeChunks : (wholeChunks phase c total done n).length = n := by
  unfold wholeChunks
  rw [List.length_map, List.length_range]

/-- Whole chunks come one chunk further with each step. -/
theorem isChain_wholeChunks (phase : Phase) (c total done n : Nat) :
    (done :: (wholeChunks phase c total done n).map (·.processed)).IsChain
      fun m n => m ≤ n ∧ n ≤ m + c := by
  induction n generalizing done with
  | zero => exact .singleton _
  | succ n ih =>
    rw [wholeChunks_succ, List.map_cons]
    exact .cons_cons ⟨Nat.le_add_right done c, le_rfl⟩ (ih (done + c))

/-- After some whole chunks as much is done as they hold. -/
theorem getLast_wholeChunks (phase : Phase) (c total n : Nat) :
    (0 :: (wholeChunks phase c total 0 n).map (·.processed)).getLast? = some (n * c) := by
  cases n with
  | zero => simp [wholeChunks]
  | succ n =>
    unfold wholeChunks
    rw [List.range_succ, List.map_append, List.map_append, List.map_singleton, List.map_singleton,
      ← List.cons_append, List.getLast?_concat]
    simp only
    rw [Nat.zero_add]

/-- Whole chunks that fit into the total. -/
theorem advances_wholeChunks (h : ∀ i < n, (i + 1) * c ≤ total) :
    Advances phase c total (wholeChunks phase c total 0 n) := by
  have hmem : ∀ p ∈ wholeChunks phase c total 0 n, ∃ i < n, p = ⟨phase, (i + 1) * c, total⟩ := by
    intro p hp
    obtain ⟨i, hi, rfl⟩ := List.mem_map.1 hp
    exact ⟨i, List.mem_range.1 hi, by rw [Nat.zero_add]⟩
  refine ⟨?_, ?_, ?_, isChain_wholeChunks phase c total 0 n⟩
  · intro p hp
    obtain ⟨i, -, rfl⟩ := hmem p hp
    rfl
  · intro p hp
    obtain ⟨i, -, rfl⟩ := hmem p hp
    rfl
  · intro p hp
    obtain ⟨i, hi, rfl⟩ := hmem p hp
    exact h i hi

/-- Whole chunks and a last step that comes to the total. -/
theorem advances_concat (h : ∀ i < n, (i + 1) * c ≤ total) (hlast : total ≤ n * c + c) :
    Advances phase c total (wholeChunks phase c total 0 n ++ [⟨phase, total, total⟩]) := by
  have hwhole : Advances phase c total (wholeChunks phase c total 0 n) := advances_wholeChunks h
  have hbefore : n * c ≤ total := by
    cases n with
    | zero => omega
    | succ n => exact h n (Nat.lt_succ_self n)
  have hmem : ∀ p ∈ wholeChunks phase c total 0 n ++ [⟨phase, total, total⟩],
      p ∈ wholeChunks phase c total 0 n ∨ p = ⟨phase, total, total⟩ := by
    intro p hp
    obtain hp | hp := List.mem_append.1 hp
    · exact .inl hp
    · exact .inr (List.mem_singleton.1 hp)
  refine ⟨?_, ?_, ?_, ?_⟩
  · intro p hp
    obtain hp | rfl := hmem p hp
    · exact hwhole.phase p hp
    · rfl
  · intro p hp
    obtain hp | rfl := hmem p hp
    · exact hwhole.total p hp
    · rfl
  · intro p hp
    obtain hp | rfl := hmem p hp
    · exact hwhole.le_total p hp
    · exact le_rfl
  · rw [List.map_append, ← List.cons_append, List.isChain_append]
    refine ⟨hwhole.grows, .singleton _, ?_⟩
    intro m hm k hk
    rw [getLast_wholeChunks] at hm
    cases hm
    cases hk
    exact ⟨hbefore, hlast⟩

namespace Reader

/-! ### Steps that report progress -/

/-- The next steps of the reader report the given progress and lead to another state. -/
inductive Reports : Reader → List Progress → Reader → Prop where
  | nil (r : Reader) : Reports r [] r
  | cons {r r' r'' : Reader} {p : Progress} {ps : List Progress} :
    r.advance = (.pending p, r') → Reports r' ps r'' → Reports r (p :: ps) r''

variable {r r' r'' : Reader} {ps qs : List Progress}

theorem Reports.trans (h : r.Reports ps r') (h' : r'.Reports qs r'') :
    r.Reports (ps ++ qs) r'' := by
  induction h with
  | nil => exact h'
  | cons hstep _ ih => exact .cons hstep (ih h')

theorem Reports.concat {p : Progress} (h : r.Reports ps r')
    (hstep : r'.advance = (.pending p, r'')) :
    r.Reports (ps ++ [p]) r'' := h.trans (.cons hstep (.nil r''))

/-- Behind the steps of which progress is reported come those of the reader that is reached. -/
theorem Reports.statuses (h : r.Reports ps r') (n : Nat) :
    r.statuses (ps.length + n) = ps.map .pending ++ r'.statuses n := by
  induction h with
  | nil => rw [List.length_nil, Nat.zero_add, List.map_nil, List.nil_append]
  | @cons r r' r'' p ps hstep _ ih =>
    have hlen : (p :: ps).length + n = ps.length + n + 1 := by
      rw [List.length_cons]
      omega
    rw [hlen, Reader.statuses, hstep, List.map_cons, List.cons_append]
    simp only
    rw [ih]

/-- The model that the reader is heading for stays the same. -/
theorem Reports.outcome (h : r.Reports ps r') : r'.outcome = r.outcome := by
  induction h with
  | nil => rfl
  | cons hstep _ ih => rw [ih, outcome_of_pending hstep]

/-- **The steps of a phase that deal with whole chunks.** If a step leads from each state with
`done` behind it to one with a chunk more, as long as this is below a bound, then so do several. -/
theorem reports_wholeChunks {At : Nat → Reader → Prop}
    (hstep : ∀ done r, At done r → done + c < bound →
      ∃ r', r.advance = (.pending ⟨phase, done + c, total⟩, r') ∧ At (done + c) r')
    (hr : At done r) (hn : ∀ i < n, done + (i + 1) * c < bound) :
    ∃ r', r.Reports (wholeChunks phase c total done n) r' ∧ At (done + n * c) r' := by
  induction n generalizing done r with
  | zero =>
    rw [Nat.zero_mul, Nat.add_zero]
    exact ⟨r, .nil r, hr⟩
  | succ n ih =>
    have hfirst : done + c < bound := by
      have h := hn 0 (Nat.succ_pos n)
      rwa [Nat.zero_add, Nat.one_mul] at h
    obtain ⟨r', hr', hat⟩ := hstep done r hr hfirst
    have hrest : ∀ i < n, done + c + (i + 1) * c < bound := by
      intro i hi
      have h := hn (i + 1) (by omega)
      rw [Nat.add_mul (i + 1) 1 c, Nat.one_mul] at h
      omega
    obtain ⟨r'', hreports, hat'⟩ := ih hat hrest
    refine ⟨r'', ?_, ?_⟩
    · rw [wholeChunks_succ]
      exact .cons hr' hreports
    · have hsum : done + (n + 1) * c = done + c + n * c := by
        rw [Nat.add_mul n 1 c, Nat.one_mul]
        omega
      rwa [hsum]

/-! ### Scanning -/

/-- The reader is scanning: of `total` lines `done` have been read, and with the others the records
of `st` will have been found. -/
structure Scanning (c total : Nat) (st : Store) (done : Nat) (r : Reader) : Prop where
  phase : r.phase = .scan
  chunkSize : r.chunkSize = c
  lineCount : r.lineCount = total
  linesRead : r.linesRead = done
  length_lines : done + r.lines.length = total
  store : (r.scan.lines r.lines).store = st

/-- The reader is in a phase that deals with the records of `st`, and has dealt with `done`. -/
structure Working (phase : Phase) (c : Nat) (st : Store) (done : Nat) (r : Reader) : Prop where
  phase : r.phase = phase
  chunkSize : r.chunkSize = c
  cursor : r.cursor = done
  store : r.store = st

variable {st : Store}

/-- **The scan goes on** by a chunk of lines. -/
theorem Scanning.step (h : r.Scanning c total st done) (hlt : done + c < total + 1) :
    ∃ r', r.advance = (.pending ⟨.scan, done + c, total⟩, r') ∧
      r'.Scanning c total st (done + c) := by
  have hlength := h.length_lines
  have hchunk : ¬r.lines.length < c := by omega
  rw [advance_of_scan h.phase]
  unfold scanChunk
  have hmin : min c r.lines.length = c := Nat.min_eq_left (by omega)
  simp only [h.chunkSize, hmin, if_neg hchunk, h.lineCount, h.linesRead]
  refine ⟨_, rfl, h.phase, rfl, rfl, rfl, ?_, ?_⟩
  · simp only [List.length_drop]
    omega
  · simp only
    rw [← lines_append, List.take_append_drop]
    exact h.store

/-- When the lines run out within a chunk, scanning is over. -/
theorem Scanning.last (h : r.Scanning c total st done) (hlt : total < done + c) :
    ∃ r', r.advance = (.pending ⟨.scan, total, total⟩, r') ∧ r'.Working .resolve c st 0 := by
  have hlength := h.length_lines
  have hchunk : r.lines.length < c := by omega
  rw [advance_of_scan h.phase]
  unfold scanChunk
  simp only [h.chunkSize, if_pos hchunk, h.lineCount]
  refine ⟨_, rfl, rfl, rfl, rfl, ?_⟩
  rw [List.take_of_length_le (Nat.le_of_lt hchunk)]
  exact h.store

/-! ### Resolving and assembling -/

theorem Working.chunkEnd (h : r.Working phase c st done) :
    r.chunkEnd = min (done + c) st.size := by
  unfold Reader.chunkEnd
  rw [h.cursor, h.chunkSize, h.store]

/-- **Resolving goes on** by a chunk of records. -/
theorem Working.stepResolving (h : r.Working .resolve c st done) (hlt : done + c < st.size) :
    ∃ r', r.advance = (.pending ⟨.resolve, done + c, st.size⟩, r') ∧
      r'.Working .resolve c st (done + c) := by
  have hend : r.chunkEnd = done + c := h.chunkEnd.trans (Nat.min_eq_left (Nat.le_of_lt hlt))
  rw [advance_of_resolve h.phase]
  unfold resolveChunk
  simp only [hend, h.store, if_pos hlt]
  exact ⟨_, rfl, h.phase, h.chunkSize, rfl, h.store⟩

/-- **The last chunk of links** leads to the entities. -/
theorem Working.lastResolving (h : r.Working .resolve c st done) (hle : st.size ≤ done + c) :
    ∃ r', r.advance = (.pending ⟨.resolve, st.size, st.size⟩, r') ∧
      r'.Working .assemble c st 0 := by
  have hend : r.chunkEnd = st.size := h.chunkEnd.trans (Nat.min_eq_right hle)
  rw [advance_of_resolve h.phase]
  unfold resolveChunk
  simp only [hend, h.store, if_neg (Nat.lt_irrefl st.size)]
  exact ⟨_, rfl, rfl, h.chunkSize, rfl, h.store⟩

/-- **Assembling goes on** by a chunk of records. -/
theorem Working.stepAssembling (h : r.Working .assemble c st done) (hlt : done + c < st.size) :
    ∃ r', r.advance = (.pending ⟨.assemble, done + c, st.size⟩, r') ∧
      r'.Working .assemble c st (done + c) := by
  have hend : r.chunkEnd = done + c := h.chunkEnd.trans (Nat.min_eq_left (Nat.le_of_lt hlt))
  rw [advance_of_assemble h.phase]
  unfold assembleChunk
  simp only [hend, h.store, if_pos hlt]
  exact ⟨_, rfl, h.phase, h.chunkSize, rfl, h.store⟩

/-- **The last chunk of entities** hands the model out. -/
theorem Working.lastAssembling (h : r.Working .assemble c st done) (hle : st.size ≤ done + c) :
    ∃ m r', r.advance = (.done m, r') := by
  have hend : r.chunkEnd = st.size := h.chunkEnd.trans (Nat.min_eq_right hle)
  rw [advance_of_assemble h.phase]
  unfold assembleChunk
  simp only [hend, h.store, if_neg (Nat.lt_irrefl st.size)]
  exact ⟨_, _, rfl⟩

/-! ### All steps -/

/-- At the start no line has been scanned. -/
theorem scanning_ofText (chunkSize : Nat) (fileName : String) (text : List Char) :
    (ofText chunkSize fileName text).Scanning (max chunkSize 1) (Text.lines text).length
      (({} : Scan).lines (Text.lines text)).store 0 where
  phase := rfl
  chunkSize := rfl
  lineCount := rfl
  linesRead := rfl
  length_lines := Nat.zero_add _
  store := rfl

/-- **The phases one after the other**, from the first step to the one that hands out the model. -/
theorem Scanning.reports {lines n m : Nat} (h : r.Scanning c lines st 0)
    (hscan : ∀ i < n, (i + 1) * c ≤ lines) (hscanEnd : lines < n * c + c)
    (hrecords : ∀ i < m, (i + 1) * c < st.size) (hrecordsEnd : st.size ≤ m * c + c) :
    ∃ r', r.Reports (wholeChunks .scan c lines 0 n ++ [⟨.scan, lines, lines⟩] ++
        (wholeChunks .resolve c st.size 0 m ++ [⟨.resolve, st.size, st.size⟩]) ++
        wholeChunks .assemble c st.size 0 m) r' ∧
      ∃ model r'', r'.advance = (.done model, r'') := by
  have hlines : ∀ i < n, 0 + (i + 1) * c < lines + 1 := by
    intro i hi
    have hle := hscan i hi
    omega
  have hchunks : ∀ i < m, 0 + (i + 1) * c < st.size := by
    intro i hi
    rw [Nat.zero_add]
    exact hrecords i hi
  obtain ⟨r₁, hscans, hat₁⟩ := reports_wholeChunks (fun _ _ h => Scanning.step h) h hlines
  obtain ⟨r₂, hlast₂, hat₂⟩ := hat₁.last (by rwa [Nat.zero_add])
  obtain ⟨r₃, hresolves, hat₃⟩ :=
    reports_wholeChunks (fun _ _ h => Working.stepResolving h) hat₂ hchunks
  obtain ⟨r₄, hlast₄, hat₄⟩ := hat₃.lastResolving (by rwa [Nat.zero_add])
  obtain ⟨r₅, hassembles, hat₅⟩ :=
    reports_wholeChunks (fun _ _ h => Working.stepAssembling h) hat₄ hchunks
  obtain ⟨model, r₆, hdone⟩ := hat₅.lastAssembling (by rwa [Nat.zero_add])
  exact ⟨r₅, ((hscans.concat hlast₂).trans (hresolves.concat hlast₄)).trans hassembles,
    model, r₆, hdone⟩

end Reader

/-! ### Numbers of chunks -/

/-- A last chunk of lines that is full is not the last one. -/
theorem lines_chunks (hc : 0 < c) (lines : Nat) :
    (∀ i < lines / c, (i + 1) * c ≤ lines) ∧ lines < lines / c * c + c := by
  constructor
  · intro i hi
    exact (Nat.le_div_iff_mul_le hc).1 hi
  · have hmod := Nat.mod_lt lines hc
    have hdiv := Nat.div_add_mod' lines c
    omega

/-- A last chunk of records is the last one also if it is full, or if there are no records. -/
theorem records_chunks (hc : 0 < c) (records : Nat) :
    (∀ i < max 1 (records ⌈/⌉ c) - 1, (i + 1) * c < records) ∧
      records ≤ (max 1 (records ⌈/⌉ c) - 1) * c + c := by
  constructor
  · intro i hi
    have hlt : i + 1 < records ⌈/⌉ c := by omega
    have hnot : ¬records ≤ c * (i + 1) := by
      rw [← ceilDiv_le_iff_le_mul hc]
      omega
    rw [Nat.mul_comm c] at hnot
    omega
  · have hle : records ⌈/⌉ c ≤ max 1 (records ⌈/⌉ c) - 1 + 1 := by omega
    have h := (ceilDiv_le_iff_le_mul hc).1 hle
    rwa [Nat.mul_comm, Nat.add_mul, Nat.one_mul] at h

open Reader in
/-- **The steps of a reading.** With `c` lines or records in a chunk, a text of so many lines and
records takes `lines / c + 1` steps to scan, and as many to resolve and to assemble as there are
chunks of records, but one step at least; the very last step hands out the model. Within each phase
the steps advance by a chunk at most and never exceed the total. Scanning and resolving end at the
total, and assembling hands out the model instead of reporting that it has come there. -/
theorem statuses_of_phases (chunkSize : Nat) (fileName : String) (text : List Char) :
    let c := max chunkSize 1
    let lines := (Text.lines text).length
    let records := recordCount text
    let chunks := max 1 (records ⌈/⌉ c)
    ∃ scans resolves assembles : List Progress,
      (ofText chunkSize fileName text).statuses
          (scans.length + resolves.length + assembles.length + 1)
        = (scans ++ resolves ++ assembles).map .pending ++ [.done (read chunkSize fileName text)] ∧
      scans.length = lines / c + 1 ∧ resolves.length = chunks ∧ assembles.length + 1 = chunks ∧
      Advances .scan c lines scans ∧ Advances .resolve c records resolves ∧
      Advances .assemble c records assembles ∧
      scans.getLast?.map (·.processed) = some lines ∧
      resolves.getLast?.map (·.processed) = some records ∧
      ∀ p ∈ assembles, p.processed < records := by
  intro c lines records chunks
  have hc : 0 < c := by omega
  obtain ⟨hscan, hscanEnd⟩ := lines_chunks hc lines
  obtain ⟨hrecords, hrecordsEnd⟩ := records_chunks hc records
  obtain ⟨r, hreports, model, r', hdone⟩ := (scanning_ofText chunkSize fileName text).reports
    hscan hscanEnd hrecords hrecordsEnd
  have hmodel : model = read chunkSize fileName text := by
    unfold read
    rw [run_eq_outcome, ← hreports.outcome, outcome_of_done hdone]
  refine ⟨wholeChunks .scan c lines 0 (lines / c) ++ [⟨.scan, lines, lines⟩],
    wholeChunks .resolve c records 0 (chunks - 1) ++ [⟨.resolve, records, records⟩],
    wholeChunks .assemble c records 0 (chunks - 1), ?_, ?_, ?_, ?_, ?_, ?_, ?_, ?_, ?_, ?_⟩
  · have hstatuses := hreports.statuses 1
    rw [List.length_append, List.length_append] at hstatuses
    refine hstatuses.trans ?_
    rw [← hmodel]
    simp only [Reader.statuses, hdone]
    rfl
  · rw [List.length_append, length_wholeChunks, List.length_singleton]
  · rw [List.length_append, length_wholeChunks, List.length_singleton]
    omega
  · rw [length_wholeChunks]
    omega
  · exact advances_concat hscan (Nat.le_of_lt hscanEnd)
  · exact advances_concat (fun i hi => Nat.le_of_lt (hrecords i hi)) hrecordsEnd
  · exact advances_wholeChunks fun i hi => Nat.le_of_lt (hrecords i hi)
  · rw [List.getLast?_concat, Option.map_some]
  · rw [List.getLast?_concat, Option.map_some]
  · intro p hp
    obtain ⟨i, hi, rfl⟩ := List.mem_map.1 hp
    simp only
    rw [Nat.zero_add]
    exact hrecords i (List.mem_range.1 hi)

end BimAudit.Ifc
