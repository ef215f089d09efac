import BimAudit.Proofs.DecodingByPlace
import BimAudit.Proofs.ReaderStates

/-!
# The steps of a reader in words

A reader counts lines and records in words of 64 bits, and a step fails if a sum leaves its word. No
sum does while the reader is at work, since a text has less than 2 ^ 63 bytes and no more records
than bytes. But the step that hands out the model leaves the cursor behind the last record, and only
the next step brings it back. So for a chunk size next to the limit that step fails, although no
record is left for it.

* `length_lines_le`, `Scan.size_lines_le`: no more lines than characters, no more records than
  lines.
* `Reader.steps_eq`: some steps fail if one of them does, and else they are the exact ones.
* `Reader.reach_overflows_iff`: **the only state in which a sum overflows.**
* `Reader.steps_eq_ite`: what becomes of any number of steps. `Reader.steps_hand_out`: the steps up
  to the model never fail, and this is the model that is read.
* `steps_in_words`: all of this together. `exists_step_overflow`: a reader that fails.
-/

namespace BimAudit.Text

theorem length_lineStep_le (c : Char) (state : Bool × List (List Char)) :
    (lineStep c state).2.length ≤ state.2.length + 1 := by
  obtain ⟨beforeFeed, ls⟩ := state
  unfold lineStep
  simp only
  split
  · exact Nat.le_refl _
  · split
    · exact Nat.le_succ _
    · split
      · exact Nat.le_refl _
      · exact Nat.le_succ _

/-- A text has no more lines than characters. -/
theorem length_lines_le (s : List Char) : (lines s).length ≤ s.length := by
  unfold lines
  induction s with
  | nil => exact Nat.le_refl _
  | cons c s ih =>
    have hstep := length_lineStep_le c (s.foldr lineStep (false, []))
    rw [List.foldr_cons, List.length_cons]
    omega

end BimAudit.Text

namespace BimAudit.Ifc

open Text (byteSize wordLimit)

/-! ### Records and lines -/

namespace Scan

variable {s : Scan}

theorem size_push_le (s : Scan) (text : List Char) :
    (s.push text).store.size ≤ s.store.size + 1 := by
  unfold push
  split
  · simp [Store.size, Store.push]
  · exact Nat.le_succ _

theorem size_start_le (s : Scan) (l : List Char) : (s.start l).store.size ≤ s.store.size + 1 := by
  unfold start
  split
  · split
    · exact s.size_push_le l
    · exact Nat.le_succ _
  · split
    · split <;> exact Nat.le_succ _
    · exact Nat.le_succ _

/-- A line adds one record at most. -/
theorem size_line_le (s : Scan) (l : List Char) : (s.line l).store.size ≤ s.store.size + 1 := by
  unfold line
  simp only
  split
  · exact s.size_start_le _
  · split
    · exact size_start_le { s with pending := none } _
    · split
      · exact size_push_le { s with pending := none } _
      · exact Nat.le_succ _

theorem size_lines_le (s : Scan) (ls : List (List Char)) :
    (s.lines ls).store.size ≤ s.store.size + ls.length := by
  unfold lines
  induction ls generalizing s with
  | nil => exact Nat.le_refl _
  | cons l ls ih =>
    have hline := s.size_line_le l
    have hrest := ih (s.line l)
    rw [List.foldl_cons, List.length_cons]
    omega

end Scan

/-- A text has no more records than lines. -/
theorem recordCount_le (text : List Char) : recordCount text ≤ (Text.lines text).length := by
  have hsize := Scan.size_lines_le {} (Text.lines text)
  have hempty : ({} : Scan).store.size = 0 := rfl
  unfold recordCount
  omega

namespace Reader

variable {r : Reader} {n : Nat}

/-! ### Steps that fail -/

theorem step_of_lt (h : r.reach < wordLimit) : r.step = some r.advance := if_pos h

/-- A step fails if and only if it reaches too far. -/
theorem step_eq_none_iff : r.step = none ↔ wordLimit ≤ r.reach := by
  unfold step
  split
  case isTrue h => exact iff_of_false (Option.some_ne_none _) (Nat.not_le.2 h)
  case isFalse h => exact iff_of_true rfl (Nat.le_of_not_lt h)

/-- **Some steps fail if one of them does**, and else they are the exact ones. -/
theorem steps_eq (n : Nat) (r : Reader) :
    r.steps n = if ∀ m < n, (r.after m).reach < wordLimit then some (r.statuses n, r.after n)
      else none := by
  induction n generalizing r with
  | zero => exact (if_pos fun _ h => absurd h (Nat.not_lt_zero _)).symm
  | succ n ih =>
    by_cases hfirst : r.reach < wordLimit
    · have hall : (∀ m < n + 1, (r.after m).reach < wordLimit) ↔
          ∀ m < n, (r.advance.2.after m).reach < wordLimit := by
        constructor
        · intro h m hm
          exact h (m + 1) (Nat.succ_lt_succ hm)
        · intro h m hm
          cases m with
          | zero => exact hfirst
          | succ m => exact h m (Nat.lt_of_succ_lt_succ hm)
      rw [steps, step_of_lt hfirst, Option.bind_eq_bind, Option.bind_some]
      simp only [ih, hall]
      split
      · rfl
      · rfl
    · have hnot : ¬ ∀ m < n + 1, (r.after m).reach < wordLimit :=
        fun h => hfirst (h 0 (Nat.succ_pos n))
      rw [if_neg hnot, steps, step_eq_none_iff.2 (Nat.le_of_not_lt hfirst)]
      rfl

/-! ### Lines that are read -/

/-- Lines that are read are no longer ahead. -/
theorem lines_advance (r : Reader) :
    r.advance.2.linesRead + r.advance.2.lines.length = r.linesRead + r.lines.length := by
  cases hp : r.phase with
  | scan =>
    rw [advance_of_scan hp]
    unfold scanChunk
    simp only
    split
    · next hlt =>
      rw [Nat.min_eq_right (Nat.le_of_lt hlt)]
      rfl
    · simp only [List.length_drop]
      omega
  | resolve =>
    rw [advance_of_resolve hp]
    unfold resolveChunk
    simp only
    split <;> rfl
  | assemble =>
    rw [advance_of_assemble hp]
    unfold assembleChunk
    simp only
    split <;> rfl

variable {chunkSize : Nat} {fileName : String} {text : List Char}

theorem lines_after (chunkSize : Nat) (fileName : String) (text : List Char) (n : Nat) :
    let r := (ofText chunkSize fileName text).after n
    r.linesRead + r.lines.length = (Text.lines text).length := by
  induction n with
  | zero => exact Nat.zero_add _
  | succ n ih =>
    rw [after_succ]
    exact (lines_advance _).trans ih

theorem fileName_after (r : Reader) (n : Nat) : (r.after n).fileName = r.fileName := by
  induction n with
  | zero => rfl
  | succ n ih => rw [after_succ, fileName_advance, ih]

/-! ### The sums of a reader -/

theorem handedOut_mono {m : Nat} (hle : m ≤ n) (h : r.HandedOut m) : r.HandedOut n := by
  induction n, hle using Nat.le_induction with
  | base => exact h
  | succ n _ ih => exact handedOut_succ.2 (.inl ih)

/-- The last step was the one that handed out the model. -/
def JustHandedOut (n : Nat) (r : Reader) : Prop := r.HandedOut n ∧ ¬ r.HandedOut (n - 1)

/-- A model that has been handed out was so by one of the steps. -/
theorem exists_justHandedOut_iff : (∃ m < n, r.JustHandedOut m) ↔ r.HandedOut (n - 1) := by
  constructor
  · rintro ⟨m, hm, hout, -⟩
    exact handedOut_mono (by omega) hout
  · intro hout
    -- the first number of steps that hands it out
    have hexists : ∃ m, r.HandedOut m := ⟨n - 1, hout⟩
    have hle : Nat.find hexists ≤ n - 1 := Nat.find_min' hexists hout
    have hpos : 0 < Nat.find hexists := by
      rw [Nat.find_pos]
      exact not_handedOut_zero r
    exact ⟨Nat.find hexists, by omega, Nat.find_spec hexists,
      Nat.find_min hexists (by omega)⟩

/-- The place behind all records of the text and a chunk more are too much for a word. -/
def Exceeds (chunkSize : Nat) (text : List Char) : Prop :=
  2 ^ 64 ≤ recordCount text + max chunkSize 1

instance (chunkSize : Nat) (text : List Char) : Decidable (Exceeds chunkSize text) :=
  inferInstanceAs (Decidable (_ ≤ _))

/-- **No sum of a reader at work overflows.** A cursor within the records is behind a chunk of them
at least, so that another chunk is in reach of a word. -/
theorem AtWork.cursor_add_lt {c : Nat} {st : Store} (h : r.AtWork c st) (hc : c < 2 ^ 64)
    (hst : st.size < 2 ^ 63) : r.cursor + r.chunkSize < 2 ^ 64 := by
  rw [h.chunkSize_eq]
  cases h with
  | scanning _ _ hcursor =>
    rw [hcursor]
    omega
  | working _ _ _ hcursor => omega

section Bounds

variable (hchunk : chunkSize < 2 ^ 64) (htext : byteSize text < 2 ^ 63)

include htext in
theorem length_lines_lt : (Text.lines text).length < 2 ^ 63 := by
  have hlines := Text.length_lines_le text
  have hbytes := Step.ByPlace.length_le_byteSize text
  omega

include hchunk htext

/-- Where the cursor and a chunk more leave their word: the model has just been handed out, and the
chunk size is next to the limit. -/
theorem overflows_iff (fileName : String) (n : Nat) :
    let start := ofText chunkSize fileName text
    2 ^ 64 ≤ (start.after n).cursor + (start.after n).chunkSize ↔
      start.JustHandedOut n ∧ Exceeds chunkSize text := by
  intro start
  have hlines := length_lines_lt htext
  have hrecords : (wholeStore text).size ≤ (Text.lines text).length := recordCount_le text
  unfold JustHandedOut Exceeds
  rcases atWork_or_emptied chunkSize fileName text n with
    ⟨hnot, hwork⟩ | ⟨hout, hempty, hback, hend⟩
  · have hlt := hwork.cursor_add_lt (by omega) (by omega)
    exact iff_of_false (Nat.not_le.2 hlt) fun h => hnot h.1.1
  · rw [hempty.chunkSize]
    by_cases hbefore : start.HandedOut (n - 1)
    · rw [hback hbefore]
      exact iff_of_false (by omega) fun h => h.1.2 hbefore
    · rw [hend hbefore]
      exact (and_iff_right ⟨hout, hbefore⟩).symm

/-- **The only state in which a sum overflows.** The sum is that of the cursor and the chunk size,
since the lines of a text can be counted. -/
theorem reach_overflows_iff (fileName : String) (n : Nat) :
    let start := ofText chunkSize fileName text
    wordLimit ≤ (start.after n).reach ↔ start.JustHandedOut n ∧ Exceeds chunkSize text := by
  intro start
  have hlimit : wordLimit = 2 ^ 64 := rfl
  have hsum := overflows_iff hchunk htext fileName n
  have hlines := length_lines_lt htext
  have hread : (start.after n).linesRead + (start.after n).lines.length
      = (Text.lines text).length := lines_after chunkSize fileName text n
  refine Iff.trans ?_ hsum
  cases hp : (start.after n).phase with
  | scan =>
    have hreach : (start.after n).reach = (start.after n).linesRead
        + min (start.after n).chunkSize (start.after n).lines.length := by
      unfold reach
      rw [hp]
    refine iff_of_false (by omega) fun hle => ?_
    obtain ⟨⟨hout, -⟩, -⟩ := hsum.1 hle
    -- a reader whose model is gone does not scan
    rcases atWork_or_emptied chunkSize fileName text n with ⟨hnot, -⟩ | ⟨-, hempty, -⟩
    · exact hnot hout
    · exact absurd (hp.symm.trans hempty.phase) Phase.noConfusion
  | resolve | assemble =>
    have hreach : (start.after n).reach = (start.after n).cursor + (start.after n).chunkSize := by
      unfold reach
      rw [hp]
    rw [hreach, hlimit]

/-- **What becomes of any number of steps**: they fail with the step behind the one that hands out
the model, if the chunk size is next to the limit, and else they are the exact ones. -/
theorem steps_eq_ite (fileName : String) (n : Nat) :
    let start := ofText chunkSize fileName text
    start.steps n = if start.HandedOut (n - 1) ∧ Exceeds chunkSize text then none
      else some (start.statuses n, start.after n) := by
  intro start
  have hfits : (∀ m < n, (start.after m).reach < wordLimit) ↔
      ¬ (start.HandedOut (n - 1) ∧ Exceeds chunkSize text) := by
    rw [← exists_justHandedOut_iff]
    constructor
    · rintro h ⟨⟨m, hm, hjust⟩, hexceeds⟩
      have hlt := h m hm
      exact absurd ((reach_overflows_iff hchunk htext fileName m).2 ⟨hjust, hexceeds⟩)
        (Nat.not_le.2 hlt)
    · intro h m hm
      refine Nat.lt_of_not_le fun hle => h ?_
      obtain ⟨hjust, hexceeds⟩ := (reach_overflows_iff hchunk htext fileName m).1 hle
      exact ⟨⟨m, hm, hjust⟩, hexceeds⟩
  rw [steps_eq]
  by_cases hfails : start.HandedOut (n - 1) ∧ Exceeds chunkSize text
  · rw [if_pos hfails, if_neg fun h => hfits.1 h hfails]
  · rw [if_neg hfails, if_pos (hfits.2 hfails)]

/-- **The steps up to the model never fail**, and this is the model that is read. -/
theorem steps_hand_out (fileName : String) :
    ∃ (ps : List Progress) (r' : Reader), (ofText chunkSize fileName text).steps (ps.length + 1) =
      some (ps.map .pending ++ [.done (read chunkSize fileName text)], r') := by
  let start := ofText chunkSize fileName text
  have hstatuses := start.statuses_eq
  -- before the last of these steps nothing has been handed out
  have hbefore : start.statuses start.progresses.length = start.progresses.map .pending := by
    rw [statuses_concat] at hstatuses
    exact (List.append_inj' hstatuses rfl).1
  have hnot : ¬ start.HandedOut start.progresses.length := by
    rintro ⟨m, hm⟩
    rw [hbefore] at hm
    obtain ⟨p, -, hp⟩ := List.mem_map.1 hm
    cases hp
  refine ⟨start.progresses, start.after (start.progresses.length + 1), ?_⟩
  rw [steps_eq_ite hchunk htext fileName, Nat.add_sub_cancel, if_neg fun h => hnot h.1,
    hstatuses]
  rfl

end Bounds

/-- **Behind the model come empty ones**, with the name of the file. -/
theorem advance_of_handedOut (chunkSize : Nat) (fileName : String) (text : List Char) (n : Nat)
    (h : (ofText chunkSize fileName text).HandedOut n) :
    ((ofText chunkSize fileName text).after n).advance.1 = .done ⟨fileName, "", []⟩ := by
  rcases atWork_or_emptied chunkSize fileName text n with ⟨hnot, -⟩ | ⟨-, hempty, -⟩
  · exact absurd h hnot
  · rw [hempty.advance.1, fileName_after]
    rfl

end Reader

open Reader in
/-- **The steps of a reader in words**, for any text, any chunk size that is a word, and any number
of steps. The sum of the cursor and the chunk size leaves its word in one state only, when the model
has just been handed out and the chunk size is next to the limit. In this state, and in no other,
the step fails. So any number of steps up to the model, and for all other chunk sizes any number
behind it, do not fail and are the exact ones; the first model that they hand out is the one that is
read, and every step behind it that does not fail hands out an empty one. -/
theorem steps_in_words {chunkSize : Nat} {text : List Char} (hchunk : chunkSize < 2 ^ 64)
    (htext : byteSize text < 2 ^ 63) (fileName : String) (n : Nat) :
    let start := ofText chunkSize fileName text
    let r := start.after n
    (2 ^ 64 ≤ r.cursor + r.chunkSize ↔ start.JustHandedOut n ∧ Exceeds chunkSize text) ∧
    (r.step = none ↔ start.JustHandedOut n ∧ Exceeds chunkSize text) ∧
    (start.steps n = if start.HandedOut (n - 1) ∧ Exceeds chunkSize text then none
      else some (start.statuses n, r)) ∧
    (∃ (ps : List Progress) (r' : Reader), start.steps (ps.length + 1) =
      some (ps.map .pending ++ [.done (read chunkSize fileName text)], r')) ∧
    ∀ status r', start.HandedOut n → r.step = some (status, r') →
      status = .done ⟨fileName, "", []⟩ := by
  intro start r
  have hstep : r.step = none ↔ start.JustHandedOut n ∧ Exceeds chunkSize text :=
    step_eq_none_iff.trans (reach_overflows_iff hchunk htext fileName n)
  refine ⟨overflows_iff hchunk htext fileName n, hstep, steps_eq_ite hchunk htext fileName n,
    steps_hand_out hchunk htext fileName, fun status r' hout hsome => ?_⟩
  have hlt : r.reach < wordLimit := by
    refine Nat.lt_of_not_le fun hle => ?_
    rw [step_eq_none_iff.2 hle] at hsome
    cases hsome
  have hadvance : r.advance = (status, r') := Option.some.inj ((step_of_lt hlt).symm.trans hsome)
  rw [← advance_of_handedOut chunkSize fileName text n hout]
  exact (congrArg Prod.fst hadvance).symm

/-- A text with a single record. -/
def oneWall : List Char := "#1=IFCWALL('W1',$,'Wall 1',$,$,$,$,$,$);\n".toList

open Reader in
/-- One record in chunks of the largest size takes three steps. The fourth one overflows by one. In
chunks of one record less it does not, and hands out an empty model. -/
theorem steps_in_words_oneWall :
    let start := ofText (2 ^ 64 - 1) "a.ifc" oneWall
    let smaller := ofText (2 ^ 64 - 2) "a.ifc" oneWall
    2 ^ 64 - 1 < 2 ^ 64 ∧ 2 ^ 64 - 2 < 2 ^ 64 ∧ byteSize oneWall < 2 ^ 63 ∧
      start.steps 3 = some (start.statuses 3, start.after 3) ∧ start.steps 4 = none ∧
      smaller.steps 4 = some (smaller.statuses 4, smaller.after 4) ∧
      ∀ status r', (smaller.after 3).step = some (status, r') →
        status = .done ⟨"a.ifc", "", []⟩ := by
  intro start smaller
  have hchunk : 2 ^ 64 - 1 < 2 ^ 64 := by decide
  have hsmaller : 2 ^ 64 - 2 < 2 ^ 64 := by decide
  have htext : byteSize oneWall < 2 ^ 63 := by decide +kernel
  have hbefore : ¬ start.HandedOut 2 := by decide +kernel
  have hout : start.HandedOut 3 := by decide +kernel
  have hexceeds : Exceeds (2 ^ 64 - 1) oneWall := by decide +kernel
  have hfits : ¬ Exceeds (2 ^ 64 - 2) oneWall := by decide +kernel
  have houtSmaller : smaller.HandedOut 3 := by decide +kernel
  obtain ⟨-, -, hthree, -, -⟩ := steps_in_words hchunk htext "a.ifc" 3
  obtain ⟨-, -, hfour, -, -⟩ := steps_in_words hchunk htext "a.ifc" 4
  obtain ⟨-, -, hlast, -, -⟩ := steps_in_words hsmaller htext "a.ifc" 4
  obtain ⟨-, -, -, -, hempty⟩ := steps_in_words hsmaller htext "a.ifc" 3
  refine ⟨hchunk, hsmaller, htext, ?_, ?_, ?_, fun status r' => hempty status r' houtSmaller⟩
  · exact hthree.trans (if_neg fun h => hbefore h.1)
  · exact hfour.trans (if_pos ⟨hout, hexceeds⟩)
  · exact hlast.trans (if_neg fun h => hfits h.2)

open Reader in
/-- **A step may overflow**: the one behind the model. -/
theorem exists_step_overflow :
    let r := (ofText (2 ^ 64 - 1) "a.ifc" oneWall).after 3
    (ofText (2 ^ 64 - 1) "a.ifc" oneWall).HandedOut 3 ∧
      r.cursor + r.chunkSize = 2 ^ 64 ∧ r.step = none := by
  decide +kernel

end BimAudit.Ifc
