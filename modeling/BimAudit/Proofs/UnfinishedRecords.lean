import BimAudit.Proofs.ReadRecords
import BimAudit.Proofs.RecordLines

/-!
# Records that never end

A record that does not end on its line stays open. If the next line starts another record, or if
there is none, then the open one was never finished, and it is dropped. So neither such a record nor
a line that cannot be read as one makes a difference to the records around it.

* `store_line`, `pending_line`: a line gives the record that it holds, and leaves one open only if
  it starts a record without ending it.
* `store_lines_of_followed`: what several lines add to a store, whatever was scanned before.
* `finish_lines_of_followed`: **the records are those of the whole lines**, in their order, however
  many unfinished and malformed ones stand between them. `entities_read_eq_of_followed`: so are the
  entities of a text.
-/

namespace BimAudit.Ifc

open Step (Record startsRecord)
open Text (trim)

namespace Scan

/-- A record starts and ends on the line. -/
def isWhole (l : List Char) : Bool :=
  startsRecord (trim l) && (endsWith ';' (trim l) || endsWith ')' (trim l))

/-- A record starts on the line and does not end there. -/
def isUnfinished (l : List Char) : Bool :=
  startsRecord (trim l) && !(endsWith ';' (trim l) || endsWith ')' (trim l))

/-- The next line, if there is one, starts a record. -/
def StartsNext (ls : List (List Char)) : Prop := ∀ l ∈ ls.head?, startsRecord (trim l) = true

/-- Behind each unfinished record the next line starts another one, or no line is left. -/
def Followed (ls : List (List Char)) : Prop :=
  ls.IsChain fun l m => isUnfinished l = true → startsRecord (trim m) = true

instance (ls : List (List Char)) : Decidable (Followed ls) :=
  inferInstanceAs (Decidable (ls.IsChain _))

/-- The record that a line holds. -/
def recordOn? (l : List Char) : Option Record := if isWhole l then Record.read? l else none

variable {s : Scan} {l : List Char} {ls : List (List Char)}

theorem Followed.tail (h : Followed (l :: ls)) : Followed ls := by
  cases ls with
  | nil => exact .nil
  | cons m ls => exact (List.isChain_cons_cons.1 h).2

/-- Behind a line that is not finished comes one that starts a record. -/
theorem Followed.startsNext (h : Followed (l :: ls)) (hl : isUnfinished l = true) :
    StartsNext ls := by
  intro m hm
  cases ls with
  | nil => cases hm
  | cons m' ls =>
    cases hm
    exact (List.isChain_cons_cons.1 h).1 hl

theorem read?_trim (l : List Char) : Record.read? (trim l) = Record.read? l := by
  unfold Record.read?
  rw [Text.trim_trim]

/-- A record that is pushed is stored if it can be read. -/
theorem store_push (s : Scan) (text : List Char) :
    (s.push text).store = (Record.read? text).toList.foldl Store.push s.store := by
  unfold push
  cases Record.read? text <;> rfl

theorem pending_push (s : Scan) (text : List Char) : (s.push text).pending = s.pending := by
  unfold push
  split <;> rfl

/-! ### One line -/

/-- **A line adds the record that it holds**, unless it goes on with one that is open. -/
theorem store_line (h : s.pending = none ∨ startsRecord (trim l) = true) :
    (s.line l).store = (recordOn? l).toList.foldl Store.push s.store := by
  unfold recordOn? isWhole
  cases hstart : startsRecord (trim l) with
  | false =>
    have hnone : s.pending = none := h.resolve_right (by simp [hstart])
    exact (line_outside hnone hstart).2
  | true =>
    cases hend : endsWith ';' (trim l) || endsWith ')' (trim l) with
    | true =>
      rw [line_whole hstart (Bool.or_eq_true_iff.1 hend), store_push, read?_trim]
      rfl
    | false =>
      obtain ⟨hsemicolon, hclose⟩ := (Bool.or_eq_false_iff).1 hend
      rw [line_opening hstart hsemicolon hclose]
      rfl

/-- **Only an unfinished record stays open.** -/
theorem pending_line (h : s.pending = none ∨ startsRecord (trim l) = true)
    (hl : isUnfinished l = false) : (s.line l).pending = none := by
  cases hstart : startsRecord (trim l) with
  | false =>
    have hnone : s.pending = none := h.resolve_right (by simp [hstart])
    exact (line_outside hnone hstart).1
  | true =>
    have hend : (endsWith ';' (trim l) || endsWith ')' (trim l)) = true := by
      unfold isUnfinished at hl
      simpa only [hstart, Bool.true_and, Bool.not_eq_false'] using hl
    rw [line_whole hstart (Bool.or_eq_true_iff.1 hend), pending_push]

/-! ### Several lines -/

/-- **Lines add the records that they hold**, as long as nothing is open when they begin that goes
on with the first of them. -/
theorem store_lines_of_followed (h : Followed ls) (hs : s.pending = none ∨ StartsNext ls) :
    (s.lines ls).store = (ls.filterMap recordOn?).foldl Store.push s.store := by
  induction ls generalizing s with
  | nil => rfl
  | cons l ls ih =>
    have hl : s.pending = none ∨ startsRecord (trim l) = true :=
      hs.imp_right fun hnext => hnext l rfl
    -- what the line leaves open is dropped by the next one
    have hrest : (s.line l).pending = none ∨ StartsNext ls := by
      cases hopen : isUnfinished l with
      | false => exact .inl (pending_line hl hopen)
      | true => exact .inr (h.startsNext hopen)
    have hlines : s.lines (l :: ls) = (s.line l).lines ls := rfl
    rw [hlines, ih h.tail hrest, store_line hl, ← List.foldl_append, List.filterMap_cons]
    cases recordOn? l <;> rfl

/-- The records of the complete lines are those of all lines that have one. -/
theorem filterMap_recordOn? (ls : List (List Char)) :
    ls.filterMap recordOn? = (ls.filter isWhole).filterMap Record.read? := by
  rw [List.filterMap_filter]
  rfl

/-- **Unfinished and malformed records leave no trace.** The records of some lines are those that
can be read on the whole ones among them, in the same order, and the store holds nothing else. -/
theorem finish_lines_of_followed (h : Followed ls) :
    (({} : Scan).lines ls).finish.store = .ofRecords ((ls.filter isWhole).filterMap Record.read?) ∧
      (({} : Scan).lines ls).finish.store.list = (ls.filter isWhole).filterMap Record.read? := by
  have hstore : (({} : Scan).lines ls).finish.store
      = .ofRecords ((ls.filter isWhole).filterMap Record.read?) := by
    rw [← filterMap_recordOn?]
    exact store_lines_of_followed h (.inl rfl)
  exact ⟨hstore, by rw [hstore, Store.list_ofRecords]⟩

/-- Lines with four records that are whole, of which one cannot be read, and with three that are
unfinished: two in a row, one of them with the number of a whole record, and one at the end. -/
def unfinishedLines : List (List Char) :=
  ["DATA;", "#3=IFCWALL('W1',$,'Wall 1'", "#2=IFCPROPERTYSET('P1',$,", "  #3=IFCDOOR('D1');  ", "",
    "#4=IFCDOOR;", "#5=IFCSLAB('S1')", "ENDSEC;", "#1=IFCBEAM('B1');", "#6=IFCBEAM('B2'"].map
    String.toList

theorem finish_lines_of_followed_unfinishedLines : Followed unfinishedLines ∧
    (({} : Scan).lines unfinishedLines).finish.store.list.map (fun r => (r.id, r.type))
      = [(3, "IFCDOOR"), (5, "IFCSLAB"), (1, "IFCBEAM")] := by
  have hfollowed : Followed unfinishedLines := by decide
  refine ⟨hfollowed, ?_⟩
  rw [(finish_lines_of_followed hfollowed).2]
  decide

end Scan

/-! ### Texts -/

variable {text text' : List Char}

/-- The records in a text of such lines are those of its complete lines. -/
theorem recordsIn_of_followed (h : Scan.Followed (Text.lines text)) :
    recordsIn text = (Text.lines text).filterMap Scan.recordOn? := by
  unfold recordsIn
  rw [Scan.store_lines_of_followed h (.inl rfl)]
  exact Store.list_ofRecords _

/-- **Two texts with the same records on their lines have the same entities**, whatever else stands
on these lines, and in whatever steps they are read. -/
theorem entities_read_eq_of_followed (h : Scan.Followed (Text.lines text))
    (h' : Scan.Followed (Text.lines text'))
    (hrecords : (Text.lines text).filterMap Scan.recordOn?
      = (Text.lines text').filterMap Scan.recordOn?) (m n : Nat) (file : String) :
    (read m file text).entities = (read n file text').entities := by
  rw [entities_read, entities_read, recordsIn_of_followed h, recordsIn_of_followed h', hrecords]

end BimAudit.Ifc
