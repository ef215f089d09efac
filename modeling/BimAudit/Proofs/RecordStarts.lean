import BimAudit.Proofs.UnfinishedRecords

/-!
# Where records start

Two readers look at the front of a data line: one tells whether a record starts there, the other
reads the record. Both pass over blanks behind the digits of the id. Blanks in front of them, behind
the number sign, are passed over by the second reader alone, so a record that has some is read as
one but never found on its line.

* `startsRecord_append_equals`: when an id starts a record. `startsRecord_iff_of_read?`: the two
  readers agree on a line unless the id is set off from its number sign.
* `recordOn?_of_terminated`: the record on a line that ends with a semicolon.
* `pushed_of_terminated`: **what such a line adds to the records.** `exists_passed_over`: a record
  that gets lost.
-/

namespace BimAudit.Text

variable {a : List Char} {n : Nat}

theorem isDigit_of_wordDigits? (h : wordDigits? a = some n) :
    a ≠ [] ∧ ∀ c ∈ a, isDigit c = true := by
  unfold wordDigits? digits? at h
  obtain ⟨h, -⟩ := Option.filter_eq_some_iff.1 h
  split at h
  · next hdigits => exact ⟨hdigits.1, List.all_eq_true.1 hdigits.2⟩
  · cases h

theorem not_isDigit_of_isBlank {c : Char} (h : isBlank c = true) : isDigit c = false := by
  cases hc : isDigit c with
  | false => rfl
  | true =>
    rw [Step.Value.isBlank_of_isDigit hc] at h
    cases h

end BimAudit.Text

namespace BimAudit.Step

open Text (trim trimStart trimEnd isBlank isDigit)

variable {a : List Char}

/-- A blank in front of the digits hides that a record starts. -/
theorem startsRecord_of_isBlank {c : Char} (h : isBlank c = true) (r : List Char) :
    startsRecord ('#' :: c :: r) = false := by
  have hdigit : isDigit c = false := Text.not_isDigit_of_isBlank h
  unfold startsRecord
  simp [hdigit]

/-- Digits with no blank in front of them start a record, also with blanks behind them. -/
theorem startsRecord_append_equals (hne : trim a ≠ []) (hdigits : ∀ c ∈ trim a, isDigit c = true)
    (hhead : ∀ c, a.head? = some c → isBlank c = false) (b : List Char) :
    startsRecord ('#' :: (a ++ '=' :: b)) = true := by
  have hstart : trimStart a = a := Text.dropWhile_eq_self_iff_head?.2 hhead
  obtain ⟨blanks, ha, hblanks⟩ := Text.exists_trimEnd_append a
  have htrim : trimEnd a = trim a := by
    unfold trim
    rw [hstart]
  rw [htrim] at ha
  obtain ⟨d, ds, hds⟩ := List.exists_cons_of_ne_nil hne
  -- behind the digits stand the blanks and the equals sign
  have hrest : (a ++ '=' :: b).dropWhile isDigit = blanks ++ '=' :: b := by
    rw [ha, List.append_assoc, List.dropWhile_append_of_pos hdigits]
    refine Text.dropWhile_eq_self_iff_head?.2 ?_
    intro c hc
    cases blanks with
    | nil =>
      cases hc
      decide
    | cons e blanks =>
      cases hc
      exact Text.not_isDigit_of_isBlank (hblanks _ List.mem_cons_self)
  have hequals : trimStart (blanks ++ '=' :: b) = '=' :: b :=
    Text.dropWhile_append_cons hblanks (by decide) b
  have hfirst : (a ++ '=' :: b).head? = some d := by
    rw [ha, hds]
    rfl
  have hdigit : isDigit d = true := hdigits d (hds ▸ List.mem_cons_self)
  simp only [startsRecord, hfirst, hrest, hequals]
  simp [hdigit]

/-- A blank stands between the number sign of a line and its id. -/
def isSetOff (l : List Char) : Bool :=
  match trim l with
  | '#' :: c :: _ => isBlank c
  | _ => false

/-- **The two readers agree on a line that holds a record**, unless its id is set off. -/
theorem startsRecord_iff_of_read? {l : List Char} {r : Record} (h : Record.read? l = some r) :
    startsRecord (trim l) = true ↔ isSetOff l = false := by
  rw [Record.read?_eq] at h
  obtain ⟨⟨id, type, body⟩, hopening, -⟩ := Option.bind_eq_some_iff.1 h
  obtain ⟨a, b, hl, -, hid, -⟩ := Record.exists_of_opening? hopening
  obtain ⟨hne, hdigits⟩ := Text.isDigit_of_wordDigits? hid
  have ha : a ≠ [] := by
    rintro rfl
    exact hne rfl
  obtain ⟨c, a', hca⟩ := List.exists_cons_of_ne_nil ha
  have hsetOff : isSetOff l = isBlank c := by
    unfold isSetOff
    rw [hl, hca]
    rfl
  rw [hsetOff, hl]
  cases hc : isBlank c with
  | true =>
    rw [hca, List.cons_append, startsRecord_of_isBlank hc]
    exact iff_of_false Bool.false_ne_true Bool.false_ne_true.symm
  | false =>
    refine iff_of_true (startsRecord_append_equals hne hdigits ?_ b) rfl
    intro d hd
    rw [hca] at hd
    cases hd
    exact hc

end BimAudit.Step

namespace BimAudit.Ifc.Store

open Step (Record)

variable {st : Store} {o : Option Record} {r : Record}

/-- What may be added is a record exactly if the store is that with this record behind it. -/
theorem push_toList_eq_push_iff : o.toList.foldl Store.push st = st.push r ↔ o = some r := by
  constructor
  · intro h
    have hlist := congrArg list h
    rw [list_foldl_push, list_push, List.append_cancel_left_eq] at hlist
    exact Option.toList_eq_singleton_iff.1 hlist
  · rintro rfl
    rfl

/-- It is none exactly if the store stays as it is. -/
theorem push_toList_eq_self_iff : o.toList.foldl Store.push st = st ↔ o = none := by
  constructor
  · intro h
    have hlist := congrArg list h
    rw [list_foldl_push, List.append_right_eq_self] at hlist
    exact Option.toList_eq_nil_iff.1 hlist
  · rintro rfl
    rfl

end BimAudit.Ifc.Store

namespace BimAudit.Ifc.Scan

open Step (Record startsRecord isSetOff)
open Text (trim)

variable {s : Scan} {l : List Char}

/-- The record on a line that ends with a semicolon is the one that is read from the line, unless
its id is set off. -/
theorem recordOn?_of_terminated (hl : endsWith ';' (trim l) = true) :
    recordOn? l = if isSetOff l = true then none else Record.read? l := by
  have hwhole : isWhole l = startsRecord (trim l) := by
    unfold isWhole
    rw [hl, Bool.true_or, Bool.and_true]
  unfold recordOn?
  rw [hwhole]
  cases hread : Record.read? l with
  | none => simp
  | some r =>
    have hagree := Step.startsRecord_iff_of_read? hread
    cases hoff : isSetOff l with
    | true =>
      rw [hoff] at hagree
      simp [hagree]
    | false => simp [hagree.2 hoff]

/-- **What a line adds that ends with a semicolon**, scanned while no record is open: the record
that is read from it if its id follows the number sign at once, and else nothing, without notice. On
such a line the finder of records and their reader agree in the first case only. -/
theorem pushed_of_terminated (hs : s.pending = none) (hl : endsWith ';' (trim l) = true) :
    (∀ r, (s.line l).store = s.store.push r ↔ Record.read? l = some r ∧ isSetOff l = false) ∧
    ((s.line l).store = s.store ↔ Record.read? l = none ∨ isSetOff l = true) ∧
    (s.line l).pending = none ∧
    ∀ r, Record.read? l = some r → (startsRecord (trim l) = true ↔ isSetOff l = false) := by
  have hopen : isUnfinished l = false := by
    unfold isUnfinished
    rw [hl, Bool.true_or, Bool.not_true, Bool.and_false]
  have hrecord := recordOn?_of_terminated hl
  refine ⟨?_, ?_, pending_line (.inl hs) hopen, fun r hr => Step.startsRecord_iff_of_read? hr⟩
  · intro r
    rw [store_line (.inl hs), Store.push_toList_eq_push_iff, hrecord]
    cases isSetOff l <;> simp
  · rw [store_line (.inl hs), Store.push_toList_eq_self_iff, hrecord]
    cases isSetOff l <;> simp

/-- Blanks around the line, behind the digits and in front of the semicolon make no difference. -/
theorem pushed_of_terminated_blanks :
    ({} : Scan).pending = none ∧ endsWith ';' (trim " #7 =\tIfcWall('W1') ; ".toList) = true ∧
      (({} : Scan).line " #7 =\tIfcWall('W1') ; ".toList).store
        = ({} : Store).push ⟨7, "IFCWALL", "'W1'".toList⟩ := by
  have hl : endsWith ';' (trim " #7 =\tIfcWall('W1') ; ".toList) = true := by decide +kernel
  have hread : Record.read? " #7 =\tIfcWall('W1') ; ".toList
      = some ⟨7, "IFCWALL", "'W1'".toList⟩ := by decide +kernel
  have hoff : isSetOff " #7 =\tIfcWall('W1') ; ".toList = false := by decide +kernel
  exact ⟨rfl, hl, ((pushed_of_terminated rfl hl).1 _).2 ⟨hread, hoff⟩⟩

/-- **A record may be passed over.** The line is read as a record, but none is found on it. -/
theorem exists_passed_over :
    endsWith ';' (trim "# 1=IFCWALL('W1');".toList) = true ∧
      Record.read? "# 1=IFCWALL('W1');".toList = some ⟨1, "IFCWALL", "'W1'".toList⟩ ∧
      startsRecord (trim "# 1=IFCWALL('W1');".toList) = false ∧
      (({} : Scan).line "# 1=IFCWALL('W1');".toList).store.list = [] := by
  decide +kernel

end BimAudit.Ifc.Scan
