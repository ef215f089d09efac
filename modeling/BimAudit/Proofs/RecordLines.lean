import BimAudit.Proofs.RecordTexts

/-!
# Records over several lines

A record that does not end on its first line goes on up to a line that ends with a semicolon, and
what is found is the record of all these lines in one. But a first line that ends with a closing
parenthesis is taken for a whole record, although the parenthesis may be that of a list inside: the
record then ends there, and the lines behind it are lost.

* `line_opening`, `line_within`, `line_closing`, `line_whole`, `line_outside`: what one line does to
  the record that is open.
* `lines_of_broken`: **lines are scanned like one line, unless the first one ends with a closing
  parenthesis.** `exists_cut_off_record`: a record that loses its end.
-/

namespace BimAudit.Ifc.Scan

open Step (Record startsRecord)
open Text (trim isBlank)

/-- Several lines in one, without the blanks around each of them. -/
def joined (ls : List (List Char)) : List Char := ls.flatMap trim

/-- A record starts on the first line, no other starts behind it, and the first semicolon at the end
of a line is that of the last one. -/
structure Broken (first : List Char) (middle : List (List Char)) (last : List Char) : Prop where
  starts : startsRecord (trim first) = true
  within : ∀ l ∈ middle ++ [last], startsRecord (trim l) = false
  goesOn : ∀ l ∈ first :: middle, endsWith ';' (trim l) = false
  ends : endsWith ';' (trim last) = true

instance (first : List Char) (middle : List (List Char)) (last : List Char) :
    Decidable (Broken first middle last) :=
  decidable_of_iff (startsRecord (trim first) = true ∧
      (∀ l ∈ middle ++ [last], startsRecord (trim l) = false) ∧
      (∀ l ∈ first :: middle, endsWith ';' (trim l) = false) ∧ endsWith ';' (trim last) = true)
    ⟨fun ⟨h₁, h₂, h₃, h₄⟩ => ⟨h₁, h₂, h₃, h₄⟩, fun ⟨h₁, h₂, h₃, h₄⟩ => ⟨h₁, h₂, h₃, h₄⟩⟩

variable {s : Scan} {l text first last : List Char} {ls middle : List (List Char)}

/-! ### One line -/

/-- A line that starts a record drops the one that is open. -/
theorem line_of_startsRecord (h : startsRecord (trim l) = true) :
    s.line l = { s with pending := none }.start (trim l) := by
  obtain ⟨pending, schema, store⟩ := s
  unfold line
  cases pending with
  | none => rfl
  | some text => simp only [h, if_true]

/-- A line that starts a record and does not end it opens it. -/
theorem line_opening (h : startsRecord (trim l) = true) (hsemicolon : endsWith ';' (trim l) = false)
    (hclose : endsWith ')' (trim l) = false) : s.line l = { s with pending := some (trim l) } := by
  rw [line_of_startsRecord h, start, if_pos h, hsemicolon, hclose]
  rfl

/-- A line that starts a record and ends it is the whole record. -/
theorem line_whole (h : startsRecord (trim l) = true)
    (hend : endsWith ';' (trim l) = true ∨ endsWith ')' (trim l) = true) :
    s.line l = { s with pending := none }.push (trim l) := by
  have hends : (endsWith ';' (trim l) || endsWith ')' (trim l)) = true := by
    rwa [Bool.or_eq_true]
  rw [line_of_startsRecord h, start, if_pos h, if_pos hends]

/-- A line inside of a record is put behind it. -/
theorem line_within (hs : s.pending = some text) (h : startsRecord (trim l) = false)
    (hsemicolon : endsWith ';' (trim l) = false) :
    s.line l = { s with pending := some (text ++ trim l) } := by
  unfold line
  simp only [hs, h, hsemicolon, Bool.false_eq_true, if_false]

/-- A line with a semicolon at its end closes the record. -/
theorem line_closing (hs : s.pending = some text) (h : startsRecord (trim l) = false)
    (hsemicolon : endsWith ';' (trim l) = true) :
    s.line l = { s with pending := none }.push (text ++ trim l) := by
  unfold line
  simp only [hs, h, hsemicolon, Bool.false_eq_true, if_false, if_true]

/-- Outside of the records a line can only name the schema. -/
theorem line_outside (hs : s.pending = none) (h : startsRecord (trim l) = false) :
    (s.line l).pending = none ∧ (s.line l).store = s.store := by
  unfold line
  simp only [hs]
  rw [start, if_neg (by simp [h])]
  split
  · split
    · exact ⟨hs, rfl⟩
    · exact ⟨hs, rfl⟩
  · exact ⟨hs, rfl⟩

/-! ### Several lines -/

/-- Lines inside of a record are put behind it. The induction is on the lines. -/
theorem lines_within (hs : s.pending = some text) (h : ∀ l ∈ ls, startsRecord (trim l) = false)
    (hsemicolon : ∀ l ∈ ls, endsWith ';' (trim l) = false) :
    s.lines ls = { s with pending := some (text ++ joined ls) } := by
  induction ls generalizing s text with
  | nil => simp [lines, joined, hs.symm]
  | cons l ls ih =>
    have hline := line_within hs (h l List.mem_cons_self) (hsemicolon l List.mem_cons_self)
    have hpending : (s.line l).pending = some (text ++ trim l) := by rw [hline]
    have hrest := ih hpending (fun m hm => h m (List.mem_cons_of_mem _ hm))
      (fun m hm => hsemicolon m (List.mem_cons_of_mem _ hm))
    refine hrest.trans ?_
    rw [hline, joined, joined, List.flatMap_cons, List.append_assoc]

/-- Lines outside of records are passed over. The induction is on the lines. -/
theorem lines_outside (hs : s.pending = none) (h : ∀ l ∈ ls, startsRecord (trim l) = false) :
    (s.lines ls).pending = none ∧ (s.lines ls).store = s.store := by
  induction ls generalizing s with
  | nil => exact ⟨hs, rfl⟩
  | cons l ls ih =>
    obtain ⟨hpending, hstore⟩ := line_outside hs (h l List.mem_cons_self)
    have hrest := ih hpending fun m hm => h m (List.mem_cons_of_mem _ hm)
    rwa [hstore] at hrest

theorem joined_cons : joined (l :: ls) = trim l ++ joined ls := rfl

theorem joined_concat : joined (ls ++ [l]) = joined ls ++ trim l := by
  simp [joined]

/-- The first character of joined lines is no blank. -/
theorem isBlank_of_head?_joined {c : Char} (h : (joined ls).head? = some c) :
    isBlank c = false := by
  induction ls with
  | nil => cases h
  | cons l ls ih =>
    rw [joined_cons, List.head?_append] at h
    cases hl : (trim l).head? with
    | none =>
      rw [hl] at h
      exact ih h
    | some d =>
      rw [hl] at h
      cases h
      exact (Text.trim_eq_self_iff.1 (Text.trim_trim l)).1 c hl

theorem getLast?_joined (h : endsWith ';' (trim last) = true) :
    (joined (ls ++ [last])).getLast? = some ';' := by
  unfold endsWith at h
  rw [joined_concat, List.getLast?_append, of_decide_eq_true h]
  rfl

namespace Broken

variable (h : Broken first middle last)

include h

/-- In one line the record is whole. -/
theorem line_joined : s.line (joined (first :: middle ++ [last]))
    = { s with pending := none }.push (joined (first :: middle ++ [last])) := by
  have hstart : startsRecord (joined (first :: middle ++ [last])) = true :=
    Step.startsRecord_append h.starts _
  have hlast : (joined (first :: middle ++ [last])).getLast? = some ';' := getLast?_joined h.ends
  have htrim : trim (joined (first :: middle ++ [last])) = joined (first :: middle ++ [last]) := by
    refine Text.trim_eq_self_iff.2 ⟨fun c hc => isBlank_of_head?_joined hc, ?_⟩
    intro c hc
    rw [hlast] at hc
    cases hc
    decide
  have hline := line_whole (s := s) (l := joined (first :: middle ++ [last]))
    (by rw [htrim, hstart]) (.inl (by rw [htrim]; exact decide_eq_true hlast))
  rwa [htrim] at hline

/-- **A record that is open at the end of its first line** is that of all its lines in one. -/
theorem lines_eq (hopen : endsWith ')' (trim first) = false) (s : Scan) :
    s.lines (first :: middle ++ [last]) = s.line (joined (first :: middle ++ [last])) := by
  have hfirst := line_opening (s := s) h.starts (h.goesOn first List.mem_cons_self) hopen
  have hpending : (s.line first).pending = some (trim first) := by rw [hfirst]
  have hmiddle := lines_within hpending
    (fun l hl => h.within l (List.mem_append_left _ hl))
    (fun l hl => h.goesOn l (List.mem_cons_of_mem _ hl))
  have hlast := line_closing (s := (s.line first).lines middle) (l := last) (by rw [hmiddle])
    (h.within last (List.mem_append_right _ List.mem_cons_self)) h.ends
  have hlines : s.lines (first :: middle ++ [last]) = ((s.line first).lines middle).line last := by
    unfold lines
    rw [List.cons_append, List.foldl_cons, List.foldl_append]
    rfl
  rw [hlines, hlast, hmiddle, hfirst, h.line_joined, List.cons_append, joined_cons, joined_concat,
    List.append_assoc]

/-- **A first line that ends with a closing parenthesis** is a record of its own, and the other
lines hold none. -/
theorem store_lines (hclose : endsWith ')' (trim first) = true) (s : Scan) :
    (s.lines (first :: middle ++ [last])).store
      = ({ s with pending := none }.push (trim first)).store := by
  have hfirst := line_whole (s := s) h.starts (.inr hclose)
  have hpending : (s.line first).pending = none := by
    rw [hfirst]
    unfold push
    split <;> rfl
  have hrest := (lines_outside hpending h.within).2
  rw [← hfirst]
  exact hrest

end Broken

/-- The records that are pushed are the same if and only if the stores are. -/
theorem store_push_eq_iff {text text' : List Char} :
    (s.push text).store = (s.push text').store ↔ Record.read? text = Record.read? text' := by
  have hlist : ∀ t, (s.push t).store.list = s.store.list ++ (Record.read? t).toList := by
    intro t
    unfold push
    cases Record.read? t with
    | none => simp
    | some r => exact Store.list_push s.store r
  constructor
  · intro h
    have hrecords := congrArg Store.list h
    rw [hlist, hlist, List.append_cancel_left_eq] at hrecords
    cases hr : Record.read? text <;> cases hr' : Record.read? text' <;> simp_all
  · intro h
    unfold push
    rw [h]

/-- **A record over several lines.** Scanned line by line, it is the record that it is in one line,
whatever was scanned before, if its first line does not end with a closing parenthesis. If it does,
then the record found is the same only where the first line holds no record anyway, or where nothing
but a semicolon comes behind it. -/
theorem lines_of_broken (s : Scan) (h : Broken first middle last) :
    (endsWith ')' (trim first) = false →
      s.lines (first :: middle ++ [last]) = s.line (joined (first :: middle ++ [last]))) ∧
    ((s.lines (first :: middle ++ [last])).store
        = (s.line (joined (first :: middle ++ [last]))).store ↔
      endsWith ')' (trim first) = false ∨ Record.read? (trim first) = none ∨
        joined (middle ++ [last]) = [';']) := by
  refine ⟨fun hopen => h.lines_eq hopen s, ?_⟩
  cases hclose : endsWith ')' (trim first) with
  | false =>
    rw [h.lines_eq hclose s]
    simp
  | true =>
    rw [h.store_lines hclose, h.line_joined, store_push_eq_iff, List.cons_append, joined_cons,
      eq_comm, Record.read?_append_eq_iff h.starts (Text.trim_trim first) (of_decide_eq_true hclose)
        (fun c hc => isBlank_of_head?_joined hc) (getLast?_joined h.ends)]
    simp

/-- A property set whose list of members goes on over several lines. -/
theorem lines_of_broken_propertySet :
    Broken "#3=IFCPROPERTYSET('P1',$,'Pset''s',$,".toList ["  (#1 ,".toList, []]
        " #2)) ; ".toList ∧
      endsWith ')' (trim "#3=IFCPROPERTYSET('P1',$,'Pset''s',$,".toList) = false ∧
      ({} : Scan).lines ["#3=IFCPROPERTYSET('P1',$,'Pset''s',$,".toList, "  (#1 ,".toList, [],
          " #2)) ; ".toList]
        = ({} : Scan).line "#3=IFCPROPERTYSET('P1',$,'Pset''s',$,(#1 ,#2)) ;".toList := by
  have h : Broken "#3=IFCPROPERTYSET('P1',$,'Pset''s',$,".toList ["  (#1 ,".toList, []]
      " #2)) ; ".toList := by decide
  have hopen : endsWith ')' (trim "#3=IFCPROPERTYSET('P1',$,'Pset''s',$,".toList) = false := by
    decide
  exact ⟨h, hopen, (lines_of_broken {} h).1 hopen⟩

/-- **A record may lose its end.** The line break comes behind the list of members, so the record
ends with the first line, and its last parameter is no list. -/
theorem exists_cut_off_record :
    Broken "#3=IFCPROPERTYSET('P1',$,'Pset_WallCommon',$,(#2)".toList [] ");".toList ∧
      (({} : Scan).lines ["#3=IFCPROPERTYSET('P1',$,'Pset_WallCommon',$,(#2)".toList,
          ");".toList]).store.list
        = [⟨3, "IFCPROPERTYSET", "'P1',$,'Pset_WallCommon',$,(#2".toList⟩] ∧
      (({} : Scan).line "#3=IFCPROPERTYSET('P1',$,'Pset_WallCommon',$,(#2));".toList).store.list
        = [⟨3, "IFCPROPERTYSET", "'P1',$,'Pset_WallCommon',$,(#2)".toList⟩] := by
  decide +kernel

end BimAudit.Ifc.Scan
