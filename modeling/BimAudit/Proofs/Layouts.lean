import BimAudit.Proofs.ReadRecords
import BimAudit.Proofs.RecordLines
import BimAudit.Text.Pieces

/-!
# Layout does not matter

Blanks at the ends of lines, carriage returns and blank lines are layout: a text may get more of
them anywhere, also inside of a record that runs over several lines, open or closed. What counts is
the lines that are left when each is trimmed and the empty ones are taken out.

* `Text.visibleLines`: these lines. `Text.visibleLines_insert`: blanks at the start or the end of a
  line leave them alone. `Text.visibleLines_lines`: they are those of `Text.lines`.
* `Scan.lines_visible`: lines are scanned like the visible ones among them.
* `Relaid`: the text with more layout. `read_of_relaid`: **the model stays the same.**
-/

namespace BimAudit.Text

/-! ### Trimmed lines -/

variable {s before behind blanks : List Char}

/-- What a line ends with depends on the trimmed end of its rest only. -/
theorem trimEnd_cons_congr {p l : List Char} (h : trimEnd p = trimEnd l) (c : Char) :
    trimEnd (c :: p) = trimEnd (c :: l) := by
  have hcons : ∀ s, trimEnd (c :: s) = trimEnd (c :: trimEnd s) := by
    intro s
    obtain ⟨blanks, heq, hblanks⟩ := exists_trimEnd_append s
    conv_lhs => rw [heq]
    rw [← List.cons_append, trimEnd_append_blanks hblanks]
  rw [hcons p, h, ← hcons l]

/-! ### Pieces -/

/-- There is always a first piece. -/
theorem exists_pieces_eq_cons (mark : Char) (s : List Char) : ∃ p ps, pieces mark s = p :: ps := by
  cases s with
  | nil => exact ⟨[], [], rfl⟩
  | cons c s =>
    rw [pieces]
    split
    · exact ⟨[], pieces mark s, rfl⟩
    · split
      · next p ps _ => exact ⟨c :: p, ps, rfl⟩
      · exact ⟨[c], [], rfl⟩

theorem pieces_cons_of_ne {mark c : Char} (h : c ≠ mark) {p : List Char} {ps : List (List Char)}
    (hs : pieces mark s = p :: ps) : pieces mark (c :: s) = (c :: p) :: ps := by
  rw [pieces, if_neg h, hs]

theorem pieces_mark (mark : Char) (s : List Char) :
    pieces mark (mark :: s) = [] :: pieces mark s := by
  rw [pieces, if_pos rfl]

/-- A mark cuts a text into the pieces in front of it and behind it. -/
theorem pieces_append_mark (mark : Char) (p s : List Char) :
    pieces mark (p ++ mark :: s) = pieces mark p ++ pieces mark s := by
  induction p with
  | nil => exact pieces_mark mark s
  | cons c p ih =>
    rw [List.cons_append]
    by_cases hc : c = mark
    · rw [hc, pieces_mark, pieces_mark, ih, List.cons_append]
    · obtain ⟨q, qs, hq⟩ := exists_pieces_eq_cons mark p
      rw [hq, List.cons_append] at ih
      rw [pieces_cons_of_ne hc hq, pieces_cons_of_ne hc ih, List.cons_append]

/-- Without a mark there is one piece. -/
theorem pieces_of_not_mem {mark : Char} (h : mark ∉ s) : pieces mark s = [s] := by
  induction s with
  | nil => rfl
  | cons c s ih =>
    rw [List.mem_cons, not_or] at h
    exact pieces_cons_of_ne (Ne.symm h.1) (ih h.2)

/-! ### Visible lines -/

/-- Lines without the blanks around them; those that are blank are left out. -/
def visible (ls : List (List Char)) : List (List Char) := (ls.map trim).filter (· ≠ [])

/-- What stands on the lines of a text. -/
def visibleLines (s : List Char) : List (List Char) := visible (pieces '\n' s)

theorem visible_append (ls ms : List (List Char)) :
    visible (ls ++ ms) = visible ls ++ visible ms := by
  rw [visible, List.map_append, List.filter_append]
  rfl

/-- Of a line only what is left after trimming is visible. -/
theorem visible_cons_congr {l m : List Char} (h : trim l = trim m) (ls : List (List Char)) :
    visible (l :: ls) = visible (m :: ls) := by
  rw [visible, visible, List.map_cons, List.map_cons, h]

theorem visible_nil_cons (ls : List (List Char)) : visible ([] :: ls) = visible ls := rfl

/-- Trimming the ends of lines makes no difference. -/
theorem visible_map_trimEnd (ls : List (List Char)) : visible (ls.map trimEnd) = visible ls := by
  have hcomp : trim ∘ trimEnd = trim := funext trim_trimEnd
  rw [visible, List.map_map, hcomp]
  rfl

/-- A line feed cuts a text into the visible lines in front of it and behind it. -/
theorem visibleLines_append_feed (p s : List Char) :
    visibleLines (p ++ '\n' :: s) = visibleLines p ++ visibleLines s := by
  rw [visibleLines, pieces_append_mark, visible_append]
  rfl

/-- A blank in front of a text changes no visible line. -/
theorem visibleLines_cons_blank {c : Char} (h : isBlank c = true) (s : List Char) :
    visibleLines (c :: s) = visibleLines s := by
  by_cases hc : c = '\n'
  · rw [hc, visibleLines, pieces_mark, visible_nil_cons]
    rfl
  · obtain ⟨p, ps, hp⟩ := exists_pieces_eq_cons '\n' s
    rw [visibleLines, visibleLines, pieces_cons_of_ne hc hp, hp,
      visible_cons_congr (trim_cons_blank h p)]

/-- Blanks in front of a text change no visible line. -/
theorem visibleLines_blanks_append (h : ∀ c ∈ blanks, isBlank c = true) (s : List Char) :
    visibleLines (blanks ++ s) = visibleLines s := by
  induction blanks with
  | nil => rfl
  | cons c blanks ih =>
    rw [List.cons_append, visibleLines_cons_blank (h c List.mem_cons_self),
      ih fun d hd => h d (List.mem_cons_of_mem _ hd)]

/-- A blank behind a text changes no visible line. -/
theorem visibleLines_append_blank {c : Char} (h : isBlank c = true) (s : List Char) :
    visibleLines (s ++ [c]) = visibleLines s := by
  by_cases hc : c = '\n'
  · rw [hc, visibleLines_append_feed]
    exact List.append_nil _
  · -- the last line is the only one that changes: `q` is what has been seen of it
    have hline : ∀ q : List Char, '\n' ∉ q →
        visibleLines (q ++ s ++ [c]) = visibleLines (q ++ s) := by
      induction s with
      | nil =>
        intro q hq
        have hq' : '\n' ∉ q ++ [c] := by simp [hq, Ne.symm hc]
        rw [List.append_nil, visibleLines, visibleLines, pieces_of_not_mem hq,
          pieces_of_not_mem hq']
        exact visible_cons_congr (trim_append_blanks (by simpa using h) q) []
      | cons d s ih =>
        intro q hq
        by_cases hd : d = '\n'
        · have hrest := ih [] List.not_mem_nil
          rw [List.nil_append] at hrest
          rw [hd, List.append_assoc, List.cons_append, visibleLines_append_feed,
            visibleLines_append_feed, hrest]
        · have hrest := ih (q ++ [d]) (by simp [hq, Ne.symm hd])
          rwa [List.append_assoc q [d] s, List.singleton_append] at hrest
    exact hline [] List.not_mem_nil

/-- Blanks behind a text change no visible line. -/
theorem visibleLines_append_blanks (h : ∀ c ∈ blanks, isBlank c = true) (s : List Char) :
    visibleLines (s ++ blanks) = visibleLines s := by
  induction blanks generalizing s with
  | nil => rw [List.append_nil]
  | cons c blanks ih =>
    rw [← List.singleton_append, ← List.append_assoc,
      ih (fun d hd => h d (List.mem_cons_of_mem _ hd)),
      visibleLines_append_blank (h c List.mem_cons_self)]

/-! ### Layout -/

/-- A line starts behind the text. -/
def LineStart (before : List Char) : Prop := before = [] ∨ ∃ p, before = p ++ ['\n']

/-- A line ends in front of the text: nothing comes, or a line end. -/
def LineEnd (behind : List Char) : Prop :=
  behind = [] ∨ (∃ r, behind = '\n' :: r) ∨ ∃ r, behind = '\r' :: '\n' :: r

theorem visibleLines_of_lineStart (h : LineStart before) (behind : List Char) :
    visibleLines (before ++ behind) = visibleLines before ++ visibleLines behind := by
  rcases h with rfl | ⟨p, rfl⟩
  · rfl
  · rw [List.append_assoc, List.singleton_append, visibleLines_append_feed,
      visibleLines_append_feed]
    exact congrArg (· ++ visibleLines behind) (List.append_nil _).symm

theorem visibleLines_of_lineEnd (h : LineEnd behind) (before : List Char) :
    visibleLines (before ++ behind) = visibleLines before ++ visibleLines behind := by
  have hfeed : ∀ r, visibleLines ('\n' :: r) = visibleLines r := fun _ => rfl
  rcases h with rfl | ⟨r, rfl⟩ | ⟨r, rfl⟩
  · rw [List.append_nil]
    exact (List.append_nil _).symm
  · rw [visibleLines_append_feed, hfeed]
  · rw [← List.singleton_append, ← List.append_assoc, visibleLines_append_feed,
      visibleLines_append_blank (by decide), List.singleton_append,
      visibleLines_cons_blank (by decide), hfeed]

/-- **Blanks at the start or the end of a line leave the visible lines alone**, line feeds too. -/
theorem visibleLines_insert (before : List Char) {blanks : List Char} (behind : List Char)
    (hblanks : ∀ c ∈ blanks, isBlank c = true) (h : LineStart before ∨ LineEnd behind) :
    visibleLines (before ++ blanks ++ behind) = visibleLines (before ++ behind) := by
  rcases h with h | h
  · rw [List.append_assoc, visibleLines_of_lineStart h, visibleLines_blanks_append hblanks,
      ← visibleLines_of_lineStart h]
  · rw [visibleLines_of_lineEnd h, visibleLines_append_blanks hblanks, ← visibleLines_of_lineEnd h]

/-! ### Lines -/

/-- The lines of a text are its pieces, but for blanks at their ends and an empty piece at last. -/
theorem map_trimEnd_lines (s : List Char) :
    ((s.foldr lineStep (false, [])).1 = true ↔ s.head? = some '\n') ∧
      ((pieces '\n' s).map trimEnd = (lines s).map trimEnd ∨
        (pieces '\n' s).map trimEnd = (lines s).map trimEnd ++ [[]]) := by
  unfold lines
  induction s with
  | nil => exact ⟨by simp, .inr rfl⟩
  | cons c s ih =>
    obtain ⟨hhead, hlines⟩ := ih
    obtain ⟨p, ps, hp⟩ := exists_pieces_eq_cons '\n' s
    rw [List.foldr_cons]
    generalize s.foldr lineStep (false, []) = state at hhead hlines ⊢
    obtain ⟨beforeFeed, ls⟩ := state
    unfold lineStep
    by_cases hfeed : c = '\n'
    · subst hfeed
      rw [pieces_mark]
      refine ⟨by simp, hlines.imp ?_ ?_⟩ <;>
      · intro h
        simp [h]
    by_cases hreturn : c = '\r' ∧ beforeFeed = true
    · -- the carriage return is a line by itself among the pieces, or a blank at the end of one
      obtain ⟨rfl, hbefore⟩ := hreturn
      obtain ⟨t, rfl⟩ := List.head?_eq_some_iff.1 (hhead.1 hbefore)
      rw [pieces_mark] at hp hlines
      cases hp
      rw [pieces_cons_of_ne hfeed (pieces_mark '\n' t)]
      have hblank : trimEnd ['\r'] = trimEnd [] := by decide
      simpa [hbefore, hblank] using hlines
    · simp only [if_neg hfeed, if_neg hreturn]
      rw [hp] at hlines
      rw [pieces_cons_of_ne hfeed hp]
      cases ls with
      | nil =>
        refine ⟨by simp [hfeed], .inl ?_⟩
        rcases hlines with h | h
        · cases h
        · obtain ⟨hpiece, hrest⟩ := List.cons.inj h
          rw [List.map_cons, trimEnd_cons_congr (l := []) hpiece, hrest]
          rfl
      | cons l ls =>
        refine ⟨by simp [hfeed], hlines.imp ?_ ?_⟩ <;>
        · intro h
          obtain ⟨hpiece, hrest⟩ := List.cons.inj h
          simp [trimEnd_cons_congr hpiece c, hrest]

/-- **The visible lines of a text are those among its lines.** -/
theorem visibleLines_lines (s : List Char) : visible (lines s) = visibleLines s := by
  rw [visibleLines, ← visible_map_trimEnd, ← visible_map_trimEnd (pieces '\n' s)]
  rcases (map_trimEnd_lines s).2 with h | h
  · rw [h]
  · rw [h, visible_append]
    exact (List.append_nil _).symm

end BimAudit.Text

namespace BimAudit.Ifc

open Text (isBlank trim visible visibleLines LineStart LineEnd)

namespace Scan

/-! ### Scanning -/

theorem line_trim (s : Scan) (l : List Char) : s.line (trim l) = s.line l := by
  unfold line
  rw [Text.trim_trim]

/-- A blank line changes nothing, whether a record is open or not. -/
theorem line_nil (s : Scan) : s.line [] = s := by
  obtain ⟨pending, schema, store⟩ := s
  cases pending with
  | none =>
    have hschema : Step.schemaName? [] = none := by decide
    have htrim : trim [] = [] := rfl
    unfold line start
    simp only [htrim, hschema, Step.startsRecord, Bool.false_eq_true, if_false, ite_self]
  | some text =>
    have hline := line_within (s := ⟨some text, schema, store⟩) (l := []) rfl rfl rfl
    rw [hline]
    exact congrArg (fun t => (⟨some t, schema, store⟩ : Scan)) (List.append_nil text)

/-- **Lines are scanned like the visible ones among them.** -/
theorem lines_visible (s : Scan) (ls : List (List Char)) : s.lines (visible ls) = s.lines ls := by
  induction ls generalizing s with
  | nil => rfl
  | cons l ls ih =>
    have hcons : s.lines (l :: ls) = (s.line l).lines ls := rfl
    rw [hcons, ← ih (s.line l)]
    by_cases hl : trim l = []
    · have hvisible : visible (l :: ls) = visible ls := by simp [visible, hl]
      rw [hvisible, ← line_trim s l, hl, line_nil]
    · have hvisible : visible (l :: ls) = trim l :: visible ls := by simp [visible, hl]
      rw [hvisible, ← line_trim s l]
      rfl

end Scan

/-! ### Reading -/

variable {text text' : List Char}

/-- A model depends on the visible lines of a text only. -/
theorem read_eq_of_visibleLines (h : visibleLines text = visibleLines text') (m n : Nat)
    (file : String) : read m file text = read n file text' := by
  have hscan : ({} : Scan).lines (Text.lines text) = ({} : Scan).lines (Text.lines text') := by
    rw [← Scan.lines_visible, Text.visibleLines_lines, h, ← Text.visibleLines_lines,
      Scan.lines_visible]
  rw [read_of_scan m file hscan, read_of_scan n file rfl]

/-- A blank that does not end the line. -/
def isLineBlank (c : Char) : Bool := isBlank c && c ≠ '\n'

theorem isBlank_of_isLineBlank {c : Char} (h : isLineBlank c = true) : isBlank c = true :=
  (Bool.and_eq_true_iff.1 h).1

/-- The second text is the first one with more layout: blanks other than line feeds at the start or
the end of lines, a carriage return in front of line feeds, or blank lines, one after the other. -/
inductive Relaid : List Char → List Char → Prop
  | refl (text : List Char) : Relaid text text
  | trans {text text' text'' : List Char} (h : Relaid text text') (h' : Relaid text' text'') :
      Relaid text text''
  | blanks (before blanks behind : List Char) (hline : LineStart before ∨ LineEnd behind)
      (hblanks : ∀ c ∈ blanks, isLineBlank c = true) :
      Relaid (before ++ behind) (before ++ blanks ++ behind)
  | carriageReturn (before behind : List Char) :
      Relaid (before ++ '\n' :: behind) (before ++ '\r' :: '\n' :: behind)
  | blankLine (before blanks behind : List Char) (hline : LineStart before)
      (hblanks : ∀ c ∈ blanks, isLineBlank c = true) :
      Relaid (before ++ behind) (before ++ (blanks ++ ['\n']) ++ behind)
  | lastLine (text blanks : List Char) (hblanks : ∀ c ∈ blanks, isLineBlank c = true) :
      Relaid text (text ++ '\n' :: blanks)

/-- More layout leaves the visible lines alone. -/
theorem Relaid.visibleLines_eq (h : Relaid text text') :
    visibleLines text = visibleLines text' := by
  induction h with
  | refl => rfl
  | trans _ _ ih ih' => exact ih.trans ih'
  | blanks before _ behind hline hblanks =>
    have hall : ∀ c ∈ _, isBlank c = true := fun c hc => isBlank_of_isLineBlank (hblanks c hc)
    exact (Text.visibleLines_insert before behind hall hline).symm
  | carriageReturn before behind =>
    have hreturn : ∀ c ∈ ['\r'], isBlank c = true := List.forall_mem_singleton.2 rfl
    have hinsert := Text.visibleLines_insert before ('\n' :: behind) hreturn
      (.inr (.inr (.inl ⟨behind, rfl⟩)))
    rw [List.append_assoc, List.singleton_append] at hinsert
    exact hinsert.symm
  | blankLine before blanks behind hline hblanks =>
    refine (Text.visibleLines_insert before behind ?_ (.inl hline)).symm
    intro c hc
    rcases List.mem_append.1 hc with hc | hc
    · exact isBlank_of_isLineBlank (hblanks c hc)
    · rw [List.mem_singleton.1 hc]
      decide
  | lastLine text blanks hblanks =>
    refine (Text.visibleLines_append_blanks ?_ text).symm
    intro c hc
    rcases List.mem_cons.1 hc with rfl | hc
    · decide
    · exact isBlank_of_isLineBlank (hblanks c hc)

/-- **Layout does not matter.** A text with more of it, inside of records or outside, holds the same
model: the same schema and the same entities. -/
theorem read_of_relaid (h : Relaid text text') (m n : Nat) (file : String) :
    read m file text = read n file text' :=
  read_eq_of_visibleLines h.visibleLines_eq m n file

/-- A wall on two lines. -/
def wallOnTwoLines : List Char := "#1=IFCWALL(\n'g');".toList

/-- Its first line ends with a carriage return, a blank line follows, and the second line is
indented. -/
def wallOnTwoLinesRelaid : List Char := "#1=IFCWALL(\r\n \t\r\n  'g');".toList

/-- A wall on two lines is the same with another layout. -/
theorem read_of_relaid_wallOnTwoLines :
    Relaid wallOnTwoLines wallOnTwoLinesRelaid ∧
      recordsIn wallOnTwoLinesRelaid = [⟨1, "IFCWALL", "'g'".toList⟩] ∧
      read 1 "wall.ifc" wallOnTwoLines = read 1000 "wall.ifc" wallOnTwoLinesRelaid := by
  have hreturn : Relaid wallOnTwoLines "#1=IFCWALL(\r\n'g');".toList :=
    .carriageReturn "#1=IFCWALL(".toList "'g');".toList
  have hline : Relaid "#1=IFCWALL(\r\n'g');".toList "#1=IFCWALL(\r\n \t\r\n'g');".toList :=
    .blankLine "#1=IFCWALL(\r\n".toList [' ', '\t', '\r'] "'g');".toList
      (.inr ⟨"#1=IFCWALL(\r".toList, rfl⟩) (List.all_eq_true.1 rfl)
  have hblanks : Relaid "#1=IFCWALL(\r\n \t\r\n'g');".toList wallOnTwoLinesRelaid :=
    .blanks "#1=IFCWALL(\r\n \t\r\n".toList [' ', ' '] "'g');".toList
      (.inl (.inr ⟨"#1=IFCWALL(\r\n \t\r".toList, rfl⟩)) (List.all_eq_true.1 rfl)
  have h : Relaid wallOnTwoLines wallOnTwoLinesRelaid := (hreturn.trans hline).trans hblanks
  exact ⟨h, by decide +kernel, read_of_relaid h 1 1000 "wall.ifc"⟩

end BimAudit.Ifc
