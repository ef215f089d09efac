import BimAudit.Proofs.MixedContent

/-!
# Documents with cuts inside of texts

What is written inside of elements is read as the events that it stands for, each part of it up to
its own end. So a document is read as the element with the texts that are left when the white space
next to cuts is dropped.

* `event?_comment`, `event?_instruction`, `event?_cdata`: each ends where its mark comes first.
* `Content.WellFormed.run`: **the reader takes what is written as its events.**
* `events_written`: so it does with a document.
* `read_written`: **which element a document is read as**, and when no white space is missing.
* `exists_lost_space`: words on both sides of a comment grow together.
-/

namespace BimAudit.Xml

open Text (Free Tight dropEnds isSpace)

variable {w tag closing : List Char} {x : Content} {c : Cut}

/-! ### The text is read as these events -/

variable {opened : List (List Char)} {p s : List Char}

/-- A text is cut at the first place of a mark. -/
theorem splitAt?_append (h : Free p s) (r : List Char) :
    splitAt? p (s ++ (p ++ r)) = some (s, r) := by
  unfold splitAt?
  rw [Text.position?_append h, Option.map_some, List.take_left, ← List.length_append,
    ← List.append_assoc, List.drop_left]

/-- A comment is one event, which counts for nothing. -/
theorem event?_comment (h : (Cut.comment s).WellFormed) (r : List Char) :
    event? opened ((Cut.comment s).written ++ r) = some (.other, opened, r) := by
  have hsplit := splitAt?_append h r
  have hwritten : (Cut.comment s).written ++ r
      = '<' :: '!' :: '-' :: '-' :: (s ++ (['-', '-', '>'] ++ r)) := by
    simp [Cut.written]
  rw [hwritten, event?_open, markup?, declaration?, hsplit]
  rfl

/-- An instruction is one event, which counts for nothing. -/
theorem event?_instruction (h : (Cut.instruction s).WellFormed) (r : List Char) :
    event? opened ((Cut.instruction s).written ++ r) = some (.other, opened, r) := by
  have hsplit := splitAt?_append h.1 r
  have hwritten : (Cut.instruction s).written ++ r = '<' :: '?' :: (s ++ (['?', '>'] ++ r)) := by
    simp [Cut.written]
  have hinstruction : instruction? (s ++ (['?', '>'] ++ r)) = some (.other, r) := by
    unfold instruction?
    split
    · next heq =>
      -- neither the instruction nor its end begins with the bracket
      have hhead := congrArg List.head? heq
      rw [List.head?_append] at hhead
      cases hs : s.head? with
      | none =>
        rw [hs] at hhead
        cases hhead
      | some a =>
        rw [hs] at hhead
        exact absurd (hs.trans hhead) h.2
    · rw [hsplit]
      rfl
  rw [hwritten, event?_open, markup?, hinstruction]
  rfl

/-- A CDATA section is one event with its characters. -/
theorem event?_cdata (h : (Cut.cdata s).WellFormed) (r : List Char) :
    event? opened ((Cut.cdata s).written ++ r) = some (.cdata (String.ofList s), opened, r) := by
  have hsplit := splitAt?_append h r
  have hwritten : (Cut.cdata s).written ++ r
      = '<' :: '!' :: '[' :: ("CDATA[".toList ++ (s ++ ([']', ']', '>'] ++ r))) := by
    simp [Cut.written]
  have hdeclaration : declaration? ('[' :: ("CDATA[".toList ++ (s ++ ([']', ']', '>'] ++ r))))
      = some (.cdata (String.ofList s), r) := by
    have hbegin : "CDATA[".toList.isPrefixOf
        ("CDATA[".toList ++ (s ++ ([']', ']', '>'] ++ r))) = true :=
      List.isPrefixOf_iff_prefix.2 (List.prefix_append _ _)
    have hdrop : ("CDATA[".toList ++ (s ++ ([']', ']', '>'] ++ r))).drop 6
        = s ++ ([']', ']', '>'] ++ r) := rfl
    rw [declaration?, if_pos hbegin, hdrop, hsplit]
    rfl
  rw [hwritten, event?_open, markup?, hdeclaration]
  rfl

/-- A text between two cuts is one event, or none if it is white space. -/
theorem run_pieceEvents (h : IsText w) (n : Nat) {r : List Char}
    (hr : r.head? = none ∨ r.head? = some '<') :
    run ((pieceEvents w).length + n) opened (w ++ r) = pieceEvents w ++ run n opened r := by
  unfold pieceEvents
  split
  · next hblank =>
    rw [List.length_nil, Nat.zero_add, List.nil_append]
    exact run_congr (event?_spaces hblank r)
  · next hne =>
    have hevent : event? opened (w ++ r)
        = some (.text (some (String.ofList (characters (dropEnds isSpace w)))), opened, r) := by
      rw [event?_of_not_mem h.not_mem hne hr, h.unescape?_eq, Option.map_some]
    exact run_singleton hevent n

/-- Every cut begins with an angle bracket, so the text in front of it ends there. -/
theorem Cut.exists_written (c : Cut) : ∃ s, c.written = '<' :: s := by
  cases c with
  | comment | instruction | cdata | single => exact ⟨_, rfl⟩
  | element =>
    rw [written]
    exact ⟨_, rfl⟩

theorem Cut.head?_written (c : Cut) (r : List Char) : (c.written ++ r).head? = some '<' := by
  obtain ⟨s, hs⟩ := c.exists_written
  rw [hs]
  rfl

mutual

/-- **The reader takes what is written as its events**, one for each unit of fuel, and goes on
behind it with the same elements open. -/
theorem Content.WellFormed.run : ∀ {x : Content}, x.WellFormed → ∀ (n : Nat)
    (opened : List (List Char)) {r : List Char}, (r.head? = none ∨ r.head? = some '<') →
    run (x.events.length + n) opened (x.written ++ r) = x.events ++ run n opened r
  | .last w, h, n, opened, r, hr => run_pieceEvents h n hr
  | .cut w c x, ⟨hw, hc, hx⟩, n, opened, r, hr => by
    have hlength : (Content.cut w c x).events.length + n
        = (pieceEvents w).length + (c.events.length + (x.events.length + n)) := by
      rw [Content.events, List.length_append, List.length_append]
      omega
    rw [hlength, Content.written, List.append_assoc, List.append_assoc,
      run_pieceEvents hw _ (.inr (c.head?_written _)), hc.run, hx.run n opened hr,
      Content.events, List.append_assoc, List.append_assoc]

/-- **A cut is read as its events.** What stands in an element is read by the same theorem for
contents. -/
theorem Cut.WellFormed.run : ∀ {c : Cut}, c.WellFormed → ∀ (n : Nat)
    (opened : List (List Char)) (r : List Char),
    run (c.events.length + n) opened (c.written ++ r) = c.events ++ run n opened r
  | .comment s, h, n, opened, r => run_singleton (event?_comment h r) n
  | .instruction s, h, n, opened, r => run_singleton (event?_instruction h r) n
  | .cdata s, h, n, opened, r => run_singleton (event?_cdata h r) n
  | .single tag, h, n, opened, r => by
    have hwritten : (Cut.single tag).written ++ r = '<' :: (tag ++ '/' :: '>' :: r) := by
      simp [Cut.written]
    rw [hwritten]
    exact run_singleton (event?_slash (IsTag.inTag h) (IsTag.head h) r) n
  | .element tag x closing, ⟨htag, hx, hclosing⟩, n, opened, r => by
    have hlength : (Cut.element tag x closing).events.length + n
        = x.events.length + (n + 1) + 1 := by
      rw [Cut.events, List.length_cons, List.length_append, List.length_singleton]
      omega
    have hwritten : (Cut.element tag x closing).written ++ r
        = '<' :: (tag ++ '>' :: (x.written ++ '<' :: '/' :: (closing ++ '>' :: r))) := by
      simp [Cut.written]
    rw [hlength, hwritten, run_succ (event?_opening htag.inTag htag.head htag.last _),
      hx.run (n + 1) _ (.inr rfl), run_succ (event?_closing hclosing.inTag hclosing.name r),
      Cut.events]
    simp

end

/-! ### There is fuel enough -/

/-- A text has no more events than characters. -/
theorem length_pieceEvents_le (w : List Char) : (pieceEvents w).length ≤ w.length := by
  unfold pieceEvents
  split
  · exact Nat.zero_le _
  · next h =>
    have hne : w ≠ [] := by
      rintro rfl
      exact h rfl
    exact List.length_pos_iff.2 hne

mutual

/-- Content has no more events than characters. -/
theorem Content.length_events_le : ∀ x : Content, x.events.length ≤ x.written.length
  | .last w => length_pieceEvents_le w
  | .cut w c x => by
    have hw := length_pieceEvents_le w
    have hc := c.length_events_le
    have hx := x.length_events_le
    rw [Content.events, Content.written]
    simp only [List.length_append]
    omega

/-- A cut has no more events than characters. -/
theorem Cut.length_events_le : ∀ c : Cut, c.events.length ≤ c.written.length
  | .comment _ | .instruction _ | .cdata _ | .single _ => Nat.le_add_left _ _
  | .element tag x closing => by
    have hx := x.length_events_le
    rw [Cut.events, Cut.written]
    simp only [List.length_append, List.length_cons, List.length_nil]
    omega

end

/-! ### Documents -/

/-- White space is a text. -/
theorem isText_of_isSpace (h : w.all isSpace = true) : IsText w := by
  have h := List.all_eq_true.1 h
  refine ⟨fun hmem => ?_, ?_⟩
  · exact Text.ne_of_pred (h '<' hmem) (b := '<') (by decide) rfl
  · have hfront := unescape?_front h []
    rw [List.append_nil, unescape?, Option.map_some] at hfront
    rw [hfront]
    rfl

mutual

theorem Content.WellFormed.of_mem_inner : ∀ {x : Content}, x.WellFormed → ∀ y ∈ x.inner,
    y.WellFormed
  | .last _, _, _, hy => nomatch hy
  | .cut _ _ _, ⟨_, hc, hx⟩, y, hy => by
    rw [Content.inner] at hy
    rcases List.mem_append.1 hy with hy | hy
    · exact hc.of_mem_inner y hy
    · exact hx.of_mem_inner y hy

theorem Cut.WellFormed.of_mem_inner : ∀ {c : Cut}, c.WellFormed → ∀ y ∈ c.inner, y.WellFormed
  | .comment _, _, _, hy | .instruction _, _, _, hy | .cdata _, _, _, hy => nomatch hy
  | .single _, _, y, hy => by
    rw [Cut.inner] at hy
    rw [List.mem_singleton.1 hy]
    exact isText_of_isSpace rfl
  | .element _ x _, ⟨_, hx, _⟩, y, hy => by
    rw [Cut.inner] at hy
    rcases List.mem_cons.1 hy with rfl | hy
    · exact hx
    · exact hx.of_mem_inner y hy

end

/-- What may stand around the root: comments and instructions with white space between them. -/
def Content.IsMisc : Content → Prop
  | .last w => w.all isSpace = true
  | .cut w c x => w.all isSpace = true ∧ c.WellFormed ∧ c.events = [.other] ∧ x.IsMisc

theorem pieceEvents_of_isSpace (h : w.all isSpace = true) : pieceEvents w = [] := by
  unfold pieceEvents
  rw [if_pos (List.dropWhile_eq_nil_iff.2 (List.all_eq_true.1 h))]

theorem Content.IsMisc.wellFormed : ∀ {x : Content}, x.IsMisc → x.WellFormed
  | .last _, h => isText_of_isSpace h
  | .cut _ _ _, ⟨hw, hc, _, hx⟩ => ⟨isText_of_isSpace hw, hc, hx.wellFormed⟩

/-- Around the root there are no events that count. -/
theorem Content.IsMisc.eq_other : ∀ {x : Content}, x.IsMisc → ∀ e ∈ x.events, e = .other
  | .last w, h, e, he => by
    rw [Content.events, pieceEvents_of_isSpace h] at he
    cases he
  | .cut w c x, ⟨hw, _, hc, hx⟩, e, he => by
    rw [Content.events, pieceEvents_of_isSpace hw, hc] at he
    rcases List.mem_cons.1 he with rfl | he
    · rfl
    · exact hx.eq_other e he

/-- There is no byte order mark in front. -/
theorem Content.IsMisc.head?_ne {c : Cut} (h : x.IsMisc) (r : List Char) :
    (x.written ++ (c.written ++ r)).head? ≠ some '\uFEFF' := by
  have hspaces : ∀ {w s : List Char}, w.all isSpace = true → s.head? = some '<' →
      (w ++ s).head? ≠ some '\uFEFF' := by
    intro w s hw hs heq
    cases w with
    | nil =>
      rw [List.nil_append, hs] at heq
      cases heq
    | cons a w =>
      rw [List.cons_append, List.head?_cons] at heq
      exact Text.ne_of_pred (List.all_eq_true.1 hw a List.mem_cons_self) (b := '\uFEFF')
        (by decide) (Option.some.inj heq)
  cases x with
  | last w => exact hspaces h (c.head?_written r)
  | cut w d y =>
    rw [written, List.append_assoc, List.append_assoc]
    exact hspaces h.1 (d.head?_written _)

variable {before after : Content}

/-- A document as it is written gives the events of what it is written from. -/
theorem events_written (hbefore : before.IsMisc) (hafter : after.IsMisc) (h : c.WellFormed) :
    events (before.written ++ (c.written ++ after.written))
      = before.events ++ (c.events ++ after.events) := by
  -- every event has taken a character, so there is fuel for all of them
  obtain ⟨k, hk⟩ : ∃ k, (before.written ++ (c.written ++ after.written)).length
      = before.events.length + (c.events.length + (after.events.length + k)) := by
    have hlength := before.length_events_le
    have hlength' := c.length_events_le
    have hlength'' := after.length_events_le
    refine ⟨before.written.length + c.written.length + after.written.length
      - before.events.length - c.events.length - after.events.length, ?_⟩
    rw [List.length_append, List.length_append]
    omega
  have hend : run k [] [] = [] := by
    cases k <;> rfl
  have hrest := hafter.wellFormed.run k [] (r := []) (.inl rfl)
  rw [List.append_nil, hend, List.append_nil] at hrest
  unfold events
  rw [if_neg (hbefore.head?_ne _), hk,
    hbefore.wellFormed.run _ _ (.inr (c.head?_written _)), h.run, hrest]

/-- **Which element a document is read as.** It has the text that is left of its character data, and
so have the elements in it, at any depth. Trimmed, such a text is the trimmed character data if no
white space that is dropped next to a cut has something else than blanks on both sides, and only
then. -/
theorem read_written (hbefore : before.IsMisc) (hafter : after.IsMisc)
    (h : (Cut.element tag x closing).WellFormed) :
    read (String.ofList (before.written ++ ((Cut.element tag x closing).written ++ after.written)))
        = .ok (elementOf tag x.text x.children) ∧
      (elementOf tag x.text x.children).texts
        = (Cut.element tag x closing).inner.map Content.text ∧
      ∀ y ∈ (Cut.element tag x closing).inner,
        (Text.strip y.text = Text.strip (String.ofList y.data) ↔ Tight y.parts) := by
  have htexts := (Cut.element tag x closing).texts_children
  rw [Cut.children, textsAll_singleton] at htexts
  refine ⟨?_, htexts, fun y hy => (h.of_mem_inner y hy).strip_text_iff⟩
  have hother : ∀ {z : Content}, z.IsMisc → ∀ e ∈ z.events, e.IsPassedOver := by
    intro z hz e he
    rw [hz.eq_other e he]
    trivial
  unfold read
  rw [String.toList_ofList, events_written hbefore hafter h, ofEvents_eq_ok_iff]
  exact ⟨before.events, _, after.events, rfl, isElement h.1 h.2.1.isContent, hother hbefore,
    hother hafter⟩

/-- A name alone is an opening tag. -/
theorem isTag_of_isName {name : String} (h : IsName name) : IsTag name.toList := by
  have hname := toList_tag_nil name
  have htag := tagOf_tag h areAttributes_nil
  rw [hname] at htag
  refine ⟨h.inTag, hname ▸ exists_cons_tag h [], hname ▸ getLast?_tag h [], ?_⟩
  rw [htag]
  rfl

/-- A name closes the tag that consists in it. -/
theorem closes_of_isName {name : String} (h : IsName name) : Closes name.toList name.toList := by
  refine ⟨h.inTag, ?_⟩
  have hname := (takeWhile_tag h []).1
  rw [toList_tag_nil] at hname
  rw [closingName_toList h, hname]

/-- White space at the ends of the text and inside of a CDATA section, none next to a cut. -/
theorem read_written_two_cuts :
    read "<?xml?>\n<title> Walls<![CDATA[ & ]]>doors<!-- c --> </title>"
        = .ok { name := "title", text := "Walls & doors" } ∧
      Text.strip "Walls & doors" = Text.strip " Walls & doors " := by
  have hname : IsName "title" := by decide
  have htag : tagOf "title".toList = ⟨"title", some []⟩ := by decide +kernel
  have hdocument := @read_written "title".toList "title".toList
    (.cut " Walls".toList (.cdata " & ".toList)
      (.cut "doors".toList (.comment " c ".toList) (.last [' '])))
    (.cut [] (.instruction "xml".toList) (.last ['\n'])) (.last [])
    ⟨rfl, ⟨by decide, by decide⟩, rfl, rfl⟩ rfl
    ⟨isTag_of_isName hname,
      ⟨⟨by decide, by decide +kernel⟩, by unfold Cut.WellFormed; decide,
        ⟨by decide, by decide +kernel⟩, by unfold Cut.WellFormed; decide,
        ⟨by decide, by decide +kernel⟩⟩,
      closes_of_isName hname⟩
  have htext : (Content.cut " Walls".toList (.cdata " & ".toList)
      (.cut "doors".toList (.comment " c ".toList) (.last [' ']))).text = "Walls & doors" := by
    decide +kernel
  have hstrip := (hdocument.2.2 _ List.mem_cons_self).2 (by decide +kernel)
  rw [htext] at hstrip
  refine ⟨?_, ?_⟩
  · rw [htext, elementOf, htag] at hdocument
    exact hdocument.1
  · exact hstrip.trans (by decide +kernel)

/-- **Words on both sides of a comment grow together**, although white space stands between them. -/
theorem exists_lost_space :
    read "<title>Walls <!-- c -->and doors</title>"
        = .ok { name := "title", text := "Wallsand doors" } ∧
      read "<title>Walls and doors</title>" = .ok { name := "title", text := "Walls and doors" } ∧
      ∃ x : Content, (Cut.element "title".toList x "title".toList).WellFormed ∧
        String.ofList (Cut.element "title".toList x "title".toList).written
          = "<title>Walls <!-- c -->and doors</title>" ∧
        String.ofList x.data = "Walls and doors" := by
  have hevents : events "<title>Walls <!-- c -->and doors</title>".toList
      = [.start ⟨"title", some []⟩, .text (some "Walls"), .other, .text (some "and doors"),
        .close] := by decide +kernel
  have hevents' : events "<title>Walls and doors</title>".toList
      = [.start ⟨"title", some []⟩, .text (some "Walls and doors"), .close] := by decide +kernel
  have hname : IsName "title" := by decide
  refine ⟨?_, ?_, .cut "Walls ".toList (.comment " c ".toList) (.last "and doors".toList),
    ⟨isTag_of_isName hname, ⟨⟨by decide, by decide +kernel⟩, by unfold Cut.WellFormed; decide,
      ⟨by decide, by decide +kernel⟩⟩, closes_of_isName hname⟩, by decide +kernel,
    by decide +kernel⟩
  · unfold read
    rw [hevents]
    rfl
  · unfold read
    rw [hevents']
    rfl

end BimAudit.Xml
