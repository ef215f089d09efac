import BimAudit.Proofs.DroppedBlanks
import BimAudit.Proofs.EventDocuments
import BimAudit.Proofs.FirstPlaces

/-!
# Text with cuts inside

The text of an element is cut into pieces by comments, instructions, CDATA sections and other
elements. Every piece loses the white space at its ends before the pieces are put together, so white
space next to a cut is missing. A text that is trimmed afterwards shows it only if something else
than blanks stands on both sides of it.

* `Content`, `Cut`: what stands inside of elements, as it is written, and its `events`.
* `Content.data`: the character data of an element. `Content.parts`: what the reader makes of it.
* `Content.WellFormed.strip_text_iff`: **when no white space is missing** in the trimmed text.
* `Content.texts_children`: which texts the elements inside have.
* `Content.WellFormed.isContent`: the events denote the text that is left and the elements in order.
-/

namespace BimAudit.Xml

open Text (DropsBlanks Free Part Tight dropEnds isSpace left whole)

/-! ### Written content -/

mutual

/-- What stands inside of an element: texts as they are written, with cuts between them. -/
inductive Content where
  | last (text : List Char)
  | cut (text : List Char) (c : Cut) (rest : Content)

/-- What stands between two texts. -/
inductive Cut where
  | comment (s : List Char)
  | instruction (s : List Char)
  | cdata (s : List Char)
  | single (tag : List Char)
  | element (tag : List Char) (inside : Content) (closing : List Char)

end

mutual

/-- The text that is written. -/
def Content.written : Content → List Char
  | .last w => w
  | .cut w c x => w ++ (c.written ++ x.written)

/-- The cut as it is written. -/
def Cut.written : Cut → List Char
  | .comment s => '<' :: '!' :: '-' :: '-' :: (s ++ ['-', '-', '>'])
  | .instruction s => '<' :: '?' :: (s ++ ['?', '>'])
  | .cdata s => '<' :: '!' :: '[' :: ("CDATA[".toList ++ (s ++ [']', ']', '>']))
  | .single tag => '<' :: (tag ++ ['/', '>'])
  | .element tag x closing => '<' :: (tag ++ '>' :: (x.written ++ '<' :: '/' :: (closing ++ ['>'])))

end

/-- A text between two cuts, with references that have a meaning. -/
structure IsText (w : List Char) : Prop where
  not_mem : '<' ∉ w
  isSome : (unescape? w).isSome = true

/-- What stands in an opening tag, with its name in front and attributes that are well-formed. -/
structure IsTag (tag : List Char) : Prop where
  inTag : InTag tag
  head : ∃ c s, tag = c :: s ∧ c ≠ '!' ∧ c ≠ '?' ∧ c ≠ '/'
  last : tag.getLast? ≠ some '/'
  attributes : (tagOf tag).attributes.isSome = true

/-- What stands in a closing tag that goes with an opening one. -/
structure Closes (tag closing : List Char) : Prop where
  inTag : InTag closing
  name : closingName closing = tag.takeWhile inTagName

mutual

/-- Every part is written such that it ends where it is to end. -/
def Content.WellFormed : Content → Prop
  | .last w => IsText w
  | .cut w c x => IsText w ∧ c.WellFormed ∧ x.WellFormed

/-- A cut ends at its own end, an element with a closing tag of its name. -/
def Cut.WellFormed : Cut → Prop
  | .comment s => Free ['-', '-', '>'] s
  | .instruction s => Free ['?', '>'] s ∧ s.head? ≠ some '>'
  | .cdata s => Free [']', ']', '>'] s
  | .single tag => IsTag tag
  | .element tag x closing => IsTag tag ∧ x.WellFormed ∧ Closes tag closing

end

/-! ### What it stands for -/

/-- The characters that a written text stands for. -/
def characters (w : List Char) : List Char := (unescape? w).getD []

/-- The characters of a CDATA section. -/
def Cut.data : Cut → List Char
  | .cdata s => s
  | _ => []

/-- The character data of an element: its texts and its CDATA sections, without anything of the
elements in it. -/
def Content.data : Content → List Char
  | .last w => characters w
  | .cut w c x => characters w ++ (c.data ++ x.data)

/-- A text without the white space at its ends, which is dropped. -/
def textParts (w : List Char) : List Part :=
  [.dropped (w.takeWhile isSpace), .kept (characters (dropEnds isSpace w)),
    .dropped ((w.dropWhile isSpace).reverse.takeWhile isSpace).reverse]

/-- The character data in parts: the white space at the ends of each text is dropped, that of CDATA
sections is kept. -/
def Content.parts : Content → List Part
  | .last w => textParts w
  | .cut w c x => textParts w ++ (.kept c.data :: x.parts)

/-- The text that is left. -/
def Content.text (x : Content) : String := String.ofList (left x.parts)

/-- The element with a tag. -/
def elementOf (tag : List Char) (text : String) (children : List Element) : Element :=
  { name := (tagOf tag).name, attributes := (tagOf tag).attributes.getD [], text, children }

mutual

/-- The elements directly inside. -/
def Content.children : Content → List Element
  | .last _ => []
  | .cut _ c x => c.children ++ x.children

/-- The element that a cut consists in, if any. -/
def Cut.children : Cut → List Element
  | .comment _ | .instruction _ | .cdata _ => []
  | .single tag => [elementOf tag "" []]
  | .element tag x _ => [elementOf tag x.text x.children]

end

mutual

/-- What stands inside of the elements that are inside, at any depth and in document order. -/
def Content.inner : Content → List Content
  | .last _ => []
  | .cut _ c x => c.inner ++ x.inner

/-- The inside of an element, and what stands inside of the elements in it. -/
def Cut.inner : Cut → List Content
  | .comment _ | .instruction _ | .cdata _ => []
  | .single _ => [.last []]
  | .element _ x _ => x :: x.inner

end

mutual

/-- The texts of an element and of the elements in it, at any depth and in document order. -/
def Element.texts : Element → List String
  | ⟨_, _, text, children⟩ => text :: textsAll children

/-- The texts of some elements. -/
def textsAll : List Element → List String
  | [] => []
  | e :: es => e.texts ++ textsAll es

end

/-- The event of a text; white space gives none. -/
def pieceEvents (w : List Char) : List Event :=
  if w.dropWhile isSpace = [] then []
  else [.text (some (String.ofList (characters (dropEnds isSpace w))))]

mutual

/-- The events of the content. -/
def Content.events : Content → List Event
  | .last w => pieceEvents w
  | .cut w c x => pieceEvents w ++ (c.events ++ x.events)

/-- The events of a cut. -/
def Cut.events : Cut → List Event
  | .comment _ | .instruction _ => [.other]
  | .cdata s => [.cdata (String.ofList s)]
  | .single tag => [.empty (tagOf tag)]
  | .element tag x _ => .start (tagOf tag) :: (x.events ++ [.close])

end

variable {w front back tag closing : List Char} {x y : Content} {c : Cut}

/-! ### White space at the ends of a text -/

/-- A reference ends at its semicolon. -/
theorem unescape?_of_closed {r rest : List Char} (h : r.dropWhile inReference = ';' :: rest) :
    unescape? ('&' :: r) = (reference? (r.takeWhile inReference)).bind fun c =>
      (unescape? rest).map (c :: ·) := by
  rw [unescape?, if_pos rfl]
  split
  · next heq =>
    rw [h] at heq
    cases heq
    cases reference? (r.takeWhile inReference) with
    | none => rfl
    | some c => cases unescape? rest <;> rfl
  · next hnot => exact absurd h (hnot rest)

/-- A reference without a semicolon has no meaning. -/
theorem unescape?_of_not_closed {r : List Char}
    (h : ∀ rest, r.dropWhile inReference ≠ ';' :: rest) : unescape? ('&' :: r) = none := by
  rw [unescape?, if_pos rfl]
  split
  · next rest heq => exact absurd heq (h rest)
  · rfl

/-- White space in front of a text opens no reference. -/
theorem unescape?_front (h : ∀ a ∈ front, isSpace a = true) (w : List Char) :
    unescape? (front ++ w) = (unescape? w).map (front ++ ·) := by
  induction front with
  | nil => simp
  | cons a front ih =>
    obtain ⟨ha, hfront⟩ := List.forall_mem_cons.1 h
    rw [List.cons_append, unescape?_cons (Text.ne_of_pred ha (by decide)), ih hfront,
      Option.map_map]
    rfl

/-- White space behind a text closes no reference. -/
theorem unescape?_back (h : ∀ a ∈ back, isSpace a = true) (w : List Char) :
    unescape? (w ++ back) = (unescape? w).map (· ++ back) := by
  have hback : ∀ a ∈ back, inReference a = true := by
    intro a ha
    unfold inReference
    rw [decide_eq_true (Text.ne_of_pred (h a ha) (b := ';') (by decide)),
      decide_eq_true (Text.ne_of_pred (h a ha) (b := '&') (by decide))]
    rfl
  have hdropWhile : back.dropWhile inReference = [] := List.dropWhile_eq_nil_iff.2 hback
  induction w using unescape?.induct with
  | case1 =>
    have hfront := unescape?_front h []
    rw [List.append_nil, unescape?, Option.map_some, List.append_nil] at hfront
    rw [List.nil_append, hfront, unescape?]
    rfl
  | case2 r rest hclosed ih =>
    have hdrop : (r ++ back).dropWhile inReference = ';' :: (rest ++ back) := by
      rw [List.dropWhile_append, hclosed]
      rfl
    have htake : (r ++ back).takeWhile inReference = r.takeWhile inReference := by
      rw [List.takeWhile_append, if_neg]
      intro hlength
      have hall := List.takeWhile_append_dropWhile (p := inReference) (l := r)
      have htotal := congrArg List.length hall
      rw [List.length_append, hclosed, List.length_cons] at htotal
      omega
    rw [List.cons_append, unescape?_of_closed hdrop, unescape?_of_closed hclosed, htake, ih]
    cases reference? (r.takeWhile inReference) with
    | none => rfl
    | some a => cases unescape? rest <;> rfl
  | case3 r hopen =>
    have hdrop : ∀ rest, (r ++ back).dropWhile inReference ≠ ';' :: rest := by
      intro rest heq
      rw [List.dropWhile_append] at heq
      split at heq
      · rw [hdropWhile] at heq
        cases heq
      · cases hr : r.dropWhile inReference with
        | nil =>
          rw [hr, List.nil_append] at heq
          exact absurd (hback ';' (heq ▸ List.mem_cons_self)) (by decide)
        | cons a r' =>
          rw [hr, List.cons_append] at heq
          obtain ⟨rfl, -⟩ := List.cons.inj heq
          exact hopen r' hr
    rw [List.cons_append, unescape?_of_not_closed hdrop, unescape?_of_not_closed hopen]
    rfl
  | case4 a r ha ih =>
    rw [List.cons_append, unescape?_cons ha, unescape?_cons ha, ih, Option.map_map, Option.map_map]
    rfl

/-- A text is the white space at its ends and the rest between. -/
theorem append_dropEnds (w : List Char) : w.takeWhile isSpace ++ (dropEnds isSpace w ++
    ((w.dropWhile isSpace).reverse.takeWhile isSpace).reverse) = w := by
  have hend := congrArg List.reverse
    (List.takeWhile_append_dropWhile (p := isSpace) (l := (w.dropWhile isSpace).reverse))
  rw [List.reverse_append, List.reverse_reverse] at hend
  unfold dropEnds
  rw [hend, List.takeWhile_append_dropWhile]

/-- **References are read in what lies between the white space at the ends.** -/
theorem unescape?_dropEnds (w : List Char) :
    unescape? w = (unescape? (dropEnds isSpace w)).map fun s => w.takeWhile isSpace ++
      (s ++ ((w.dropWhile isSpace).reverse.takeWhile isSpace).reverse) := by
  conv_lhs => rw [← append_dropEnds w]
  rw [unescape?_front fun a ha => List.mem_takeWhile_imp ha,
    unescape?_back fun a ha => List.mem_takeWhile_imp (List.mem_reverse.1 ha), Option.map_map]
  rfl

/-- What is left of a text without the white space at its ends has a meaning too. -/
theorem IsText.unescape?_eq (h : IsText w) :
    unescape? (dropEnds isSpace w) = some (characters (dropEnds isSpace w)) := by
  have hsome := h.isSome
  rw [unescape?_dropEnds, Option.isSome_map] at hsome
  obtain ⟨s, hs⟩ := Option.isSome_iff_exists.1 hsome
  unfold characters
  rw [hs, Option.getD_some]

/-- With the white space that is dropped, the parts of a text are its characters. -/
theorem IsText.whole_textParts (h : IsText w) : whole (textParts w) = characters w := by
  unfold characters
  rw [unescape?_dropEnds, h.unescape?_eq]
  simp [textParts, whole]

/-- At the ends of a text only blanks are dropped. -/
theorem dropsBlanks_textParts (w : List Char) : DropsBlanks (textParts w) := by
  intro s hs a ha
  simp only [textParts, List.mem_cons, Part.dropped.injEq, reduceCtorEq, List.not_mem_nil,
    or_false, false_or] at hs
  rcases hs with rfl | rfl
  · exact Text.isBlank_of_isSpace (List.mem_takeWhile_imp ha)
  · exact Text.isBlank_of_isSpace (List.mem_takeWhile_imp (List.mem_reverse.1 ha))

/-! ### The parts of the character data -/

/-- With the white space that is dropped, the parts are the character data. -/
theorem Content.WellFormed.whole_parts :
    ∀ {x : Content}, x.WellFormed → whole x.parts = x.data
  | .last _, h => IsText.whole_textParts h
  | .cut _ _ _, ⟨hw, _, hx⟩ => by
    rw [Content.parts, Content.data, Text.whole_append, hw.whole_textParts, whole, hx.whole_parts]

/-- In the content of an element only blanks are dropped. -/
theorem Content.dropsBlanks_parts : ∀ x : Content, DropsBlanks x.parts
  | .last w => dropsBlanks_textParts w
  | .cut w c x => by
    intro s hs
    rw [parts] at hs
    rcases List.mem_append.1 hs with hs | hs
    · exact dropsBlanks_textParts w s hs
    · rcases List.mem_cons.1 hs with hs | hs
      · cases hs
      · exact x.dropsBlanks_parts s hs

/-- **No white space is missing** in the trimmed text of an element iff none that is dropped has
something else than blanks on both sides. -/
theorem Content.WellFormed.strip_text_iff (h : x.WellFormed) :
    Text.strip x.text = Text.strip (String.ofList x.data) ↔ Tight x.parts := by
  unfold Text.strip Content.text
  rw [String.toList_ofList, String.toList_ofList, ← h.whole_parts, String.ofList_inj]
  exact Text.trim_left_eq_trim_whole_iff x.dropsBlanks_parts

/-! ### The texts of the elements -/

/-- The texts of elements in a row come in their order. -/
theorem textsAll_append (es fs : List Element) :
    textsAll (es ++ fs) = textsAll es ++ textsAll fs := by
  induction es with
  | nil => rfl
  | cons e es ih => rw [List.cons_append, textsAll, textsAll, ih, List.append_assoc]

theorem textsAll_singleton (e : Element) : textsAll [e] = e.texts := List.append_nil _

theorem texts_elementOf (tag : List Char) (text : String) (children : List Element) :
    (elementOf tag text children).texts = text :: textsAll children := by
  rw [elementOf, Element.texts]

mutual

/-- Every element inside has the text that is left of what stands in it. -/
theorem Content.texts_children : ∀ x : Content, textsAll x.children = x.inner.map Content.text
  | .last _ => rfl
  | .cut _ c x => by
    rw [Content.children, Content.inner, textsAll_append, List.map_append, c.texts_children,
      x.texts_children]

/-- The elements in a cut have the texts that are left of what stands in them. -/
theorem Cut.texts_children : ∀ c : Cut, textsAll c.children = c.inner.map Content.text
  | .comment _ | .instruction _ | .cdata _ => rfl
  | .single _ => by
    have htext : (Content.last []).text = "" := by decide +kernel
    rw [Cut.children, Cut.inner, textsAll_singleton, texts_elementOf, List.map_singleton, htext,
      textsAll]
  | .element _ x _ => by
    rw [Cut.children, Cut.inner, textsAll_singleton, texts_elementOf, x.texts_children,
      List.map_cons]

end

/-! ### The events denote what stands inside -/

theorem IsTag.tagOf_eq (h : IsTag tag) :
    tagOf tag = ⟨(tagOf tag).name, some ((tagOf tag).attributes.getD [])⟩ := by
  obtain ⟨as, has⟩ := Option.isSome_iff_exists.1 h.attributes
  rw [has, Option.getD_some, ← has]

/-- A text between two cuts denotes what is left of it, and no elements. -/
theorem isContent_pieceEvents (w : List Char) :
    IsContent (pieceEvents w) (String.ofList (left (textParts w))) [] := by
  have hleft : left (textParts w) = characters (dropEnds isSpace w) := by
    simp [textParts, left]
  rw [hleft]
  unfold pieceEvents
  split
  · next h =>
    have hnil : characters (dropEnds isSpace w) = [] := by
      unfold dropEnds characters
      rw [h, List.reverse_nil, List.dropWhile_nil, List.reverse_nil, unescape?]
      rfl
    rw [hnil]
    exact .nil
  · exact isContent_text _

theorem isElement (h : IsTag tag) {es : List Event} {text : String} {children : List Element}
    (hes : IsContent es text children) :
    IsElement (.start (tagOf tag) :: (es ++ [.close])) (elementOf tag text children) := by
  rw [h.tagOf_eq]
  exact .block hes

mutual

/-- **The events denote** the text that is left and the elements in order. -/
theorem Content.WellFormed.isContent : ∀ {x : Content}, x.WellFormed →
    IsContent x.events x.text x.children
  | .last w, _ => isContent_pieceEvents w
  | .cut w c x, ⟨_, hc, hx⟩ => by
    have happend := (isContent_pieceEvents w).append (hc.isContent.append hx.isContent)
    rw [List.nil_append] at happend
    have htext : (Content.cut w c x).text
        = String.ofList (left (textParts w)) ++ (String.ofList c.data ++ x.text) := by
      unfold Content.text
      rw [Content.parts, Text.left_append, left, String.ofList_append, String.ofList_append]
    rw [htext]
    exact happend

/-- The events of a cut denote its characters and its elements. -/
theorem Cut.WellFormed.isContent : ∀ {c : Cut}, c.WellFormed →
    IsContent c.events (String.ofList c.data) c.children
  | .comment _, _ => .other .nil
  | .instruction _, _ => .other .nil
  | .cdata s, _ => isContent_cdata _
  | .single tag, h => by
    rw [Cut.events, IsTag.tagOf_eq h]
    exact isContent_child .single
  | .element tag x _, ⟨htag, hx, _⟩ => isContent_child (isElement htag hx.isContent)

end

end BimAudit.Xml
