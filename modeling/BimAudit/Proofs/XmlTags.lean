import BimAudit.Proofs.TrimmedText
import BimAudit.Xml.Markup

/-!
# Tags are read back

The parts that markup is written from are found again by the reader: attributes with their values,
tags with their attributes, and text up to the white space at its ends.

* `IsName`: the names that the writer may use.
* `attributes?_written`: the attributes of a tag are read back.
* `tagContent?_tag`: a tag ends at its own bracket, whatever its attribute values hold.
* `event?_start`, `event?_single`, `event?_close`, `event?_text`: **one event for each part**.
-/

namespace BimAudit.Xml

open Markup (attributeText tag newline readName readText)

/-! ### Names -/

/-- A character of a name that is written: a letter or a colon. -/
def isNameChar (c : Char) : Bool := c.isAlpha || c = ':'

/-- A name that is written. -/
structure IsName (name : String) : Prop where
  ne_nil : name.toList ≠ []
  chars : ∀ c ∈ name.toList, isNameChar c = true

instance (name : String) : Decidable (IsName name) :=
  decidable_of_iff (name.toList ≠ [] ∧ name.toList.all isNameChar = true)
    ⟨fun h => ⟨h.1, List.all_eq_true.1 h.2⟩, fun h => ⟨h.ne_nil, List.all_eq_true.2 h.chars⟩⟩

variable {name : String} {as : List (String × String)} {c d : Char}

theorem ne_of_isNameChar (hc : isNameChar c = true) (hd : isNameChar d = false) : c ≠ d :=
  Text.ne_of_pred hc hd

theorem isSpace_of_isNameChar (hc : isNameChar c = true) : Text.isSpace c = false := by
  unfold Text.isSpace
  rw [decide_eq_false (ne_of_isNameChar hc (d := ' ') (by decide)),
    decide_eq_false (ne_of_isNameChar hc (d := '\n') (by decide)),
    decide_eq_false (ne_of_isNameChar hc (d := '\t') (by decide)),
    decide_eq_false (ne_of_isNameChar hc (d := '\r') (by decide))]
  rfl

/-- A name begins with a character of names. -/
theorem IsName.exists_cons (h : IsName name) :
    ∃ c r, name.toList = c :: r ∧ isNameChar c = true := by
  cases hname : name.toList with
  | nil => exact absurd hname h.ne_nil
  | cons c r => exact ⟨c, r, rfl, h.chars c (hname ▸ List.mem_cons_self)⟩

theorem IsName.not_mem (h : IsName name) (hd : isNameChar d = false) : d ∉ name.toList :=
  fun hmem => ne_of_isNameChar (h.chars d hmem) hd rfl

/-! ### Escaped text -/

/-- A character stands for itself, or a reference stands for it. -/
theorem escapeChar_cases (c : Char) :
    (escapeChar c = [c] ∧ c ≠ '<' ∧ c ≠ '"') ∨
      (Text.isSpace c = false ∧
        ∃ r, (∀ d ∈ r, d.isAlpha = true) ∧ escapeChar c = '&' :: r ++ [';']) := by
  unfold escapeChar
  split
  · next h =>
    subst h
    exact .inr ⟨by decide, ['l', 't'], List.all_eq_true.1 rfl, rfl⟩
  split
  · next h =>
    subst h
    exact .inr ⟨by decide, ['g', 't'], List.all_eq_true.1 rfl, rfl⟩
  split
  · next h =>
    subst h
    exact .inr ⟨by decide, ['a', 'm', 'p'], List.all_eq_true.1 rfl, rfl⟩
  split
  · next h =>
    subst h
    exact .inr ⟨by decide, ['a', 'p', 'o', 's'], List.all_eq_true.1 rfl, rfl⟩
  split
  · next h =>
    subst h
    exact .inr ⟨by decide, ['q', 'u', 'o', 't'], List.all_eq_true.1 rfl, rfl⟩
  · next hopen _ _ _ hquote => exact .inl ⟨rfl, hopen, hquote⟩

/-- Escaped text has no angle bracket that opens and no double quotation mark. -/
theorem ne_of_mem_escape {s : List Char} (h : c ∈ escape s) : c ≠ '<' ∧ c ≠ '"' := by
  obtain ⟨d, -, hd⟩ := List.mem_flatMap.1 h
  rcases escapeChar_cases d with ⟨hself, hopen, hquote⟩ | ⟨-, r, hr, hname⟩
  · rw [hself] at hd
    rw [List.mem_singleton.1 hd]
    exact ⟨hopen, hquote⟩
  · rw [hname] at hd
    rcases List.mem_append.1 hd with hd | hd
    · rcases List.mem_cons.1 hd with rfl | hd
      · decide
      · constructor <;>
        · rintro rfl
          have := hr _ hd
          revert this
          decide
    · rw [List.mem_singleton.1 hd]
      decide

/-- White space at the beginning is dropped alike from a text and from its pieces, if no other piece
begins with white space. -/
theorem dropWhile_flatMap {f : Char → List Char} (hspace : ∀ c, Text.isSpace c = true → f c = [c])
    (hother : ∀ c, Text.isSpace c = false → ∃ d r, f c = d :: r ∧ Text.isSpace d = false)
    (s : List Char) :
    (s.flatMap f).dropWhile Text.isSpace = (s.dropWhile Text.isSpace).flatMap f := by
  induction s with
  | nil => rfl
  | cons c s ih =>
    rw [List.flatMap_cons, List.dropWhile_cons]
    cases hc : Text.isSpace c with
    | true =>
      rw [hspace c hc, List.singleton_append, List.dropWhile_cons, hc]
      exact ih
    | false =>
      obtain ⟨d, r, hd, hspace⟩ := hother c hc
      simp only [Bool.false_eq_true, if_false]
      rw [List.flatMap_cons, hd, List.cons_append, List.dropWhile_cons, hspace]
      rfl

theorem escapeChar_of_isSpace (h : Text.isSpace c = true) : escapeChar c = [c] := by
  rcases escapeChar_cases c with ⟨hself, -⟩ | ⟨hspace, -⟩
  · exact hself
  · rw [h] at hspace
    cases hspace

/-- Blanks in front may be dropped before or after escaping. -/
theorem dropWhile_escape (s : List Char) :
    (escape s).dropWhile Text.isSpace = escape (s.dropWhile Text.isSpace) := by
  apply dropWhile_flatMap
  · exact fun c hc => escapeChar_of_isSpace hc
  · intro c hc
    rcases escapeChar_cases c with ⟨hself, -⟩ | ⟨-, r, -, hname⟩
    · exact ⟨c, [], hself, hc⟩
    · exact ⟨'&', r ++ [';'], hname, by decide⟩

/-- Blanks at the end may be dropped before or after escaping. -/
theorem dropWhile_reverse_escape (s : List Char) :
    (escape s).reverse.dropWhile Text.isSpace
      = (escape (s.reverse.dropWhile Text.isSpace).reverse).reverse := by
  unfold escape
  rw [List.reverse_flatMap, List.reverse_flatMap, List.reverse_reverse]
  apply dropWhile_flatMap
  · intro c hc
    rw [Function.comp_apply, escapeChar_of_isSpace hc]
    rfl
  · intro c hc
    rcases escapeChar_cases c with ⟨hself, -⟩ | ⟨-, r, -, hname⟩
    · exact ⟨c, [], by rw [Function.comp_apply, hself]; rfl, hc⟩
    · refine ⟨';', r.reverse ++ ['&'], ?_, by decide⟩
      rw [Function.comp_apply, hname]
      simp

/-! ### Attributes -/

theorem toList_attributeText (a : String × String) :
    (attributeText a).toList
      = ' ' :: (a.1.toList ++ '=' :: '"' :: (escape a.2.toList ++ ['"'])) := by
  unfold attributeText
  simp [String.toList_append, String.toList_ofList]

/-- The attributes of a tag as they are written. -/
def writtenAttributes (as : List (String × String)) : List Char :=
  as.flatMap fun a => (attributeText a).toList

theorem toList_tag (name : String) (as : List (String × String)) :
    (tag name as).toList = name.toList ++ writtenAttributes as := by
  unfold tag writtenAttributes
  rw [String.toList_append, String.toList_join, List.flatMap_map]

theorem writtenAttributes_cons (a : String × String) (as : List (String × String)) :
    writtenAttributes (a :: as) = ' ' :: (a.1.toList ++
      '=' :: '"' :: (escape a.2.toList ++ '"' :: writtenAttributes as)) := by
  unfold writtenAttributes
  rw [List.flatMap_cons, toList_attributeText]
  simp only [List.cons_append, List.append_assoc, List.nil_append]

/-- Written attributes end with a quotation mark. -/
theorem getLast?_writtenAttributes (h : as ≠ []) : (writtenAttributes as).getLast? = some '"' := by
  rcases List.eq_nil_or_concat as with rfl | ⟨bs, b, rfl⟩
  · exact absurd rfl h
  · have hlast : (attributeText b).toList.getLast? = some '"' := by
      have hend : (attributeText b).toList
          = (' ' :: (b.1.toList ++ '=' :: '"' :: escape b.2.toList)) ++ ['"'] := by
        rw [toList_attributeText]
        simp
      rw [hend, List.getLast?_concat]
    unfold writtenAttributes
    rw [List.concat_eq_append, List.flatMap_append, List.flatMap_singleton, List.getLast?_append,
      hlast, Option.some_or]

theorem skip_of_head {c : Char} (h : Text.isSpace c = false) (s : List Char) :
    skip (c :: s) = c :: s := by
  unfold skip
  rw [List.dropWhile_cons, h]
  rfl

/-- **A written attribute is read back**, its text still escaped. -/
theorem attribute?_written {a : String × String} (h : IsName a.1) (r : List Char) :
    attribute? (a.1.toList ++ '=' :: '"' :: (escape a.2.toList ++ '"' :: r))
      = some (a.1.toList, escape a.2.toList, r) := by
  obtain ⟨c, s, hname, hc⟩ := h.exists_cons
  have hs : ∀ d ∈ s, (decide (d ≠ '=') && !Text.isSpace d) = true := by
    intro d hd
    have hd' := h.chars d (hname ▸ List.mem_cons_of_mem _ hd)
    rw [decide_eq_true (ne_of_isNameChar hd' (d := '=') (by decide)), isSpace_of_isNameChar hd']
    rfl
  have hvalue : ∀ d ∈ escape a.2.toList, decide (d ≠ '"') = true :=
    fun d hd => decide_eq_true (ne_of_mem_escape hd).2
  -- the name goes up to the equals sign, the value up to the quote behind it
  rw [hname, List.cons_append, attribute?]
  simp only [Text.takeWhile_append_cons hs (c := '=') (by decide),
    Text.dropWhile_append_cons hs (c := '=') (by decide)]
  rw [skip_of_head (by decide)]
  simp only
  rw [skip_of_head (by decide)]
  simp only [true_or, if_true]
  rw [Text.dropWhile_append_cons hvalue (by decide), Text.takeWhile_append_cons hvalue (by decide)]

theorem attributes?_nil (seen : List (List Char)) : attributes? seen [] = some [] := by
  rw [attributes?]
  rfl

/-- Attributes are read one after the other, each with a name of its own. -/
theorem attributes?_of_attribute? {seen : List (List Char)} {s an av rest : List Char}
    (h : attribute? (skip s) = some (an, av, rest)) (hseen : an ∉ seen) :
    attributes? seen s = (unescape? av).bind fun v => (attributes? (an :: seen) rest).map
      ((String.ofList (localName an), String.ofList v) :: ·) := by
  have hcontains : seen.contains an = false := by
    rw [List.contains_eq_mem]
    exact decide_eq_false hseen
  rw [attributes?]
  split
  · next hs =>
    rw [hs] at h
    cases h
  · split
    · next heq =>
      rw [h] at heq
      cases heq
    · next heq =>
      rw [h] at heq
      cases heq
      rw [hcontains]
      simp only [Bool.false_eq_true, if_false, Option.bind_eq_bind]
      cases unescape? av with
      | none => rfl
      | some v =>
        simp only [Option.bind_some]
        cases attributes? (an :: seen) rest <;> rfl

/-- No attribute name is unusual, and none comes twice. -/
structure AreAttributes (as : List (String × String)) : Prop where
  isName : ∀ a ∈ as, IsName a.1
  nodup : (as.map (·.1)).Nodup

/-- The attributes as the reader gives them. -/
def readAttributes (as : List (String × String)) : List (String × String) :=
  as.map fun a => (readName a.1, a.2)

/-- **The attributes of a tag are read back**, with their values as they were. -/
theorem attributes?_written (h : AreAttributes as) (seen : List (List Char))
    (hseen : ∀ a ∈ as, a.1.toList ∉ seen) :
    attributes? seen (writtenAttributes as) = some (readAttributes as) := by
  induction as generalizing seen with
  | nil => exact attributes?_nil seen
  | cons a as ih =>
    have hname := h.isName a List.mem_cons_self
    have hnodup := List.nodup_cons.1 (List.map_cons ▸ h.nodup)
    have hrest : AreAttributes as :=
      ⟨fun b hb => h.isName b (List.mem_cons_of_mem _ hb), hnodup.2⟩
    have hothers := ih hrest (a.1.toList :: seen) fun b hb => by
      apply List.not_mem_cons_of_ne_of_not_mem _ (hseen b (List.mem_cons_of_mem _ hb))
      -- else the name of this attribute comes again
      intro heq
      exact hnodup.1 (List.mem_map.2 ⟨b, hb, String.toList_inj.1 heq⟩)
    have hskip : skip (writtenAttributes (a :: as))
        = a.1.toList ++ '=' :: '"' :: (escape a.2.toList ++ '"' :: writtenAttributes as) := by
      obtain ⟨c, r, hcons, hc⟩ := hname.exists_cons
      rw [writtenAttributes_cons, hcons, skip, List.dropWhile_cons, if_pos (by decide)]
      exact skip_of_head (isSpace_of_isNameChar hc) _
    have hattribute := attribute?_written hname (writtenAttributes as)
    rw [← hskip] at hattribute
    rw [attributes?_of_attribute? hattribute (hseen a List.mem_cons_self), unescape?_escape,
      Option.bind_some, hothers, String.ofList_toList]
    rfl

/-! ### Tags -/

/-- The text stands in a tag without ending it, and leaves no quote open. -/
def InTag (p : List Char) : Prop :=
  ∀ r, tagContent? none (p ++ r) = (tagContent? none r).map fun q => (p ++ q.1, q.2)

theorem InTag.append {p q : List Char} (hp : InTag p) (hq : InTag q) : InTag (p ++ q) := by
  intro r
  rw [List.append_assoc, hp, hq, Option.map_map]
  congr 1
  funext t
  simp

/-- Without brackets that close and without quotation marks a text stays inside of a tag. -/
theorem inTag_of_ne {p : List Char} (h : ∀ c ∈ p, c ≠ '>' ∧ c ≠ '\'' ∧ c ≠ '"') : InTag p := by
  intro r
  induction p with
  | nil => simp
  | cons c p ih =>
    have hc := h c List.mem_cons_self
    rw [List.cons_append, tagContent?, if_neg hc.1,
      if_neg (not_or.2 ⟨hc.2.1, hc.2.2⟩), ih fun d hd => h d (List.mem_cons_of_mem _ hd),
      Option.map_map]
    rfl

/-- In quotation marks a tag goes on up to the mark that closes them. -/
theorem tagContent?_quoted {p : List Char} (h : '"' ∉ p) (r : List Char) :
    tagContent? (some '"') (p ++ '"' :: r)
      = (tagContent? none r).map fun q => (p ++ '"' :: q.1, q.2) := by
  induction p with
  | nil =>
    rw [List.nil_append, tagContent?, if_pos rfl]
    rfl
  | cons c p ih =>
    have hc : c ≠ '"' := fun heq => h (heq ▸ List.mem_cons_self)
    rw [List.cons_append, tagContent?, if_neg hc, ih fun hmem => h (List.mem_cons_of_mem _ hmem),
      Option.map_map]
    rfl

/-- A value in quotes ends no tag, whatever it holds. -/
theorem inTag_quoted {p : List Char} (h : '"' ∉ p) : InTag ('"' :: (p ++ ['"'])) := by
  intro r
  rw [List.cons_append, List.append_assoc, List.singleton_append, tagContent?, if_neg (by decide),
    if_pos (.inr rfl), tagContent?_quoted h, Option.map_map]
  congr 1
  funext q
  simp

theorem IsName.inTag (h : IsName name) : InTag name.toList :=
  inTag_of_ne fun c hc => ⟨ne_of_isNameChar (h.chars c hc) (by decide),
    ne_of_isNameChar (h.chars c hc) (by decide), ne_of_isNameChar (h.chars c hc) (by decide)⟩

/-- Written attributes stay inside of a tag, as their texts stand in quotation marks. -/
theorem inTag_writtenAttributes (h : ∀ a ∈ as, IsName a.1) : InTag (writtenAttributes as) := by
  induction as with
  | nil => exact inTag_of_ne fun c hc => nomatch hc
  | cons a as ih =>
    have hblank : InTag [' '] := inTag_of_ne (by simp)
    have hequals : InTag ['='] := inTag_of_ne (by simp)
    have hvalue : InTag ('"' :: (escape a.2.toList ++ ['"'])) :=
      inTag_quoted fun hmem => (ne_of_mem_escape hmem).2 rfl
    have hattribute := hblank.append
      ((h a List.mem_cons_self).inTag.append (hequals.append hvalue))
    have hrest := ih fun b hb => h b (List.mem_cons_of_mem _ hb)
    unfold writtenAttributes at hrest ⊢
    rw [List.flatMap_cons, toList_attributeText]
    exact hattribute.append hrest

theorem inTag_tag (hname : IsName name) (has : AreAttributes as) : InTag (tag name as).toList := by
  rw [toList_tag]
  exact hname.inTag.append (inTag_writtenAttributes has.isName)

/-- **A tag ends at its own bracket**, whatever its attribute values hold. -/
theorem tagContent?_tag {p : List Char} (h : InTag p) (r : List Char) :
    tagContent? none (p ++ '>' :: r) = some (p, r) := by
  rw [h, tagContent?, if_pos rfl, Option.map_some, List.append_nil]

/-- The name of a written tag ends at its attributes. -/
theorem takeWhile_tag (h : IsName name) (as : List (String × String)) :
    (tag name as).toList.takeWhile inTagName = name.toList ∧
      (tag name as).toList.dropWhile inTagName = writtenAttributes as := by
  have hname : ∀ c ∈ name.toList, inTagName c = true := by
    intro c hc
    rw [inTagName, isSpace_of_isNameChar (h.chars c hc)]
    rfl
  rw [toList_tag]
  cases as with
  | nil =>
    rw [List.takeWhile_append_of_pos hname, List.dropWhile_append_of_pos hname]
    exact ⟨List.append_nil _, rfl⟩
  | cons a as =>
    rw [writtenAttributes_cons]
    exact ⟨Text.takeWhile_append_cons hname (by decide) _,
      Text.dropWhile_append_cons hname (by decide) _⟩

/-- **A written tag is read back**, with its name and its attributes. -/
theorem tagOf_tag (hname : IsName name) (has : AreAttributes as) :
    tagOf (tag name as).toList = ⟨readName name, some (readAttributes as)⟩ := by
  obtain ⟨htake, hdrop⟩ := takeWhile_tag hname as
  unfold tagOf
  rw [htake, hdrop, attributes?_written has [] fun a _ hmem => nomatch hmem]
  rfl

/-- A written tag does not end with a slash, so it opens an element. -/
theorem getLast?_tag (h : IsName name) (as : List (String × String)) :
    (tag name as).toList.getLast? ≠ some '/' := by
  rw [toList_tag, List.getLast?_append]
  by_cases has : as = []
  · subst has
    intro hlast
    exact h.not_mem (d := '/') (by decide) (List.mem_of_getLast? hlast)
  · rw [getLast?_writtenAttributes has, Option.some_or]
    decide

/-! ### Events -/

variable {opened : List (List Char)}

/-- The reader goes over white space in front of a tag. -/
theorem event?_spaces {w : List Char} (h : w.dropWhile Text.isSpace = []) (r : List Char) :
    event? opened (w ++ r) = event? opened r := by
  have hskip : skip (w ++ r) = skip r := by
    unfold skip
    rw [List.dropWhile_append, h]
    rfl
  unfold event?
  rw [hskip]

/-- The reader goes over the blanks in front of a tag. -/
theorem event?_newline (depth : Nat) (s : List Char) :
    event? opened ((newline depth).toList ++ s) = event? opened s := by
  have hspace : ∀ c ∈ (newline depth).toList, Text.isSpace c = true := by
    intro c hc
    unfold newline at hc
    rw [String.toList_append] at hc
    rcases List.mem_append.1 hc with hc | hc
    · rw [List.mem_singleton.1 hc]
      decide
    · rw [String.toList_ofList] at hc
      rw [(List.mem_replicate.1 hc).2]
      decide
  have hdrop : (newline depth).toList.dropWhile Text.isSpace = [] := by
    rw [← List.append_nil (newline depth).toList, List.dropWhile_append_of_pos hspace]
    rfl
  exact event?_spaces hdrop s

/-- What begins with a bracket is markup, or malformed. -/
theorem event?_open (r : List Char) :
    event? opened ('<' :: r) = some ((markup? opened r).getD (.malformed, opened, [])) := by
  unfold event?
  rw [skip_of_head (by decide)]
  rfl

/-- What begins with another character is no declaration, no instruction and no closing tag. -/
theorem markup?_cons (h : c ≠ '!' ∧ c ≠ '?' ∧ c ≠ '/') (s : List Char) :
    markup? opened (c :: s) = (tagContent? none (c :: s)).map fun p =>
      if p.1.getLast? = some '/' then (.empty (tagOf p.1.dropLast), opened, p.2)
      else (.start (tagOf p.1), p.1.takeWhile inTagName :: opened, p.2) := by
  unfold markup?
  split
  · next heq => cases heq
  · next heq =>
    cases heq
    exact absurd rfl h.1
  · next heq =>
    cases heq
    exact absurd rfl h.2.1
  · next heq =>
    cases heq
    exact absurd rfl h.2.2
  · rfl

/-- A tag with its name in front, that does not end like a single one, opens an element. -/
theorem event?_opening {p : List Char} (h : InTag p)
    (hhead : ∃ c s, p = c :: s ∧ c ≠ '!' ∧ c ≠ '?' ∧ c ≠ '/') (hlast : p.getLast? ≠ some '/')
    (r : List Char) : event? opened ('<' :: (p ++ '>' :: r))
      = some (.start (tagOf p), p.takeWhile inTagName :: opened, r) := by
  have hcontent := tagContent?_tag h r
  obtain ⟨c, s, rfl, hc⟩ := hhead
  rw [List.cons_append] at hcontent ⊢
  rw [event?_open, markup?_cons hc, hcontent, Option.map_some, if_neg hlast]
  rfl

/-- A tag with its name in front is a single one if a slash comes behind it. -/
theorem event?_slash {p : List Char} (h : InTag p)
    (hhead : ∃ c s, p = c :: s ∧ c ≠ '!' ∧ c ≠ '?' ∧ c ≠ '/') (r : List Char) :
    event? opened ('<' :: (p ++ '/' :: '>' :: r)) = some (.empty (tagOf p), opened, r) := by
  have hslash : InTag ['/'] := inTag_of_ne (by simp)
  have hcontent := tagContent?_tag (h.append hslash) r
  obtain ⟨c, s, rfl, hc⟩ := hhead
  rw [List.append_assoc, List.cons_append, List.singleton_append] at hcontent
  rw [List.cons_append, event?_open, markup?_cons hc, hcontent, Option.map_some,
    if_pos List.getLast?_concat, List.dropLast_concat]
  rfl

/-- A closing tag closes the innermost element if it bears its name. -/
theorem event?_closing {p q : List Char} (h : InTag p) (hname : closingName p = q)
    (r : List Char) :
    event? (q :: opened) ('<' :: '/' :: (p ++ '>' :: r)) = some (.close, opened, r) := by
  have hmarkup : markup? (q :: opened) ('/' :: (p ++ '>' :: r)) = some (.close, opened, r) := by
    unfold markup?
    simp only [tagContent?_tag h, hname, if_true]
  rw [event?_open, hmarkup]
  rfl

/-- A written tag is neither a declaration nor an instruction, and it closes nothing. -/
theorem exists_cons_tag (h : IsName name) (as : List (String × String)) :
    ∃ c s, (tag name as).toList = c :: s ∧ c ≠ '!' ∧ c ≠ '?' ∧ c ≠ '/' := by
  obtain ⟨c, s, hname, hc⟩ := h.exists_cons
  refine ⟨c, s ++ writtenAttributes as, by rw [toList_tag, hname, List.cons_append], ?_, ?_, ?_⟩
  · exact ne_of_isNameChar hc (by decide)
  · exact ne_of_isNameChar hc (by decide)
  · exact ne_of_isNameChar hc (by decide)

/-- **An opening tag gives the start of its element.** -/
theorem event?_start (hname : IsName name) (has : AreAttributes as) (r : List Char) :
    event? opened ('<' :: ((tag name as).toList ++ '>' :: r))
      = some (.start ⟨readName name, some (readAttributes as)⟩, name.toList :: opened, r) := by
  rw [event?_opening (inTag_tag hname has) (exists_cons_tag hname as) (getLast?_tag hname as),
    tagOf_tag hname has, (takeWhile_tag hname as).1]

/-- **A single tag gives an element without content.** -/
theorem event?_single (hname : IsName name) (has : AreAttributes as) (r : List Char) :
    event? opened ('<' :: ((tag name as).toList ++ '/' :: '>' :: r))
      = some (.empty ⟨readName name, some (readAttributes as)⟩, opened, r) := by
  rw [event?_slash (inTag_tag hname has) (exists_cons_tag hname as), tagOf_tag hname has]

theorem closingName_toList (h : IsName name) : closingName name.toList = name.toList := by
  obtain ⟨c, r, hcons, hc⟩ := h.exists_cons
  have hall : name.toList.all Text.isSpace = false := by
    rw [hcons, List.all_cons, isSpace_of_isNameChar hc, Bool.false_and]
  have hdrop : name.toList.reverse.dropWhile Text.isSpace = name.toList.reverse := by
    apply Text.dropWhile_eq_self_iff_head?.2
    intro d hd
    exact isSpace_of_isNameChar (h.chars d (List.mem_reverse.1 (List.mem_of_head? hd)))
  unfold closingName
  rw [hall, hdrop, List.reverse_reverse]
  rfl

/-- **A closing tag closes the innermost element**, whose name it bears. -/
theorem event?_close (h : IsName name) (r : List Char) :
    event? (name.toList :: opened) ('<' :: '/' :: (name.toList ++ '>' :: r))
      = some (.close, opened, r) :=
  event?_closing h.inTag (closingName_toList h) r

/-- White space between two tags is no text. -/
theorem event?_blank {s : List Char} (h : s.dropWhile Text.isSpace = []) (r : List Char) :
    event? opened (escape s ++ '<' :: r) = event? opened ('<' :: r) := by
  apply event?_spaces
  rw [dropWhile_escape, h]
  rfl

/-- Text goes up to the next tag; white space at its ends is dropped before references are read. -/
theorem event?_of_not_mem {w r : List Char} (hopen : '<' ∉ w) (h : w.dropWhile Text.isSpace ≠ [])
    (hr : r.head? = none ∨ r.head? = some '<') :
    event? opened (w ++ r)
      = some (.text ((unescape? (Text.dropEnds Text.isSpace w)).map String.ofList), opened, r) := by
  obtain ⟨d, u, hu⟩ := List.exists_cons_of_ne_nil h
  have hne : ∀ c ∈ d :: u, decide (c ≠ '<') = true := by
    intro c hc
    refine decide_eq_true fun heq => hopen ?_
    rw [← heq]
    exact (List.dropWhile_suffix Text.isSpace).subset (hu ▸ hc)
  have hd : d ≠ '<' := of_decide_eq_true (hne d List.mem_cons_self)
  have hrest : r.takeWhile (· ≠ '<') = [] ∧ r.dropWhile (· ≠ '<') = r := by
    cases r with
    | nil => exact ⟨rfl, rfl⟩
    | cons c r =>
      have hc : c = '<' := by simpa using hr
      rw [hc]
      exact ⟨rfl, rfl⟩
  have hskip : skip (w ++ r) = d :: (u ++ r) := by
    unfold skip
    rw [List.dropWhile_append, hu]
    rfl
  have htake : ((d :: (u ++ r)).takeWhile (· ≠ '<')) = w.dropWhile Text.isSpace := by
    rw [← List.cons_append, List.takeWhile_append_of_pos hne, hrest.1, List.append_nil, hu]
  have hdrop : (d :: (u ++ r)).dropWhile (· ≠ '<') = r := by
    rw [← List.cons_append, List.dropWhile_append_of_pos hne, hrest.2]
  unfold event?
  rw [hskip]
  split
  · next heq => cases heq
  · next heq =>
    cases heq
    exact absurd rfl hd
  · rw [htake, hdrop]
    rfl

/-- Blanks at both ends may be dropped before or after escaping. -/
theorem dropEnds_escape (s : List Char) :
    Text.dropEnds Text.isSpace (escape s) = escape (Text.dropEnds Text.isSpace s) := by
  unfold Text.dropEnds
  rw [dropWhile_escape, dropWhile_reverse_escape, List.reverse_reverse]

/-- **Other text is read as it was written**, without the white space at its ends. -/
theorem event?_text {content : String} (h : content.toList.dropWhile Text.isSpace ≠ [])
    (r : List Char) :
    event? opened (escape content.toList ++ '<' :: r)
      = some (.text (some (readText content)), opened, '<' :: r) := by
  have hne : (escape content.toList).dropWhile Text.isSpace ≠ [] := by
    -- a character is written as at least one
    intro hnil
    have hread := unescape?_escape (content.toList.dropWhile Text.isSpace)
    rw [← dropWhile_escape, hnil, unescape?] at hread
    exact h (Option.some.inj hread).symm
  rw [event?_of_not_mem (fun hmem => (ne_of_mem_escape hmem).1 rfl) hne (.inr rfl),
    dropEnds_escape, unescape?_escape]
  rfl

end BimAudit.Xml
