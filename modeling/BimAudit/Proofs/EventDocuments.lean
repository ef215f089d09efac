import BimAudit.Proofs.XmlRoundTrip

/-!
# The documents that events denote

Events are nested: what is opened is closed again, and an element consists of its text and its
children in order. The builder of elements takes exactly the events of one element, with comments
and the like around it; but it passes over any text around it too, so more than well-formed
documents is taken.

* `IsElement`, `IsContent`: the events of an element and of its inside.
* `Surrounded`: the events of one element, and some around it. `IsDocument`: a well-formed document.
* `Reached.step`, `Reached.run`: what one event and any events lead to.
* `ofEvents_iff`: **which events are taken for a document, and for which one.**
* `exists_stray_text`: text in front of the root is not noticed.
-/

namespace BimAudit.Xml

mutual

/-- The events of an element. -/
inductive IsElement : List Event → Element → Prop
  | single {name : String} {as : List (String × String)} :
      IsElement [.empty ⟨name, some as⟩] { name, attributes := as }
  | block {name : String} {as : List (String × String)} {es : List Event} {text : String}
      {children : List Element} (h : IsContent es text children) :
      IsElement (.start ⟨name, some as⟩ :: (es ++ [.close]))
        { name, attributes := as, text, children }

/-- The events inside of an element, with its text and its children. -/
inductive IsContent : List Event → String → List Element → Prop
  | nil : IsContent [] "" []
  | text {s t : String} {es : List Event} {cs : List Element} (h : IsContent es t cs) :
      IsContent (.text (some s) :: es) (s ++ t) cs
  | cdata {s t : String} {es : List Event} {cs : List Element} (h : IsContent es t cs) :
      IsContent (.cdata s :: es) (s ++ t) cs
  | other {t : String} {es : List Event} {cs : List Element} (h : IsContent es t cs) :
      IsContent (.other :: es) t cs
  | child {t : String} {es fs : List Event} {c : Element} {cs : List Element}
      (hc : IsElement es c) (h : IsContent fs t cs) : IsContent (es ++ fs) t (c :: cs)

end

/-- What may stand outside of the root of a well-formed document: comments and the like, and white
space. -/
def Event.IsMisc : Event → Prop
  | .other => True
  | .text (some s) => s.toList.all Text.isSpace = true
  | _ => False

/-- What is passed over outside of the root: everything but elements and what cannot be read. -/
def Event.IsPassedOver : Event → Prop
  | .other | .text _ | .cdata _ => True
  | _ => False

/-- The events of one element, with some events around it. -/
def Surrounded (P : Event → Prop) (es : List Event) (root : Element) : Prop :=
  ∃ before inside after, es = before ++ (inside ++ after) ∧ IsElement inside root ∧
    (∀ e ∈ before, P e) ∧ ∀ e ∈ after, P e

/-- **A well-formed document**: one root element, everything opened is closed, and nothing but
comments and the like and white space stands outside of the root. -/
def IsDocument (es : List Event) (root : Element) : Prop := Surrounded Event.IsMisc es root

variable {es fs : List Event} {e : Event} {t s : String} {cs ds : List Element} {root : Element}
  {b b' : Builder} {P : Event → Prop}

/-! ### Content -/

/-- What the content of an element is may be put together from parts. -/
theorem IsContent.append : ∀ {es : List Event} {t : String} {cs : List Element},
    IsContent es t cs → IsContent fs s ds → IsContent (es ++ fs) (t ++ s) (cs ++ ds)
  | _, _, _, .nil, h => by
    rw [String.empty_append]
    exact h
  | _, _, _, .text h, h' => by
    rw [String.append_assoc]
    exact .text (h.append h')
  | _, _, _, .cdata h, h' => by
    rw [String.append_assoc]
    exact .cdata (h.append h')
  | _, _, _, .other h, h' => .other (h.append h')
  | _, _, _, .child hc h, h' => by
    rw [List.append_assoc]
    exact .child hc (h.append h')

theorem isContent_child (h : IsElement es root) : IsContent es "" [root] := by
  have hchild := IsContent.child h .nil
  rwa [List.append_nil] at hchild

theorem isContent_text (s : String) : IsContent [.text (some s)] s [] := by
  have htext := IsContent.text (s := s) .nil
  rwa [String.append_empty] at htext

theorem isContent_cdata (s : String) : IsContent [.cdata s] s [] := by
  have htext := IsContent.cdata (s := s) .nil
  rwa [String.append_empty] at htext

/-! ### Every document is taken -/

/-- Adds text and children to an element. -/
def Element.extend (e : Element) (t : String) (cs : List Element) : Element :=
  { e with text := e.text ++ t, children := e.children ++ cs }

theorem Element.extend_nil (e : Element) : e.extend "" [] = e := by
  cases e
  unfold Element.extend
  rw [String.append_empty, List.append_nil]

theorem Element.extend_new (name : String) (as : List (String × String)) (t : String)
    (cs : List Element) : Element.extend { name, attributes := as } t cs
      = { name, attributes := as, text := t, children := cs } := by
  unfold Element.extend
  rw [String.empty_append, List.nil_append]

theorem Element.extend_extend (e : Element) (t s : String) (cs ds : List Element) :
    (e.extend t cs).extend s ds = e.extend (t ++ s) (cs ++ ds) := by
  unfold Element.extend
  rw [String.append_assoc, List.append_assoc]

theorem Element.addText_eq (e : Element) (s : String) : e.addText s = e.extend s [] := by
  unfold Element.addText Element.extend
  rw [List.append_nil]

theorem Element.addChild_eq (e c : Element) : e.addChild c = e.extend "" [c] := by
  unfold Element.addChild Element.extend
  rw [String.append_empty]

mutual

/-- **The events of an element add it** to the innermost open one, or make it the root. -/
theorem foldlM_of_isElement : ∀ {es : List Event} {c : Element}, IsElement es c →
    ∀ {b : Builder}, b.root = none → es.foldlM Builder.step b = .ok (b.close c)
  | _, _, .single, b, hroot => by
    rw [List.foldlM_cons, step_empty hroot]
    rfl
  | _, _, .block h, b, hroot => by
    rw [List.foldlM_cons, step_start hroot, ok_bind, List.foldlM_append, hroot,
      foldlM_of_isContent h, ok_bind, List.foldlM_cons, step_close, Element.extend_new]
    cases b
    rw [← hroot]
    rfl

/-- The events inside of an element add what they stand for. -/
theorem foldlM_of_isContent : ∀ {es : List Event} {t : String} {cs : List Element},
    IsContent es t cs → ∀ (e : Element) (opened : List Element),
      es.foldlM Builder.step ⟨e :: opened, none⟩ = .ok ⟨e.extend t cs :: opened, none⟩
  | _, _, _, .nil, e, opened => by
    rw [e.extend_nil]
    rfl
  | _, _, _, .text (s := s) h, e, opened => by
    have hstep : (⟨e :: opened, none⟩ : Builder).step (.text (some s))
        = .ok ⟨e.extend s [] :: opened, none⟩ := by
      rw [← e.addText_eq]
      rfl
    rw [List.foldlM_cons, hstep, ok_bind, foldlM_of_isContent h, e.extend_extend]
    rfl
  | _, _, _, .cdata (s := s) h, e, opened => by
    have hstep : (⟨e :: opened, none⟩ : Builder).step (.cdata s)
        = .ok ⟨e.extend s [] :: opened, none⟩ := by
      rw [← e.addText_eq]
      rfl
    rw [List.foldlM_cons, hstep, ok_bind, foldlM_of_isContent h, e.extend_extend]
    rfl
  | _, _, _, .other h, e, opened => by
    rw [List.foldlM_cons]
    exact foldlM_of_isContent h e opened
  | _, _, _, .child (c := c) hc h, e, opened => by
    have hclose : (⟨e :: opened, none⟩ : Builder).close c = ⟨e.extend "" [c] :: opened, none⟩ := by
      rw [← e.addChild_eq]
      rfl
    rw [List.foldlM_append, foldlM_of_isElement hc rfl, ok_bind, hclose, foldlM_of_isContent h,
      e.extend_extend, String.empty_append]
    rfl

end

/-- Outside of all elements the builder is left as it is. -/
theorem step_of_isPassedOver (hb : b.opened = []) (h : e.IsPassedOver) : b.step e = .ok b := by
  obtain ⟨opened, root⟩ := b
  cases hb
  cases e with
  | other | text | cdata => rfl
  | start | empty | close | malformed => exact h.elim

/-- Outside of the root text, comments and instructions are passed over. -/
theorem foldlM_of_isPassedOver (hb : b.opened = []) (h : ∀ e ∈ es, e.IsPassedOver) :
    es.foldlM Builder.step b = .ok b := by
  induction es with
  | nil => rfl
  | cons e es ih =>
    obtain ⟨he, hes⟩ := List.forall_mem_cons.1 h
    rw [List.foldlM_cons, step_of_isPassedOver hb he, ok_bind, ih hes]

/-- The events of a document lead to its root. -/
theorem foldlM_of_surrounded (h : Surrounded Event.IsPassedOver es root) :
    es.foldlM Builder.step {} = .ok ⟨[], some root⟩ := by
  obtain ⟨before, inside, after, rfl, hinside, hbefore, hafter⟩ := h
  rw [List.foldlM_append, foldlM_of_isPassedOver rfl hbefore, ok_bind, List.foldlM_append,
    foldlM_of_isElement hinside rfl, ok_bind]
  exact foldlM_of_isPassedOver rfl hafter

/-! ### What is taken is a document -/

/-- Events that leave some elements open, each with what has come inside of it so far; the innermost
one is the first. -/
inductive Opens : List Event → List Element → Prop
  | outside {es : List Event} (h : ∀ e ∈ es, e.IsPassedOver) : Opens es []
  | inside {es fs : List Event} {opened : List Element} {name t : String}
      {as : List (String × String)} {cs : List Element} (h : Opens es opened)
      (hc : IsContent fs t cs) :
      Opens (es ++ .start ⟨name, some as⟩ :: fs)
        ({ name, attributes := as, text := t, children := cs } :: opened)

/-- The builder stands for the events that it has taken. -/
inductive Reached : List Event → Builder → Prop
  | opened {es : List Event} {opened : List Element} (h : Opens es opened) :
      Reached es ⟨opened, none⟩
  | closed {es : List Event} {root : Element} (h : Surrounded Event.IsPassedOver es root) :
      Reached es ⟨[], some root⟩

/-- Behind the root there may be more that is passed over. -/
theorem Surrounded.concat (h : Surrounded P es root) (he : P e) :
    Surrounded P (es ++ [e]) root := by
  obtain ⟨before, inside, after, rfl, hinside, hbefore, hafter⟩ := h
  refine ⟨before, inside, after ++ [e], ?_, hinside, hbefore, ?_⟩
  · simp only [List.append_assoc]
  · intro a ha
    rcases List.mem_append.1 ha with ha | ha
    · exact hafter a ha
    · rw [List.mem_singleton.1 ha]
      exact he

variable {o c : Element} {opened : List Element}

/-- What comes inside of the innermost element is added to it. -/
theorem Opens.append (h : Opens es (o :: opened)) (hc : IsContent fs t cs) :
    Opens (es ++ fs) (o.extend t cs :: opened) := by
  cases h with
  | inside h h' =>
    rw [List.append_assoc]
    exact .inside h (h'.append hc)

/-- An element that is complete belongs to the innermost one that is open, or is the root. -/
theorem Opens.close (h : Opens es opened) (hc : IsElement fs c) :
    Reached (es ++ fs) ((⟨opened, none⟩ : Builder).close c) := by
  cases hopened : opened with
  | nil =>
    subst hopened
    cases h with
    | outside h => exact .closed ⟨es, fs, [], by rw [List.append_nil], hc, h, fun _ h => nomatch h⟩
  | cons o opened =>
    subst hopened
    have happend := h.append (isContent_child hc)
    rw [← o.addChild_eq] at happend
    exact .opened happend

/-- Text inside of the innermost element is added to it, text outside of all is passed over. -/
theorem Reached.addText (h : Reached es b) (hc : b.opened ≠ [] → IsContent [e] t [])
    (he : e.IsPassedOver) : Reached (es ++ [e]) (b.addText t) := by
  cases h with
  | closed h => exact .closed (h.concat he)
  | @opened opened h =>
    cases h with
    | outside h =>
      refine .opened (.outside fun a ha => ?_)
      rcases List.mem_append.1 ha with ha | ha
      · exact h a ha
      · rw [List.mem_singleton.1 ha]
        exact he
    | @inside es fs opened name u as ds h h' =>
      have happend := (@Opens.inside es fs opened name u as ds h h').append
        (hc (List.cons_ne_nil _ _))
      rw [← Element.addText_eq] at happend
      exact .opened happend

theorem Builder.addText_empty (b : Builder) : b.addText "" = b := by
  obtain ⟨opened, root⟩ := b
  cases opened with
  | nil => rfl
  | cons o opened =>
    have hextend : o.addText "" = o := by rw [o.addText_eq, o.extend_nil]
    show (⟨o.addText "" :: opened, root⟩ : Builder) = _
    rw [hextend]

/-- **A start tag** begins an element inside of the one that is open. -/
theorem Reached.start {tag : Tag} (h : Reached es b) (hstep : b.step (.start tag) = .ok b') :
    Reached (es ++ [.start tag]) b' := by
  obtain ⟨name, attributes⟩ := tag
  cases h with
  | closed h => cases hstep
  | opened h =>
    cases attributes with
    | none => cases hstep
    | some as =>
      cases hstep
      exact .opened (.inside h .nil)

/-- **An empty tag** is an element without content. -/
theorem Reached.empty {tag : Tag} (h : Reached es b) (hstep : b.step (.empty tag) = .ok b') :
    Reached (es ++ [.empty tag]) b' := by
  obtain ⟨name, attributes⟩ := tag
  cases attributes with
  | none => cases hstep
  | some as =>
    cases h with
    | closed h => cases hstep
    | opened h =>
      rw [step_empty rfl] at hstep
      cases hstep
      exact h.close .single

/-- **An end tag** ends the element that is open, and puts it into the one around it. -/
theorem Reached.close (h : Reached es b) (hstep : b.step .close = .ok b') :
    Reached (es ++ [.close]) b' := by
  cases h with
  | closed h => cases hstep
  | opened h =>
    cases h with
    | outside h => cases hstep
    | inside h hc =>
      cases hstep
      rw [List.append_assoc]
      exact h.close (.block hc)

/-- **One event** leads from what is reached to what is reached. -/
theorem Reached.step (h : Reached es b) (hstep : b.step e = .ok b') : Reached (es ++ [e]) b' := by
  cases e with
  | start tag => exact h.start hstep
  | empty tag => exact h.empty hstep
  | close => exact h.close hstep
  | malformed => cases hstep
  | other =>
    cases hstep
    rw [← b.addText_empty]
    exact h.addText (fun _ => .other .nil) trivial
  | cdata s =>
    cases hstep
    exact h.addText (fun _ => isContent_cdata s) trivial
  | text s =>
    cases hopened : b.opened with
    | nil =>
      have hsame : b.step (.text s) = .ok b := step_of_isPassedOver hopened trivial
      rw [hsame] at hstep
      cases hstep
      rw [← b.addText_empty]
      exact h.addText (fun hne => absurd hopened hne) trivial
    | cons o opened =>
      unfold Builder.step at hstep
      rw [hopened] at hstep
      cases s with
      | none => cases hstep
      | some s =>
        cases hstep
        exact h.addText (fun _ => isContent_text s) trivial

/-- **Any events** lead from what is reached to what is reached. -/
theorem Reached.run (h : Reached es b) (hrun : fs.foldlM Builder.step b = .ok b') :
    Reached (es ++ fs) b' := by
  induction fs generalizing es b with
  | nil =>
    cases hrun
    rwa [List.append_nil]
  | cons e fs ih =>
    rw [List.foldlM_cons] at hrun
    cases hstep : b.step e with
    | error f =>
      rw [hstep] at hrun
      cases hrun
    | ok c =>
      rw [hstep, ok_bind] at hrun
      have hrest := ih (h.step hstep) hrun
      rwa [List.append_assoc] at hrest

/-- A document is accepted if it is one element with nothing around it but what is passed over. -/
theorem ofEvents_eq_ok_iff :
    ofEvents es = .ok root ↔ Surrounded Event.IsPassedOver es root := by
  constructor
  · intro h
    unfold ofEvents at h
    cases hes : es.foldlM Builder.step {} with
    | error f =>
      rw [hes] at h
      cases h
    | ok b =>
      rw [hes, ok_bind] at h
      have hstart : Reached [] {} := .opened (.outside fun _ h => nomatch h)
      cases hstart.run hes with
      | closed hdocument =>
        cases h
        exact hdocument
      | @opened opened hopens => cases opened <;> cases h
  · intro h
    unfold ofEvents
    rw [foldlM_of_surrounded h]
    rfl

/-! ### What stands outside -/

/-- How many more elements are open behind an event. -/
def Event.turn : Event → Int
  | .start _ => 1
  | .close => -1
  | _ => 0

/-- How many elements are open behind some events. -/
def depth : List Event → Int
  | [] => 0
  | e :: es => e.turn + depth es

/-- Text or CDATA that may not stand outside of the root: all but white space. -/
def Event.IsStray (e : Event) : Prop := e.IsPassedOver ∧ ¬ e.IsMisc

/-- There is such text where no element is open. -/
def HasStray (es : List Event) : Prop :=
  ∃ before e after, es = before ++ e :: after ∧ depth before = 0 ∧ e.IsStray

theorem depth_cons (e : Event) (es : List Event) : depth (e :: es) = e.turn + depth es := rfl

/-- The depths of parts are added up. -/
theorem depth_append (es fs : List Event) : depth (es ++ fs) = depth es + depth fs := by
  induction es with
  | nil => exact (Int.zero_add _).symm
  | cons e es ih => rw [List.cons_append, depth_cons, depth_cons, ih, Int.add_assoc]

theorem Event.turn_of_isPassedOver (h : e.IsPassedOver) : e.turn = 0 := by
  cases e with
  | other | text | cdata => rfl
  | start | empty | close | malformed => exact h.elim

/-- What is passed over is at the depth where it began. -/
theorem depth_of_isPassedOver (h : ∀ e ∈ es, e.IsPassedOver) : depth es = 0 := by
  induction es with
  | nil => rfl
  | cons e es ih =>
    obtain ⟨he, hes⟩ := List.forall_mem_cons.1 h
    rw [depth_cons, Event.turn_of_isPassedOver he, ih hes]
    rfl

/-- What a document may have outside of its root is passed over. -/
theorem Event.IsMisc.isPassedOver (h : e.IsMisc) : e.IsPassedOver := by
  cases e with
  | other | text | cdata => trivial
  | start | empty | close | malformed => exact h.elim

/-- An event that leaves the number of open elements as it is. -/
theorem depth_nonneg_cons (he : e.turn = 0) (h : ∀ p q, es = p ++ q → 0 ≤ depth p) :
    ∀ p q, e :: es = p ++ q → 0 ≤ depth p := by
  intro p q heq
  cases p with
  | nil => exact Int.le_refl 0
  | cons d p =>
    obtain ⟨rfl, hes⟩ := List.cons.inj heq
    have hp := h p q hes
    rw [depth_cons, he]
    omega

mutual

/-- Inside of an element the element itself is open. -/
theorem depth_of_isElement : ∀ {es : List Event} {c : Element}, IsElement es c →
    depth es = 0 ∧ ∀ p q, es = p ++ q → p ≠ [] → q ≠ [] → 0 < depth p
  | _, _, .single => by
    refine ⟨rfl, fun p q heq hp hq => ?_⟩
    have hlength := congrArg List.length heq
    rw [List.length_append, List.length_singleton] at hlength
    have hp' := List.length_pos_iff.2 hp
    have hq' := List.length_pos_iff.2 hq
    omega
  | _, _, @IsElement.block name as es _ _ h => by
    obtain ⟨hzero, hnonneg⟩ := depth_of_isContent h
    have hstart : (Event.start ⟨name, some as⟩).turn = 1 := rfl
    have hclose : depth [Event.close] = -1 := rfl
    refine ⟨by rw [depth_cons, depth_append, hzero, hstart, hclose]; rfl, ?_⟩
    intro p q heq hp hq
    obtain ⟨d, p, rfl⟩ := List.exists_cons_of_ne_nil hp
    rw [List.cons_append] at heq
    obtain ⟨rfl, hes⟩ := List.cons.inj heq
    -- the closing tag is not in the first part, since the second one is not empty
    obtain ⟨r, hr⟩ : ∃ r, es = p ++ r := by
      rw [← List.dropLast_concat_getLast hq, ← List.append_assoc] at hes
      exact ⟨_, (List.append_inj' hes rfl).1⟩
    have hp := hnonneg p r hr
    rw [depth_cons, hstart]
    omega

/-- **Content ends at the depth where it began**, and never goes below it. -/
theorem depth_of_isContent : ∀ {es : List Event} {t : String} {cs : List Element},
    IsContent es t cs → depth es = 0 ∧ ∀ p q, es = p ++ q → 0 ≤ depth p
  | _, _, _, .nil => by
    refine ⟨rfl, fun p q heq => ?_⟩
    rw [(List.append_eq_nil_iff.1 heq.symm).1]
    exact Int.le_refl 0
  | _, _, _, .text h => by
    obtain ⟨hzero, hnonneg⟩ := depth_of_isContent h
    exact ⟨by rw [depth_cons, hzero]; rfl, depth_nonneg_cons rfl hnonneg⟩
  | _, _, _, .cdata h => by
    obtain ⟨hzero, hnonneg⟩ := depth_of_isContent h
    exact ⟨by rw [depth_cons, hzero]; rfl, depth_nonneg_cons rfl hnonneg⟩
  | _, _, _, .other h => by
    obtain ⟨hzero, hnonneg⟩ := depth_of_isContent h
    exact ⟨by rw [depth_cons, hzero]; rfl, depth_nonneg_cons rfl hnonneg⟩
  | _, _, _, .child hc h => by
    obtain ⟨hzero, hinside⟩ := depth_of_isElement hc
    obtain ⟨hzero', hnonneg⟩ := depth_of_isContent h
    refine ⟨by rw [depth_append, hzero, hzero']; rfl, fun p q heq => ?_⟩
    rcases List.append_eq_append_iff.1 heq with ⟨r, rfl, hr⟩ | ⟨r, hr, -⟩
    · -- the first part goes beyond the child
      have hr' := hnonneg r q hr
      rw [depth_append, hzero]
      omega
    · by_cases hp : p = []
      · rw [hp]
        exact Int.le_refl 0
      · by_cases hr' : r = []
        · rw [hr', List.append_nil] at hr
          rw [hr] at hzero
          exact Int.le_of_eq hzero.symm
        · exact Int.le_of_lt (hinside p r hr hp hr')

end

/-- What is passed over in an element stands behind its opening tag. -/
theorem depth_pos {p q : List Event} (h : IsElement (p ++ e :: q) c) (he : e.IsPassedOver) :
    0 < depth p := by
  by_cases hp : p = []
  · subst hp
    cases h with
    | single => exact he.elim
    | block => exact he.elim
  · exact (depth_of_isElement h).2 p (e :: q) rfl hp (List.cons_ne_nil _ _)

theorem append_eq_append_cons {α : Type} {as bs p q : List α} {a : α}
    (h : as ++ bs = p ++ a :: q) :
    (∃ r, as = p ++ a :: r) ∨ ∃ r, p = as ++ r ∧ bs = r ++ a :: q := by
  rcases List.append_eq_append_iff.1 h with hright | ⟨r, has, hbs⟩
  · exact .inr hright
  · cases r with
    | nil => exact .inr ⟨[], by rw [has]; simp, hbs.symm⟩
    | cons d r =>
      obtain ⟨rfl, -⟩ := List.cons.inj hbs
      exact .inl ⟨r, has⟩

/-- Nothing in a well-formed document stands outside that may not. -/
theorem not_hasStray (h : IsDocument es root) : ¬ HasStray es := by
  obtain ⟨before, inside, after, rfl, hinside, hbefore, hafter⟩ := h
  rintro ⟨p, e, q, heq, hdepth, hpassed, hnot⟩
  rcases append_eq_append_cons heq with ⟨r, hr⟩ | ⟨r, rfl, hrest⟩
  · exact hnot (hbefore e (hr ▸ List.mem_append_right _ List.mem_cons_self))
  rcases append_eq_append_cons hrest with ⟨x, hx⟩ | ⟨x, -, hx⟩
  · -- inside of the root some element is open
    have hzero : depth before = 0 := depth_of_isPassedOver fun a ha => (hbefore a ha).isPassedOver
    have hpos := depth_pos (hx ▸ hinside) hpassed
    rw [depth_append, hzero] at hdepth
    omega
  · exact hnot (hafter e (hx ▸ List.mem_append_right _ List.mem_cons_self))

/-- Where nothing stands outside that may not, what is passed over there may stand there. -/
theorem isMisc_of_not_hasStray {p : List Event} (h : ¬ HasStray (p ++ (es ++ fs)))
    (hp : depth p = 0) (hes : ∀ e ∈ es, e.IsPassedOver) : ∀ e ∈ es, e.IsMisc := by
  intro e he
  refine Classical.byContradiction fun hnot => ?_
  obtain ⟨x, y, hxy⟩ := List.append_of_mem he
  have hzero : depth (p ++ x) = 0 := by
    rw [depth_append, hp, depth_of_isPassedOver]
    · rfl
    · exact fun a ha => hes a (hxy ▸ List.mem_append_left _ ha)
  refine h ⟨p ++ x, e, y ++ fs, ?_, hzero, hes e he, hnot⟩
  rw [hxy]
  simp only [List.append_assoc, List.cons_append]

/-- **A document is what is accepted without stray text** outside of its root. -/
theorem isDocument_iff :
    IsDocument es root ↔ Surrounded Event.IsPassedOver es root ∧ ¬ HasStray es := by
  constructor
  · intro h
    refine ⟨?_, not_hasStray h⟩
    obtain ⟨before, inside, after, heq, hinside, hbefore, hafter⟩ := h
    exact ⟨before, inside, after, heq, hinside, fun a ha => (hbefore a ha).isPassedOver,
      fun a ha => (hafter a ha).isPassedOver⟩
  · rintro ⟨⟨before, inside, after, rfl, hinside, hbefore, hafter⟩, hstray⟩
    refine ⟨before, inside, after, rfl, hinside, ?_, ?_⟩
    · exact isMisc_of_not_hasStray (p := []) hstray rfl hbefore
    · have hzero : depth (before ++ inside) = 0 := by
        rw [depth_append, depth_of_isPassedOver hbefore, (depth_of_isElement hinside).1]
        rfl
      have hrest : ¬ HasStray ((before ++ inside) ++ (after ++ [])) := by
        rwa [List.append_nil, List.append_assoc]
      exact isMisc_of_not_hasStray hrest hzero hafter

/-- **Which events are taken for a document.** They are those of one element with anything but
elements around it, and they give this element; all others are a fault. So more is taken than
well-formed documents: these are what is taken and has no text or CDATA outside of the root. -/
theorem ofEvents_iff (es : List Event) :
    (∀ root, ofEvents es = .ok root ↔ Surrounded Event.IsPassedOver es root) ∧
      (∀ root, IsDocument es root ↔ ofEvents es = .ok root ∧ ¬ HasStray es) ∧
      ((∃ f, ofEvents es = .error f) ↔ ∀ root, ¬ Surrounded Event.IsPassedOver es root) := by
  refine ⟨fun root => ofEvents_eq_ok_iff, fun root => ?_, ?_⟩
  · rw [ofEvents_eq_ok_iff]
    exact isDocument_iff
  · simp only [← ofEvents_eq_ok_iff]
    cases ofEvents es with
    | ok root => exact iff_of_false (by simp) fun h => h root rfl
    | error f => exact iff_of_true ⟨f, rfl⟩ (by simp)

/-- **Text in front of the root is not noticed**, although no document may have it there. -/
theorem exists_stray_text : read "not a document <ids/>" = .ok { name := "ids" } ∧
    ∀ root, ¬ IsDocument (events "not a document <ids/>".toList) root := by
  have hevents : events "not a document <ids/>".toList
      = [.text (some "not a document"), .empty ⟨"ids", some []⟩] := by decide +kernel
  have hread : ofEvents (events "not a document <ids/>".toList) = .ok { name := "ids" } := by
    rw [hevents]
    rfl
  have hstray : HasStray (events "not a document <ids/>".toList) := by
    rw [hevents]
    exact ⟨[], _, _, rfl, rfl, trivial, by unfold Event.IsMisc; decide⟩
  exact ⟨hread, fun root h => not_hasStray h hstray⟩

end BimAudit.Xml
