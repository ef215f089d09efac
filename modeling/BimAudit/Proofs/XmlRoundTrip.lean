import BimAudit.Proofs.XmlTags

/-!
# Markup is read back

The text of markup is read as a list of events, from which the stack of open elements builds the
element that the markup stands for.

* `Markup.events`: the events that the markup gives.
* `run_print`: the reader takes the text as these events, and goes on behind it.
* `foldlM_events`: these events add the element of the markup to what is open.
* `read_document`: **a document is read back**, whatever its texts and attribute values are.
-/

namespace BimAudit.Xml

open Markup (tag newline readName readText)

namespace Markup

/-! ### Markup with plain names -/

mutual

/-- Every name is one that may be written, and no element has two attributes of one name. -/
def Plain : Markup → Prop
  | text name _ => IsName name
  | single name attributes => IsName name ∧ AreAttributes attributes
  | block name attributes children =>
    IsName name ∧ AreAttributes attributes ∧ AllPlain children

/-- So it is for each of some markup. -/
def AllPlain : List Markup → Prop
  | [] => True
  | m :: ms => m.Plain ∧ AllPlain ms

end

/-! ### Events -/

/-- The event of a text between two tags; white space gives none. -/
def textEvents (content : String) : List Event :=
  if content.toList.dropWhile Text.isSpace = [] then [] else [.text (some (readText content))]

mutual

/-- The events of the markup. -/
def events : Markup → List Event
  | text name content => .start ⟨readName name, some []⟩ :: (textEvents content ++ [.close])
  | single name attributes => [.empty ⟨readName name, some (readAttributes attributes)⟩]
  | block name attributes children =>
    .start ⟨readName name, some (readAttributes attributes)⟩ :: (eventsAll children ++ [.close])

/-- The events of some markup. -/
def eventsAll : List Markup → List Event
  | [] => []
  | m :: ms => m.events ++ eventsAll ms

end

end Markup

open Markup (eventsAll textEvents)

variable {opened : List (List Char)}

theorem run_succ {n : Nat} {s rest : List Char} {e : Event} {opened' : List (List Char)}
    (h : event? opened s = some (e, opened', rest)) :
    run (n + 1) opened s = e :: run n opened' rest := by
  rw [run, h]

theorem run_singleton {s rest : List Char} {e : Event} {opened' : List (List Char)}
    (h : event? opened s = some (e, opened', rest)) (n : Nat) :
    run ([e].length + n) opened s = [e] ++ run n opened' rest := by
  rw [List.length_singleton, Nat.add_comm, run_succ h, List.singleton_append]

/-- What is read depends on what comes next only. -/
theorem run_congr {n : Nat} {s t : List Char} (h : event? opened s = event? opened t) :
    run n opened s = run n opened t := by
  cases n with
  | zero => rfl
  | succ n => rw [run, run, h]

theorem areAttributes_nil : AreAttributes [] :=
  ⟨fun _ h => absurd h List.not_mem_nil, List.nodup_nil⟩

theorem toList_tag_nil (name : String) : (tag name []).toList = name.toList := by
  rw [toList_tag]
  exact List.append_nil _

/-- The text of an element goes up to the tag behind it. -/
theorem run_textEvents (content : String) (n : Nat) (r : List Char) :
    run ((textEvents content).length + n) opened (escape content.toList ++ '<' :: r)
      = textEvents content ++ run n opened ('<' :: r) := by
  unfold textEvents
  split
  · next h =>
    rw [List.length_nil, Nat.zero_add, List.nil_append]
    exact run_congr (event?_blank h r)
  · next h =>
    exact run_singleton (event?_text h r) n

theorem run_close {name : String} (h : IsName name) (n : Nat) (rest : List Char) :
    run (n + 1) (name.toList :: opened) ('<' :: '/' :: (name.toList ++ '>' :: rest))
      = .close :: run n opened rest :=
  run_succ (event?_close h rest)

theorem toList_print_text (name content : String) (depth : Nat) (rest : List Char) :
    ((Markup.text name content).print depth).toList ++ rest
      = (newline depth).toList ++ '<' :: ((tag name []).toList ++ '>' ::
          (escape content.toList ++ '<' :: '/' :: (name.toList ++ '>' :: rest))) := by
  rw [Markup.print, toList_tag_nil]
  simp [String.toList_append]

/-- An element without content is written in one tag on a line of its own. -/
theorem toList_print_single (name : String) (as : List (String × String)) (depth : Nat)
    (rest : List Char) :
    ((Markup.single name as).print depth).toList ++ rest
      = (newline depth).toList ++ '<' :: ((tag name as).toList ++ '/' :: '>' :: rest) := by
  rw [Markup.print]
  simp [String.toList_append]

/-- A block is written in lines: its opening tag, what is in it, its closing tag. -/
theorem toList_print_block (name : String) (as : List (String × String)) (ms : List Markup)
    (depth : Nat) (rest : List Char) :
    ((Markup.block name as ms).print depth).toList ++ rest
      = (newline depth).toList ++ '<' :: ((tag name as).toList ++ '>' ::
          ((Markup.printAll (depth + 1) ms).toList ++ ((newline depth).toList ++
            '<' :: '/' :: (name.toList ++ '>' :: rest)))) := by
  rw [Markup.print]
  simp [String.toList_append]

mutual

/-- **The reader takes the text of markup as its events**, one for each unit of fuel, and goes on
behind it with the same elements open. -/
theorem run_print : ∀ {m : Markup}, m.Plain → ∀ (depth n : Nat) (opened : List (List Char))
    (rest : List Char),
    run (m.events.length + n) opened ((m.print depth).toList ++ rest)
      = m.events ++ run n opened rest
  | .text name content, h, depth, n, opened, rest => by
    have hlength : (Markup.events (.text name content)).length + n
        = (textEvents content).length + (n + 1) + 1 := by
      rw [Markup.events, List.length_cons, List.length_append, List.length_singleton]
      omega
    rw [toList_print_text, run_congr (event?_newline depth _), hlength,
      run_succ (event?_start h areAttributes_nil _), run_textEvents, run_close h, Markup.events]
    simp [readAttributes]
  | .single name attributes, h, depth, n, opened, rest => by
    rw [toList_print_single, run_congr (event?_newline depth _)]
    exact run_singleton (event?_single h.1 h.2 rest) n
  | .block name attributes children, h, depth, n, opened, rest => by
    -- one unit for the opening tag, some for the children, one for the closing tag
    have hlength : (Markup.events (.block name attributes children)).length + n
        = (eventsAll children).length + (n + 1) + 1 := by
      rw [Markup.events, List.length_cons, List.length_append, List.length_singleton]
      omega
    rw [toList_print_block, run_congr (event?_newline depth _), hlength,
      run_succ (event?_start h.1 h.2.1 _), run_printAll h.2.2,
      run_congr (event?_newline depth _), run_close h.1, Markup.events]
    simp

/-- **What is written is read back as its events**, one element after the other. -/
theorem run_printAll : ∀ {ms : List Markup}, Markup.AllPlain ms → ∀ (depth n : Nat)
    (opened : List (List Char)) (rest : List Char),
    run ((eventsAll ms).length + n) opened ((Markup.printAll depth ms).toList ++ rest)
      = eventsAll ms ++ run n opened rest
  | [], _, depth, n, opened, rest => by
    rw [Markup.printAll, eventsAll, List.length_nil, Nat.zero_add]
    rfl
  | m :: ms, h, depth, n, opened, rest => by
    rw [Markup.printAll, eventsAll, List.length_append, Nat.add_assoc, String.toList_append,
      List.append_assoc, run_print h.1, run_printAll h.2, List.append_assoc]

end

/-! ### There is fuel enough -/

mutual

/-- There are no more events than characters, so a reader with as many steps as characters comes to
the end. -/
theorem length_events_le : ∀ (m : Markup) (depth : Nat),
    m.events.length ≤ (m.print depth).toList.length
  | .text name content, depth => by
    have hprint := toList_print_text name content depth []
    have hlength : (textEvents content).length ≤ 1 := by
      unfold textEvents
      split <;> simp
    rw [List.append_nil] at hprint
    rw [hprint, Markup.events]
    simp only [List.length_append, List.length_cons, List.length_nil]
    omega
  | .single name attributes, depth => by
    have hprint := toList_print_single name attributes depth []
    rw [List.append_nil] at hprint
    rw [hprint, Markup.events]
    simp only [List.length_append, List.length_cons, List.length_nil]
    omega
  | .block name attributes children, depth => by
    have hprint := toList_print_block name attributes children depth []
    have hchildren := length_eventsAll_le children (depth + 1)
    rw [List.append_nil] at hprint
    rw [hprint, Markup.events]
    simp only [List.length_append, List.length_cons, List.length_nil]
    omega

theorem length_eventsAll_le : ∀ (ms : List Markup) (depth : Nat),
    (eventsAll ms).length ≤ (Markup.printAll depth ms).toList.length
  | [], _ => Nat.zero_le _
  | m :: ms, depth => by
    have hm := length_events_le m depth
    have hms := length_eventsAll_le ms depth
    rw [eventsAll, Markup.printAll, String.toList_append, List.length_append, List.length_append]
    omega

end

/-! ### Building elements -/

variable {b : Builder}

/-- As long as there is no root, a start tag opens an element. -/
theorem step_start (hroot : b.root = none) (name : String) (as : List (String × String)) :
    b.step (.start ⟨name, some as⟩)
      = .ok { b with opened := { name, attributes := as } :: b.opened } := by
  rw [Builder.step, hroot]
  rfl

theorem step_empty (hroot : b.root = none) (name : String) (as : List (String × String)) :
    b.step (.empty ⟨name, some as⟩) = .ok (b.close { name, attributes := as }) := by
  rw [Builder.step, hroot, Builder.element?, Option.map_some, Option.isSome_none, Bool.and_false]
  rfl

/-- A closing tag ends the innermost element. -/
theorem step_close (e : Element) (opened : List Element) (root : Option Element) :
    (⟨e :: opened, root⟩ : Builder).step .close = .ok ((⟨opened, root⟩ : Builder).close e) := rfl

/-- The text of an element is put into it. -/
theorem foldlM_textEvents (content name : String) (as : List (String × String))
    (opened : List Element) (root : Option Element) :
    (textEvents content).foldlM Builder.step
        (⟨{ name, attributes := as } :: opened, root⟩ : Builder)
      = .ok ⟨{ name, attributes := as, text := readText content } :: opened, root⟩ := by
  unfold textEvents
  split
  · next h =>
    have htext : readText content = "" := by
      unfold readText
      rw [h]
      rfl
    rw [htext]
    rfl
  · have hadd : "" ++ readText content = readText content := String.empty_append
    simp only [List.foldlM_cons, List.foldlM_nil, Builder.step, Builder.addText, Element.addText,
      List.isEmpty_cons, Bool.false_eq_true, if_false, hadd]
    rfl

theorem ok_bind {α β ε : Type} (a : α) (f : α → Except ε β) : (Except.ok a >>= f) = f a := rfl

mutual

/-- **The events of markup add its element** to the innermost open one, or make it the root. -/
theorem foldlM_events : ∀ (m : Markup) (b : Builder), b.root = none →
    m.events.foldlM Builder.step b = .ok (b.close m.element)
  | .text name content, b, hroot => by
    rw [Markup.events, List.foldlM_cons, step_start hroot, ok_bind, List.foldlM_append,
      foldlM_textEvents, ok_bind, List.foldlM_cons, step_close, ok_bind]
    rfl
  | .single name attributes, b, hroot => by
    rw [Markup.events, List.foldlM_cons, step_empty hroot, ok_bind]
    rfl
  | .block name attributes children, b, hroot => by
    -- the children go to the element that the opening tag has put on the stack
    have hchildren := foldlM_eventsAll children
      { name := readName name, attributes := readAttributes attributes } b.opened
    rw [Markup.events, List.foldlM_cons, step_start hroot, ok_bind, List.foldlM_append, hroot,
      hchildren, ok_bind, List.foldlM_cons, step_close, ok_bind]
    cases b
    rw [← hroot]
    rfl

/-- The events of several add their elements in order. -/
theorem foldlM_eventsAll : ∀ (ms : List Markup) (e : Element) (opened : List Element),
    (eventsAll ms).foldlM Builder.step ⟨e :: opened, none⟩
      = .ok ⟨{ e with children := e.children ++ Markup.elements ms } :: opened, none⟩
  | [], e, opened => by
    cases e
    rw [eventsAll, Markup.elements, List.append_nil]
    rfl
  | m :: ms, e, opened => by
    rw [eventsAll, List.foldlM_append, foldlM_events m _ rfl, ok_bind, Builder.close,
      foldlM_eventsAll ms, Markup.elements]
    simp [Element.addChild]

end

/-! ### Documents -/

/-- The declaration in front of a document. -/
def declaration : List Char := "<?xml version=\"1.0\" encoding=\"UTF-8\"?>".toList

theorem event?_declaration (r : List Char) :
    event? opened (declaration ++ r) = some (.other, opened, r) := by
  rfl

/-- **A document is read back.** The reader of its text gives the element that the markup stands
for: attribute values are kept as they are, texts up to the white space at their ends. -/
theorem read_document {m : Markup} (h : m.Plain) : read (Markup.document m) = .ok m.element := by
  have htext : (Markup.document m).toList = declaration ++ (m.print 0).toList := by
    unfold Markup.document declaration
    rw [String.toList_append]
  have hlength := length_events_le m 0
  -- every event has taken a character, so there is fuel for all of them
  obtain ⟨k, hk⟩ : ∃ k, (Markup.document m).toList.length = m.events.length + k + 1 := by
    refine ⟨(Markup.document m).toList.length - m.events.length - 1, ?_⟩
    have hdeclaration : 0 < declaration.length := by decide
    rw [htext, List.length_append]
    omega
  have hevents : events (Markup.document m).toList = .other :: m.events := by
    -- there is no byte order mark to drop
    have hhead : (Markup.document m).toList.head? = some '<' := by
      rw [htext]
      rfl
    have hmark : ¬ (Markup.document m).toList.head? = some '\uFEFF' := by
      rw [hhead]
      decide
    have hprint := run_print h 0 k [] []
    have hend : run k [] [] = [] := by
      cases k <;> rfl
    rw [List.append_nil, hend, List.append_nil] at hprint
    unfold events
    rw [if_neg hmark, hk, htext, run_succ (event?_declaration _), hprint]
  unfold read ofEvents
  rw [hevents, List.foldlM_cons]
  have hother : ({} : Builder).step .other = .ok {} := rfl
  rw [hother, ok_bind, foldlM_events m {} rfl]
  rfl

end BimAudit.Xml
