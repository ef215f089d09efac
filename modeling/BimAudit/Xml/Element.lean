import BimAudit.Xml.Event

/-!
# Elements

A document is a tree of elements. It is built from events over a stack of open elements: text
belongs to the innermost open element and is collected from all pieces; text outside of the root is
ignored.

* `ofEvents`: the root element that a list of events denotes, or the fault in it.
* `read`: the root element of a text.
-/

namespace BimAudit.Xml

/-- An element with its attributes in order, the text directly in it, and the elements directly in
it. -/
structure Element where
  name : String
  attributes : List (String × String) := []
  text : String := ""
  children : List Element := []
deriving Repr

namespace Element

instance : Inhabited Element := ⟨{ name := "" }⟩

/-- The value of the first attribute with a name. -/
def attribute? (e : Element) (name : String) : Option String :=
  (e.attributes.find? (·.1 = name)).map (·.2)

/-- The first child with a name. -/
def child? (e : Element) (name : String) : Option Element := e.children.find? (·.name = name)

/-- The children with a name. -/
def childrenNamed (e : Element) (name : String) : List Element := e.children.filter (·.name = name)

/-- Adds a child at the end. -/
def addChild (e c : Element) : Element := { e with children := e.children ++ [c] }

/-- Adds text at the end. -/
def addText (e : Element) (s : String) : Element := { e with text := e.text ++ s }

end Element

/-- What is wrong with a text that is to be a document. -/
inductive Fault where
  /-- The text cannot be read as tags and text. -/
  | malformed
  /-- An element stands behind the root. -/
  | contentAfterRoot
  /-- An element is still open at the end. -/
  | unclosed (name : String)
  /-- There is no element. -/
  | noRoot
deriving DecidableEq, Repr

/-- The open elements, the innermost first, and the root once it is closed. -/
structure Builder where
  opened : List Element := []
  root : Option Element := none

namespace Builder

/-- Adds a closed element. -/
def close (b : Builder) (e : Element) : Builder :=
  match b.opened with
  | [] => { b with root := some e }
  | parent :: opened => { b with opened := parent.addChild e :: opened }

/-- Adds text to the innermost open element. -/
def addText (b : Builder) (s : String) : Builder :=
  match b.opened with
  | [] => b
  | e :: opened => { b with opened := e.addText s :: opened }

/-- The element that a tag opens. -/
def element? (t : Tag) : Option Element :=
  t.attributes.map fun attributes => { name := t.name, attributes }

/-- Takes one event. -/
def step (b : Builder) : Event → Except Fault Builder
  | .start t =>
    if b.root.isSome then .error .contentAfterRoot
    else match element? t with
      | some e => .ok { b with opened := e :: b.opened }
      | none => .error .malformed
  | .empty t =>
    match element? t with
    | none => .error .malformed
    | some e =>
      if b.opened.isEmpty && b.root.isSome then .error .contentAfterRoot else .ok (b.close e)
  | .close =>
    match b.opened with
    | [] => .error .malformed
    | e :: opened => .ok ({ b with opened }.close e)
  | .text s =>
    if b.opened.isEmpty then .ok b
    else match s with
      | some s => .ok (b.addText s)
      | none => .error .malformed
  | .cdata s => .ok (b.addText s)
  | .other => .ok b
  | .malformed => .error .malformed

/-- The root, once all events are taken. -/
def finish (b : Builder) : Except Fault Element :=
  match b.opened, b.root with
  | e :: _, _ => .error (.unclosed e.name)
  | [], some root => .ok root
  | [], none => .error .noRoot

end Builder

/-- The root element that a list of events denotes. -/
def ofEvents (es : List Event) : Except Fault Element := do
  (← es.foldlM Builder.step {}).finish

/-- The root element of a text. -/
def read (s : String) : Except Fault Element := ofEvents (events s.toList)

end BimAudit.Xml
