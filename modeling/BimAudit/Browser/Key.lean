import BimAudit.Browser.State

/-!
# Keys

Keys move the selection of a panel up and down and the focus left and right, hide and show the
entities that pass, open and close the findings of an entity, and leave the browser. A new selection
in a panel begins the panels to its right anew.

* `Browser.press`: the browser after a key.
* `Browser.pressAll`: the browser after several keys.
-/

namespace BimAudit

/-- The keys that a browser can tell apart. -/
inductive Browser.Key where
  | up
  | down
  | left
  | right
  | enter
  | escape
  | backspace
  | tab
  | character (c : Char)
deriving DecidableEq, Repr

namespace Browser

/-- The next place of a list with so many items, or the same one at its end. -/
def advance (count place : Nat) : Nat := if place + 1 < count then place + 1 else place

/-- The place before in a list with so many items, and the last one before the first. -/
def cycleBack (count place : Nat) : Nat := if 0 < place then place - 1 else count - 1

/-- The next place in a list with so many items, and the first one behind the last. -/
def cycle (count place : Nat) : Nat := (place + 1) % count

/-! ### The dashboard -/

/-- Selects a pair. -/
def selectPair (b : Browser) (place : Nat) : Browser :=
  if place = b.pair then b else { b with pair := place, specification := 0, entity := 0 }

/-- Selects a specification. -/
def selectSpecification (b : Browser) (place : Nat) : Browser :=
  if place = b.specification then b else { b with specification := place, entity := 0 }

/-- Selects the item above. -/
def moveUp (b : Browser) : Browser :=
  match b.panel with
  | .files => b.selectPair (b.pair - 1)
  | .specifications => b.selectSpecification (b.specification - 1)
  | .entities => { b with entity := b.entity - 1 }

/-- Selects the item below. -/
def moveDown (b : Browser) : Browser :=
  match b.panel with
  | .files => b.selectPair (advance b.report.pairs.length b.pair)
  | .specifications => b.selectSpecification (advance b.specifications.length b.specification)
  | .entities => { b with entity := advance b.entities.length b.entity }

/-- The panel to the left. -/
def Panel.before : Panel → Panel
  | .entities => .specifications
  | .specifications => .files
  | .files => .files

/-- The panel to the right. -/
def Panel.behind : Panel → Panel
  | .files => .specifications
  | .specifications => .entities
  | .entities => .entities

/-- Hides the entities that pass, or shows them again. -/
def toggleFailures (b : Browser) : Browser :=
  { b with failuresOnly := !b.failuresOnly, entity := 0 }

/-- Opens the findings of the selected entity, from the panel of entities only. -/
def openDetail (b : Browser) : Browser :=
  if b.panel = .entities ∧ b.selectedEntity?.isSome then { b with view := .detail, scroll := 0 }
  else b

/-- A key on the dashboard. -/
def pressOnDashboard (b : Browser) : Key → Browser
  | .character 'q' | .escape => { b with closed := true }
  | .up | .character 'k' => b.moveUp
  | .down | .character 'j' => b.moveDown
  | .left | .character 'h' => { b with panel := b.panel.before }
  | .right | .character 'l' => { b with panel := b.panel.behind }
  | .character 'f' => b.toggleFailures
  | .enter => b.openDetail
  | _ => b

/-! ### The findings of an entity -/

/-- Opens another entity, if there are any. -/
def turn (b : Browser) (next : Nat → Nat → Nat) : Browser :=
  if b.entities.isEmpty then b
  else { b with entity := next b.entities.length b.entity, scroll := 0 }

/-- A key on the findings of an entity. -/
def pressOnDetail (b : Browser) : Key → Browser
  | .character 'q' => { b with closed := true }
  | .escape | .backspace => { b with view := .dashboard, scroll := 0 }
  | .up | .character 'k' => { b with scroll := b.scroll - 1 }
  | .down | .character 'j' => { b with scroll := advance b.findings.length b.scroll }
  | .left | .character 'h' => b.turn cycleBack
  | .right | .character 'l' => b.turn cycle
  | _ => b

/-- The browser after a key. -/
def press (b : Browser) (k : Key) : Browser :=
  match b.view with
  | .dashboard => b.pressOnDashboard k
  | .detail => b.pressOnDetail k

/-- The browser after several keys. -/
def pressAll (b : Browser) (ks : List Key) : Browser := ks.foldl press b

end Browser

end BimAudit
