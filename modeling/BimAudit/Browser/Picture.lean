import BimAudit.Browser.Theme
import BimAudit.Browser.Window
import BimAudit.Decimal.Notation
import BimAudit.Screen.Widget
import BimAudit.Text.Ascii

/-!
# The picture of a browser

The dashboard has a line of totals on top, the three panels side by side, and a line of keys at the
bottom. The detail view has the entity on top, with a line about it, and its findings below.

* `Browser.dashboard`, `Browser.detail`: the two views.
* `Browser.picture`: the view that a browser is in.
-/

namespace BimAudit.Browser

open Audit Screen

/-- A status in capitals. -/
def capitals (s : Status) : String := Text.upper s.name

/-- A percentage with a number of places. -/
def percentage (places : Nat) (s : Summary) : String := Decimal.fixed places s.passRate ++ "%"

/-- Draws the line of keys. -/
def drawKeys (c : Canvas) (a : Area) (keys : String) : Canvas :=
  (c.paint a (Theme.text Theme.muted)).panel a [⟨keys, {}⟩]

variable (b : Browser)

/-! ### The dashboard -/

/-- The line of totals. -/
def totals : List Span :=
  let s := b.report.summary
  [⟨" IDS Inspector | ", Theme.title⟩, ⟨toString s.total ++ " entities | ", Theme.title⟩,
    ⟨toString s.passed ++ " passed", Theme.status .pass⟩, ⟨" | ", {}⟩,
    ⟨toString s.failed ++ " failed", Theme.status .fail⟩,
    ⟨" | " ++ percentage 1 s ++ " ", Theme.title⟩]
    ++ if b.report.aborted then [⟨" ABORTED ", Theme.text Theme.orange⟩] else []

/-- The two lines of a pair. -/
def pairLines (p : Pair × Nat) : List Span × List Span :=
  let focused := b.panel = .files
  let isSelected := p.2 = b.pair
  let s := p.1.file.summary
  ([⟨p.1.file.fileName, if isSelected then Theme.selection focused else {}⟩,
      ⟨if isSelected ∧ focused then " ◄" else "", Theme.text Theme.orange⟩],
    [⟨"  " ++ p.1.document ++ " ", Theme.text Theme.muted⟩,
      ⟨percentage 0 s, Theme.status (.ofBool (s.failed = 0))⟩])

/-- Draws the panel of pairs. -/
def drawFiles (c : Canvas) (a : Area) : Canvas :=
  let c := c.box a (" Files (" ++ toString b.report.pairs.length ++ ") ")
    (Theme.border (b.panel = .files))
  c.list a.inner ((b.shownPairs a.height).map b.pairLines)

/-- The style of a row of a table. -/
def rowStyle (focused isSelected : Bool) (s : Status) : Style :=
  if isSelected then Theme.selection focused else Theme.status s

/-- The widths of the columns of the specifications. -/
def specificationExtents : List Extent := [.percent 64, .percent 18, .percent 18]

/-- The row of a specification. -/
def specificationRow (s : SpecificationResult × Nat) : Canvas.TableRow where
  cells := [s.1.specification, toString s.1.passCount, toString s.1.failCount]
  style := rowStyle (b.panel = .specifications) (s.2 = b.specification) s.1.status

/-- Draws the panel of specifications. -/
def drawSpecifications (c : Canvas) (a : Area) : Canvas :=
  let count := b.specifications.length
  let c := c.box a (" Specifications (" ++ toString count ++ ") ")
    (Theme.border (b.panel = .specifications))
  let c := c.table a.inner specificationExtents ⟨["Specification", "Pass", "Fail"], Theme.title⟩
    ((b.shownSpecifications a.height).map b.specificationRow)
  if tableRoom a.height < count then c.scrollBar a count b.specification else c

/-- The widths of the columns of the entities. -/
def entityExtents : List Extent := [.columns 6, .percent 26, .percent 34, .percent 30]

/-- The row of an entity. -/
def entityRow (e : EntityResult × Nat) : Canvas.TableRow where
  cells := [capitals e.1.status, e.1.entityType, e.1.name, e.1.guid]
  style := rowStyle (b.panel = .entities) (e.2 = b.entity) e.1.status

/-- Draws the panel of entities. -/
def drawEntities (c : Canvas) (a : Area) : Canvas :=
  let count := b.entities.length
  let shown := toString count ++ if b.failuresOnly then ", failures" else ""
  let c := c.box a (" Entities (" ++ shown ++ ") ") (Theme.border (b.panel = .entities))
  let c := c.table a.inner entityExtents ⟨["Status", "Type", "Name", "GlobalId"], Theme.title⟩
    ((b.shownEntities a.height).map b.entityRow)
  if tableRoom a.height < count then c.scrollBar a count b.entity else c

/-- The widths of the three panels. -/
def panelExtents : List Extent := [.percent 22, .percent 30, .percent 48]

/-- Draws the three panels into an area. -/
def drawPanels (c : Canvas) (a : Area) : Canvas :=
  ([b.drawFiles, b.drawSpecifications, b.drawEntities].zip (divide a.width 0 panelExtents)).foldl
    (fun c p => p.1 c { a with x := a.x + p.2.1, width := p.2.2 }) c

/-- The keys of the dashboard. -/
def dashboardKeys : String := " ←→ Panel | ↑↓ Select | f Failures only | Enter Details | q Quit "

/-- The dashboard. -/
def dashboard (width height : Nat) : Canvas :=
  let c := (Canvas.blank width height).panel ⟨0, 0, width, 3⟩ b.totals
  let c := b.drawPanels c ⟨0, 3, width, height - 6⟩
  drawKeys c ⟨0, height - 3, width, 3⟩ dashboardKeys

/-! ### The findings of an entity -/

/-- The line about an entity. -/
def aboutEntity (e : EntityResult) : String :=
  "  |  ".intercalate [e.entityType, e.fileName, "Spec: " ++ e.specification,
    "Entity: " ++ toString (b.entity + 1) ++ "/" ++ toString b.entities.length,
    "GlobalId: " ++ e.guid]

/-- The widths of the columns of the findings. -/
def findingExtents : List Extent := [.columns 6, .columns 15, .percent 40, .percent 45]

/-- The row of a finding. -/
def findingRow (f : Finding × Nat) : Canvas.TableRow where
  cells := [capitals f.1.status, f.1.kind.name, f.1.message, f.1.details]
  style := Theme.status f.1.status

/-- Draws the findings. -/
def drawFindings (c : Canvas) (a : Area) : Canvas :=
  let count := b.findings.length
  let c := c.box a (" Requirements (" ++ toString count ++ ") ") {}
  let c := c.table a.inner findingExtents
    ⟨["Status", "Facet", "Requirement", "Details"], Theme.title⟩
    ((b.shownFindings a.height).map findingRow)
  if tableRoom a.height < count then c.scrollBar a count b.scroll else c

/-- The keys of the detail view. -/
def detailKeys : String := " Esc Back | ↑↓ Scroll | ←→ Entity | q Quit "

/-- The findings of the selected entity, an empty screen if there is none. -/
def detail (width height : Nat) : Canvas :=
  let c := Canvas.blank width height
  match b.selectedEntity? with
  | none => c
  | some e =>
    let c := c.panel ⟨0, 0, width, 3⟩
      [⟨" " ++ e.name ++ " ", Theme.title⟩, ⟨capitals e.status, Theme.status e.status⟩]
    let c := c.panel ⟨0, 3, width, 3⟩ [⟨b.aboutEntity e, {}⟩]
    let c := b.drawFindings c ⟨0, 6, width, height - 9⟩
    drawKeys c ⟨0, height - 3, width, 3⟩ detailKeys

/-- The view that the browser is in. -/
def picture (width height : Nat) : Canvas :=
  match b.view with
  | .dashboard => b.dashboard width height
  | .detail => b.detail width height

end BimAudit.Browser
