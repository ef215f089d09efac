import BimAudit.Audit.Report
import BimAudit.Screen.Canvas

/-!
# The colours of a browser
-/

namespace BimAudit.Browser.Theme

open Screen Audit

/-- Titles and selected rows. -/
def dark : Color := ⟨0x1F, 0x2F, 0x3C⟩

/-- The ground of the selected row. -/
def highlight : Color := ⟨0xC3, 0xD3, 0xE0⟩

/-- What passes. -/
def green : Color := ⟨0x82, 0x9A, 0x68⟩

/-- What fails. -/
def red : Color := ⟨0xA8, 0x4A, 0x3E⟩

/-- What has the focus or needs attention. -/
def orange : Color := ⟨0x9E, 0x68, 0x3C⟩

/-- What stands back. -/
def muted : Color := ⟨0x71, 0x65, 0x65⟩

/-- Text in a colour. -/
def text (c : Color) : Style := { foreground := some c }

/-- Titles. -/
def title : Style := { foreground := some dark, bold := true }

/-- The selected row of the panel with the focus. -/
def selected : Style := { foreground := some dark, background := some highlight, bold := true }

/-- The selected row of another panel. -/
def marked : Style := { bold := true }

/-- The style of a status. -/
def status : Status → Style
  | .pass => text green
  | .fail => text red

/-- The selected row of a panel. -/
def selection (focused : Bool) : Style := if focused then selected else marked

/-- The border of a panel. -/
def border (focused : Bool) : Style := if focused then text orange else {}

end BimAudit.Browser.Theme
