/-!
# Canvases

A canvas is a grid of glyphs: characters in a style. Drawing writes characters into it and changes
the style of what is there. A style changes only what it sets, so a text takes over the colours of
the ground that it is written on.
-/

namespace BimAudit.Screen

/-- A colour by its three parts. -/
structure Color where
  red : UInt8
  green : UInt8
  blue : UInt8
deriving DecidableEq, Repr

/-- What a style sets. -/
structure Style where
  foreground : Option Color := none
  background : Option Color := none
  bold : Bool := false
deriving DecidableEq, Repr

/-- The style that sets what `s` sets, and else what `t` sets. -/
def Style.onto (s t : Style) : Style :=
  ⟨s.foreground.or t.foreground, s.background.or t.background, s.bold || t.bold⟩

/-- A character in a style. -/
structure Glyph where
  symbol : Char := ' '
  style : Style := {}
deriving DecidableEq, Repr

/-- A text in a style. -/
structure Span where
  text : String
  style : Style := {}

/-- The glyphs of some texts in a row. -/
def glyphs (line : List Span) : List Glyph := line.flatMap fun s => s.text.toList.map (⟨·, s.style⟩)

/-- A rectangle on a canvas. -/
structure Area where
  x : Nat
  y : Nat
  width : Nat
  height : Nat
deriving DecidableEq, Repr

/-- The area inside of a border. -/
def Area.inner (a : Area) : Area := ⟨a.x + 1, a.y + 1, a.width - 2, a.height - 2⟩

/-- A grid of glyphs, by rows. -/
structure Canvas where
  rows : Array (Array Glyph)

namespace Canvas

/-- An empty canvas. -/
def blank (width height : Nat) : Canvas := ⟨.replicate height (.replicate width {})⟩

/-- Changes one glyph. -/
def update (c : Canvas) (x y : Nat) (f : Glyph → Glyph) : Canvas := ⟨c.rows.modify y (·.modify x f)⟩

/-- Puts a character in the style that is there. -/
def put (c : Canvas) (x y : Nat) (symbol : Char) : Canvas := c.update x y ({ · with symbol })

/-- Puts a glyph on top of what is there. -/
def draw (c : Canvas) (x y : Nat) (g : Glyph) : Canvas :=
  c.update x y fun h => ⟨g.symbol, g.style.onto h.style⟩

/-- Sets the style of an area. -/
def paint (c : Canvas) (a : Area) (s : Style) : Canvas :=
  (List.range a.height).foldl (fun c i =>
    (List.range a.width).foldl (fun c j =>
      c.update (a.x + j) (a.y + i) fun g => { g with style := s.onto g.style }) c) c

/-- Writes a line of text, cut off where the room ends. -/
def write (c : Canvas) (x y room : Nat) (line : List Span) : Canvas :=
  ((glyphs line).take room).zipIdx.foldl (fun c g => c.draw (x + g.2) y g.1) c

end Canvas

end BimAudit.Screen
