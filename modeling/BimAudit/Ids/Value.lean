import BimAudit.Decimal.Literal
import BimAudit.Regex.Reader
import BimAudit.Text.Ascii

/-!
# Value restrictions

A value restriction says which texts a requirement accepts: one literal, the texts that a pattern
finds something in, one of some literals, numbers within bounds, or texts of some length. Bounds are
kept as they are written and read when a text is tested; a bound that is no number accepts nothing.
What a pattern finds is left open where restrictions are put to use, and it is settled only here
that patterns are regular expressions.

* `Patterns`: what patterns mean.
* `Value.accepts`: the texts that a restriction accepts.
* `Value.describe`: the restriction in words.
-/

namespace BimAudit.Ids

/-- Bounds on a number. -/
structure Bounds where
  minInclusive : Option String := none
  maxInclusive : Option String := none
  minExclusive : Option String := none
  maxExclusive : Option String := none
deriving DecidableEq, Repr

/-- Bounds on the number of characters of a text. -/
structure LengthBounds where
  minLength : Option String := none
  maxLength : Option String := none
  length : Option String := none
deriving DecidableEq, Repr

/-- A restriction on texts. -/
inductive Value where
  /-- The text itself. -/
  | simple (text : String)
  /-- Every text in which the pattern finds a match. -/
  | pattern (regex : String)
  /-- Each of some texts. -/
  | enumeration (options : List String)
  | bounds (b : Bounds)
  | length (l : LengthBounds)
deriving DecidableEq, Repr

/-- What patterns mean. -/
class Patterns where
  /-- The texts in which the pattern finds a match; `none` if it has no meaning. -/
  meaning? : String → Option (String → Bool)

/-- Patterns are regular expressions. -/
instance : Patterns where
  meaning? pattern := (Regex.ofPattern? pattern).map fun r text => r.isMatch text.toList

variable [Patterns]

/-- The pattern has a meaning. -/
def isPattern (pattern : String) : Bool := (Patterns.meaning? pattern).isSome

/-- The pattern finds a match in the text. A pattern without a meaning finds none. -/
def patternAccepts (pattern text : String) : Bool := (Patterns.meaning? pattern).any (· text)

/-- A bound is absent, or readable and satisfied. -/
def meetsBound {α : Type} (read : String → Option α) (ok : α → Bool) (bound : Option String) :
    Bool :=
  bound.all fun b => (read b).any ok

/-- The text is a number within the bounds. -/
def Bounds.accepts (b : Bounds) (text : String) : Bool :=
  (Decimal.number? text).any fun x =>
    meetsBound Decimal.number? (x ≥ ·) b.minInclusive
      && meetsBound Decimal.number? (x ≤ ·) b.maxInclusive
      && meetsBound Decimal.number? (x > ·) b.minExclusive
      && meetsBound Decimal.number? (x < ·) b.maxExclusive

/-- Reads a length. -/
def lengthBound? (s : String) : Option Nat := Text.word? (Text.trim s.toList)

/-- The number of characters of the text is within the bounds. -/
def LengthBounds.accepts (l : LengthBounds) (text : String) : Bool :=
  meetsBound lengthBound? (text.length == ·) l.length
    && meetsBound lengthBound? (decide <| text.length ≥ ·) l.minLength
    && meetsBound lengthBound? (decide <| text.length ≤ ·) l.maxLength

namespace Value

/-- The word for the kind of restriction. -/
def kind : Value → String
  | simple _ => "simple"
  | pattern _ => "pattern"
  | enumeration _ => "enumeration"
  | bounds _ => "bounds"
  | length _ => "length"

/-- The literal, if the restriction is one. -/
def literal? : Value → Option String
  | simple s => some s
  | _ => none

/-- The restriction names nothing. -/
def isEmpty : Value → Bool
  | simple s => Text.isBlankString s
  | pattern r => r.isEmpty
  | enumeration os => os.all Text.isBlankString
  | bounds b =>
    b.minInclusive.isNone && b.maxInclusive.isNone && b.minExclusive.isNone && b.maxExclusive.isNone
  | length l => l.minLength.isNone && l.maxLength.isNone && l.length.isNone

/-- The restriction accepts the text. -/
def accepts (v : Value) (text : String) : Bool :=
  match v with
  | simple s => s = text
  | pattern r => patternAccepts r text
  | enumeration os => os.contains text
  | bounds b => b.accepts text
  | length l => l.accepts text

/-- The restriction accepts the text, where literals do not regard the case of ASCII letters. -/
def acceptsIgnoringCase (v : Value) (text : String) : Bool :=
  match v with
  | simple s => Text.equalIgnoringCase s text
  | enumeration os => os.any (Text.equalIgnoringCase · text)
  | v => v.accepts text

/-- A literal in quotes. -/
def quoted (s : String) : String := "\"" ++ s ++ "\""

/-- The bounds that are present, each behind its sign, joined by "and". -/
def describeBounds (bs : List (String × Option String)) : String :=
  " and ".intercalate (bs.filterMap fun b => b.2.map (b.1 ++ " " ++ ·))

/-- The restriction in words. -/
def describe : Value → String
  | simple s => quoted s
  | pattern r => "pattern /" ++ r ++ "/"
  | enumeration os => "one of [" ++ ", ".intercalate (os.map quoted) ++ "]"
  | bounds b => "value " ++ describeBounds [(">=", b.minInclusive), (">", b.minExclusive),
      ("<=", b.maxInclusive), ("<", b.maxExclusive)]
  | length l => "length " ++ describeBounds [("==", l.length), (">=", l.minLength),
      ("<=", l.maxLength)]

end Value

end BimAudit.Ids
