/-!
# ASCII letters and digits

Classes and case mapping of ASCII characters. Characters beyond ASCII are in no class and are
their own upper and lower case.
-/

namespace BimAudit.Text

/-- An ASCII digit. -/
def isDigit (c : Char) : Bool := '0' ≤ c && c ≤ '9'

/-- An ASCII letter, digit or underscore. -/
def isWordChar (c : Char) : Bool := c.isAlphanum || c = '_'

/-- The string in upper case, ASCII letters only. -/
def upper (s : String) : String := String.ofList (s.toList.map Char.toUpper)

/-- The string in lower case, ASCII letters only. -/
def lower (s : String) : String := String.ofList (s.toList.map Char.toLower)

/-- The strings are equal up to the case of ASCII letters. -/
def equalIgnoringCase (s t : String) : Bool := s.toList.map Char.toLower = t.toList.map Char.toLower

/-- The string begins with the given characters. -/
def startsWith (p s : String) : Bool := p.toList.isPrefixOf s.toList

/-- The string ends with the given characters. -/
def endsWith (p s : String) : Bool := p.toList.isSuffixOf s.toList

/-- The characters `p` occur in one piece. -/
def occurs (p : List Char) : List Char → Bool
  | [] => p.isEmpty
  | c :: r => p.isPrefixOf (c :: r) || occurs p r

/-- The number of characters before the first place where the characters `p` occur. -/
def position? (p : List Char) : List Char → Option Nat
  | [] => if p.isEmpty then some 0 else none
  | c :: r => if p.isPrefixOf (c :: r) then some 0 else (position? p r).map (· + 1)

/-- The string holds the given characters in one piece. -/
def contains (p s : String) : Bool := occurs p.toList s.toList

end BimAudit.Text
