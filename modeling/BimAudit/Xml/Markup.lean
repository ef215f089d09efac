import BimAudit.Xml.Element

/-!
# Writing XML

Markup is an element together with its layout: an element with text on one line, an element in a
single tag, or an element over several lines with its children indented by two blanks.

* `Markup.print`: the text.
* `Markup.element`: the element that the text stands for.
-/

namespace BimAudit.Xml

/-- An element with its layout. -/
inductive Markup where
  /-- An element with text and no attributes, on one line. -/
  | text (name content : String)
  /-- An element without content, in a single tag. -/
  | single (name : String) (attributes : List (String × String))
  /-- An element with a line for each tag. -/
  | block (name : String) (attributes : List (String × String)) (children : List Markup)

namespace Markup

/-- An attribute with a blank in front. -/
def attributeText (a : String × String) : String :=
  " " ++ a.1 ++ "=\"" ++ String.ofList (escape a.2.toList) ++ "\""

/-- The inside of an opening tag. -/
def tag (name : String) (attributes : List (String × String)) : String :=
  name ++ String.join (attributes.map attributeText)

/-- A new line with the blanks in front of a level. -/
def newline (depth : Nat) : String := "\n" ++ String.ofList (List.replicate (2 * depth) ' ')

mutual

/-- The text of an element at a level. -/
def print (depth : Nat) : Markup → String
  | text name content =>
    newline depth ++ "<" ++ name ++ ">" ++ String.ofList (escape content.toList)
      ++ "</" ++ name ++ ">"
  | single name attributes => newline depth ++ "<" ++ tag name attributes ++ "/>"
  | block name attributes children =>
    newline depth ++ "<" ++ tag name attributes ++ ">" ++ printAll (depth + 1) children
      ++ newline depth ++ "</" ++ name ++ ">"

/-- The texts of some elements at a level. -/
def printAll (depth : Nat) : List Markup → String
  | [] => ""
  | m :: ms => m.print depth ++ printAll depth ms

end

/-- A text as it is read, without the white space at its ends. -/
def readText (s : String) : String :=
  String.ofList ((s.toList.dropWhile Text.isSpace).reverse.dropWhile Text.isSpace).reverse

/-- A name without what stands before its first colon. -/
def readName (name : String) : String := String.ofList (localName name.toList)

mutual

/-- The element that the text of the markup stands for. -/
def element : Markup → Element
  | text name content => { name := readName name, text := readText content }
  | single name attributes =>
    { name := readName name, attributes := attributes.map fun a => (readName a.1, a.2) }
  | block name attributes children =>
    { name := readName name
      attributes := attributes.map fun a => (readName a.1, a.2)
      children := elements children }

/-- The elements that the texts of some markup stand for. -/
def elements : List Markup → List Element
  | [] => []
  | m :: ms => m.element :: elements ms

end

/-- The text of a document with a declaration in front. -/
def document (m : Markup) : String := "<?xml version=\"1.0\" encoding=\"UTF-8\"?>" ++ m.print 0

end Markup

end BimAudit.Xml
