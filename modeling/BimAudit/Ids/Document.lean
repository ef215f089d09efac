import BimAudit.Ids.Facet

/-!
# Documents

A document is a list of specifications with some information about itself. A specification says
which entities of a model it applies to, and what these have to satisfy.
-/

namespace BimAudit.Ids

/-- What a document says about itself. -/
structure Info where
  title : Option String := none
  copyright : Option String := none
  version : Option String := none
  description : Option String := none
  author : Option String := none
  date : Option String := none
  purpose : Option String := none
  milestone : Option String := none
deriving DecidableEq, Repr

namespace Info

/-- The fields with their names, in the order of the schema. -/
def fields (i : Info) : List (String × Option String) :=
  [("title", i.title), ("copyright", i.copyright), ("version", i.version),
    ("description", i.description), ("author", i.author), ("date", i.date),
    ("purpose", i.purpose), ("milestone", i.milestone)]

/-- The field names. -/
def names : List String := (fields {}).map (·.1)

/-- Gives a field a value. Other names are ignored. -/
def set (i : Info) (name value : String) : Info :=
  match name with
  | "title" => { i with title := some value }
  | "copyright" => { i with copyright := some value }
  | "version" => { i with version := some value }
  | "description" => { i with description := some value }
  | "author" => { i with author := some value }
  | "date" => { i with date := some value }
  | "purpose" => { i with purpose := some value }
  | "milestone" => { i with milestone := some value }
  | _ => i

end Info

/-- Which entities a specification is about, and what it requires of them. -/
structure Specification where
  name : String
  ifcVersion : String
  identifier : Option String := none
  description : Option String := none
  instructions : Option String := none
  /-- The specification applies to the entities that satisfy all of these. -/
  applicability : List Facet := []
  requirements : List Facet := []
deriving DecidableEq, Repr

/-- A list of specifications. -/
structure Document where
  info : Info := {}
  specifications : List Specification := []
deriving DecidableEq, Repr

end BimAudit.Ids
