import BimAudit.Ids.Document
import BimAudit.Session.Config

/-!
# Sources and strategies

A session audits models against documents. How it goes about it depends on the number and the sizes
of the models.
-/

namespace BimAudit.Session

/-- The text of a model. -/
structure ModelSource where
  name : String
  content : String

/-- A document with the name under which it is reported. -/
structure RuleSource where
  name : String
  document : Ids.Document

/-- The size of the text in bytes. -/
def ModelSource.size (m : ModelSource) : Nat := m.content.utf8ByteSize

/-- How a session works off its models. -/
inductive Strategy where
  /-- One small model. -/
  | single
  /-- Several small models at the same time. -/
  | parallelSmallFiles
  /-- One model after the other, since some are large. -/
  | sequentialLarge
deriving DecidableEq, Repr

namespace Strategy

/-- The word for the strategy. -/
def name : Strategy → String
  | single => "single"
  | parallelSmallFiles => "parallel_small_files"
  | sequentialLarge => "sequential_large"

/-- The strategy for models of the given sizes. -/
def ofSizes (largeFileBytes : Nat) (sizes : List Nat) : Strategy :=
  if sizes.any (largeFileBytes ≤ ·) then sequentialLarge
  else if sizes.length > 1 then parallelSmallFiles
  else single

end Strategy

end BimAudit.Session
