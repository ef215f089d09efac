import BimAudit.Step.Record
import Std.Data.HashMap

/-!
# Record stores

The records of a model in the order of the file, with the position of each id. If an id is given
twice, the last record bears it.
-/

namespace BimAudit.Ifc

open Step (Record)

/-- Records in order of arrival, and where to find each id. -/
structure Store where
  records : Array Record := #[]
  /-- The position of the last record with an id. -/
  index : Std.HashMap Nat Nat := ∅

namespace Store

/-- The number of records. -/
def size (st : Store) : Nat := st.records.size

/-- Adds a record at the end. -/
def push (st : Store) (r : Record) : Store :=
  ⟨st.records.push r, st.index.insert r.id st.records.size⟩

/-- The record with an id. -/
def find? (st : Store) (id : Nat) : Option Record := (st.index[id]?).bind (st.records[·]?)

/-- The records from one position up to another. -/
def slice (st : Store) (first last : Nat) : List Record := (st.records.extract first last).toList

end Store

end BimAudit.Ifc
