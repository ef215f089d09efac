import BimAudit.Ifc.Reader
import BimAudit.Json.Reader

/-!
# Configurations

A configuration tunes an audit. In JSON every field may be left out and keeps its default then.
-/

namespace BimAudit.Session

/-- The settings of an audit. -/
structure Config where
  /-- Files of this size and above are worked off one at a time. -/
  largeFileBytes : Nat := 50 * 1024 * 1024
  /-- Models with more entities than this hand their specifications to the workers. -/
  workerEntityThreshold : Nat := 1000
  /-- The number of lines or records in a reading step. -/
  chunkLines : Nat := Ifc.Reader.defaultChunkSize
  /-- The number of workers: as many as there are processor cores if it is not given, and no workers
  at all if it is zero. -/
  workerThreads : Option Nat := none
  /-- Requirements on classifications, materials and wholes are inspected. -/
  strict : Bool := false
deriving DecidableEq, Repr

namespace Config

/-- The names of the fields in JSON. -/
def names : List String :=
  ["large_file_threshold_bytes", "worker_entity_threshold", "parse_chunk_lines", "worker_threads",
    "strict_structural_requirements"]

/-- Reads a field that may be left out. -/
def field? {α : Type} (default : α) (read : Json → Option α) : Option Json → Option α
  | none => some default
  | some j => read j

/-- Reads a configuration. -/
def ofJson? (j : Json) : Option Config := do
  let [bytes, threshold, lines, threads, strict] ← j.fields? names | none
  let d : Config := {}
  return ⟨← field? d.largeFileBytes Json.nat? bytes,
    ← field? d.workerEntityThreshold Json.nat? threshold,
    ← field? d.chunkLines Json.nat? lines,
    ← field? d.workerThreads (Json.nullable? Json.nat?) threads,
    ← field? d.strict Json.bool? strict⟩

/-- Reads a configuration from its text. What is behind other names needs to have no value. -/
def parse? (s : String) : Option Config := (Json.read? s).bind ofJson?

end Config

end BimAudit.Session
