import BimAudit.Ifc.Store

/-!
# Scanning lines

A record starts on a line of its own and may run over several lines up to one that ends with a
semicolon. The blanks around each line do not count. A line that starts a record while another one
is open drops the open one. Lines outside of records may name the schema; the first name counts.
-/

namespace BimAudit.Ifc

open Step (Record)

/-- What has been scanned so far. -/
structure Scan where
  /-- The text of a record that has not ended yet. -/
  pending : Option (List Char) := none
  schema : String := ""
  store : Store := {}

namespace Scan

/-- Adds the record that a text holds; a text that is no record is skipped. -/
def push (s : Scan) (text : List Char) : Scan :=
  match Record.read? text with
  | some r => { s with store := s.store.push r }
  | none => s

/-- The text ends with the given character. -/
def endsWith (c : Char) (text : List Char) : Bool := text.getLast? = some c

/-- Scans a line while no record is open. -/
def start (s : Scan) (line : List Char) : Scan :=
  if Step.startsRecord line then
    if endsWith ';' line || endsWith ')' line then s.push line
    else { s with pending := some line }
  else if s.schema = "" then
    match Step.schemaName? line with
    | some name => { s with schema := name }
    | none => s
  else s

/-- Scans one line. -/
def line (s : Scan) (l : List Char) : Scan :=
  let l := Text.trim l
  match s.pending with
  | none => s.start l
  | some text =>
    -- the open record never ended
    if Step.startsRecord l then { s with pending := none }.start l
    else if endsWith ';' l then { s with pending := none }.push (text ++ l)
    else { s with pending := some (text ++ l) }

/-- Scans several lines. -/
def lines (s : Scan) (ls : List (List Char)) : Scan := ls.foldl line s

/-- The end of the text: a record that is still open is dropped. -/
def finish (s : Scan) : Scan := { s with pending := none }

end Scan

end BimAudit.Ifc
