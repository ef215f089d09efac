import BimAudit.Ifc.Assembly
import BimAudit.Text.Lines
import BimAudit.Text.Numeral

/-!
# Reading a model step by step

A reader works off a text in chunks: first the lines are scanned into records, then the records are
resolved into links, then they are assembled into entities. One step handles at most one chunk of
one phase. It counts lines and records in words of 64 bits and fails if a sum does not fit, which
never happens before the model is handed out.

* `Reader.step`, `Reader.steps`: one step, and any number of them.
* `Reader.advance`: what a step comes to whose sum fits.
* `Reader.run`: all steps up to the model. `Reader.runObserved` shows the progress of each of them
  to an observer, who may stop the reader.
-/

namespace BimAudit.Ifc

/-- A building model. -/
structure Model where
  fileName : String
  schema : String
  entities : List Entity

/-- The phases of reading. -/
inductive Phase where
  /-- Lines are read into records. -/
  | scan
  /-- Records are resolved into links. -/
  | resolve
  /-- Records are assembled into entities. -/
  | assemble
deriving DecidableEq, Repr

/-- How far a phase has come, in lines or records. -/
structure Progress where
  phase : Phase
  processed : Nat
  total : Nat
deriving DecidableEq, Repr

/-- What a step leaves behind. -/
inductive Status where
  | pending (progress : Progress)
  | done (model : Model)

/-- A model that is being read. -/
structure Reader where
  fileName : String
  /-- The number of lines or records in a chunk. -/
  chunkSize : Nat
  chunkSize_pos : 0 < chunkSize
  /-- The lines that have not been scanned. -/
  lines : List (List Char)
  lineCount : Nat
  linesRead : Nat := 0
  scan : Scan := {}
  phase : Phase := .scan
  /-- The number of records that the current phase has dealt with. -/
  cursor : Nat := 0
  links : Links := {}
  entities : List Entity := []

namespace Reader

/-- The chunk size used where none is asked for. -/
def defaultChunkSize : Nat := 1000

/-- Starts reading a text. A chunk size of zero counts as one. -/
def ofText (chunkSize : Nat) (fileName : String) (text : List Char) : Reader where
  fileName
  chunkSize := max chunkSize 1
  chunkSize_pos := by omega
  lines := Text.lines text
  lineCount := (Text.lines text).length

/-- The records found so far. -/
def store (r : Reader) : Store := r.scan.store

/-- Where the next chunk of records ends. -/
def chunkEnd (r : Reader) : Nat := min (r.cursor + r.chunkSize) r.store.size

/-- The records from the cursor to another place. -/
def chunk (stop : Nat) (r : Reader) : List Step.Record := r.store.slice r.cursor stop

/-- Scans the next chunk of lines, given the number of lines that are read then. If the lines run
out within the chunk, scanning is over. -/
def scanChunk (linesRead : Nat) (r : Reader) : Status × Reader :=
  let scan := r.scan.lines (r.lines.take r.chunkSize)
  if r.lines.length < r.chunkSize then
    (.pending ⟨.scan, r.lineCount, r.lineCount⟩,
      { r with scan := scan.finish, lines := [], linesRead, phase := .resolve, cursor := 0 })
  else
    (.pending ⟨.scan, linesRead, r.lineCount⟩,
      { r with scan, lines := r.lines.drop r.chunkSize, linesRead })

/-- Resolves the records up to a place. -/
def resolveChunk (stop : Nat) (r : Reader) : Status × Reader :=
  let links := (r.chunk stop).foldl (Links.resolve r.store) r.links
  (.pending ⟨.resolve, stop, r.store.size⟩,
    if stop < r.store.size then { r with links, cursor := stop }
    else { r with links, phase := .assemble, cursor := 0 })

/-- Assembles the records up to a place. When none is left, the model is handed out and the reader
keeps nothing but the file name; the cursor stays where it is. -/
def assembleChunk (stop : Nat) (r : Reader) : Status × Reader :=
  let entities := r.entities ++ (r.chunk stop).filterMap (entity? r.fileName r.store r.links)
  if stop < r.store.size then
    (.pending ⟨.assemble, stop, r.store.size⟩, { r with entities, cursor := stop })
  else
    (.done ⟨r.fileName, r.scan.schema, entities⟩,
      { r with
        scan := { r.scan with schema := "", store := {} }
        links := {}
        entities := []
        cursor := stop })

/-- The sum that a step begins with: the number of lines that are read then, or the place a chunk
behind the cursor, which may lie behind the records. -/
def reach (r : Reader) : Nat :=
  match r.phase with
  | .scan => r.linesRead + min r.chunkSize r.lines.length
  | .resolve | .assemble => r.cursor + r.chunkSize

/-- Takes one step, given how far it reaches. -/
def stepTo (reach : Nat) (r : Reader) : Status × Reader :=
  match r.phase with
  | .scan => r.scanChunk reach
  | .resolve => r.resolveChunk (min reach r.store.size)
  | .assemble => r.assembleChunk (min reach r.store.size)

/-- Takes one step. How far it reaches is a word of 64 bits; the step fails if the sum does not fit,
also if no record is left that far. -/
def step (r : Reader) : Option (Status × Reader) :=
  if r.reach < Text.wordLimit then some (r.stepTo r.reach) else none

/-- Takes some steps, also behind the one that hands out the model: their statuses, and the reader
behind them. None if one of the steps fails. -/
def steps : Nat → Reader → Option (List Status × Reader)
  | 0, r => some ([], r)
  | n + 1, r => do
    let (status, r) ← r.step
    let (statuses, r) ← steps n r
    return (status :: statuses, r)

/-- A step whose sum fits. Before the model is handed out all sums do, so those who stop there need
not look. -/
def advance (r : Reader) : Status × Reader := r.stepTo r.reach

/-! ### Every reader comes to an end -/

/-- The phases that lie ahead, the current one included. -/
def phasesLeft (r : Reader) : Nat :=
  match r.phase with
  | .scan => 2
  | .resolve => 1
  | .assemble => 0

/-- The lines or records that the current phase has still to deal with. -/
def workLeft (r : Reader) : Nat :=
  match r.phase with
  | .scan => r.lines.length
  | .resolve | .assemble => r.store.size - r.cursor

theorem advance_of_scan {r : Reader} (h : r.phase = .scan) :
    r.advance = r.scanChunk (r.linesRead + min r.chunkSize r.lines.length) := by
  simp only [advance, stepTo, reach, h]

theorem advance_of_resolve {r : Reader} (h : r.phase = .resolve) :
    r.advance = r.resolveChunk r.chunkEnd := by
  simp only [advance, stepTo, reach, chunkEnd, h]

theorem advance_of_assemble {r : Reader} (h : r.phase = .assemble) :
    r.advance = r.assembleChunk r.chunkEnd := by
  simp only [advance, stepTo, reach, chunkEnd, h]

/-- A step that only makes progress leaves fewer phases, or less work in the one that it is in. -/
theorem advance_pending_decreases {r r' : Reader} {p : Progress}
    (h : r.advance = (.pending p, r')) :
    Prod.Lex (· < ·) (· < ·) (r'.phasesLeft, r'.workLeft) (r.phasesLeft, r.workLeft) := by
  have hc := r.chunkSize_pos
  cases hp : r.phase with
  | scan =>
    rw [advance_of_scan hp] at h
    unfold scanChunk at h
    split at h
    · cases h
      -- the lines run out: the next phase begins
      refine Prod.Lex.left _ _ ?_
      simp [phasesLeft, hp]
    · next hlen =>
      cases h
      simp only [phasesLeft, workLeft, hp, List.length_drop]
      exact Prod.Lex.right _ (by omega)
  | resolve =>
    rw [advance_of_resolve hp] at h
    unfold resolveChunk at h
    split at h
    · next hlt =>
      cases h
      simp only [phasesLeft, workLeft, hp, store] at *
      refine Prod.Lex.right _ ?_
      simp only [chunkEnd, store] at *; omega
    · cases h
      refine Prod.Lex.left _ _ ?_
      simp [phasesLeft, hp]
  | assemble =>
    rw [advance_of_assemble hp] at h
    unfold assembleChunk at h
    split at h
    · next hlt =>
      cases h
      simp only [phasesLeft, workLeft, hp, store] at *
      refine Prod.Lex.right _ ?_
      simp only [chunkEnd, store] at *; omega
    · cases h

/-- Steps until the model is complete, showing each progress to an observer with a state. The
observer stops the reader by answering `true`; the result is then `none`. -/
def runObserved {σ : Type} (observe : σ → Progress → σ × Bool) (s : σ) (r : Reader) :
    σ × Option Model :=
  match _h : r.advance with
  | (.done m, _) => (s, some m)
  | (.pending p, r') =>
    match observe s p with
    | (s, true) => (s, none)
    | (s, false) => r'.runObserved observe s
termination_by (r.phasesLeft, r.workLeft)
decreasing_by exact advance_pending_decreases _h

/-- Steps until the model is complete. -/
def run (r : Reader) : Model :=
  match _h : r.advance with
  | (.done m, _) => m
  | (.pending _, r') => r'.run
termination_by (r.phasesLeft, r.workLeft)
decreasing_by exact advance_pending_decreases _h

/-- The statuses of the first steps, also of steps behind the last one, if all sums fit. -/
def statuses : Nat → Reader → List Status
  | 0, _ => []
  | n + 1, r => r.advance.1 :: statuses n r.advance.2

end Reader

/-- Reads a text in chunks and shows each progress to an observer, who may stop the reading. -/
def readObserved {σ : Type} (observe : σ → Progress → σ × Bool) (s : σ) (chunkSize : Nat)
    (fileName : String) (text : List Char) : σ × Option Model :=
  (Reader.ofText chunkSize fileName text).runObserved observe s

/-- The model that a text holds. Reading never fails: what is no record is skipped. -/
def read (chunkSize : Nat) (fileName : String) (text : List Char) : Model :=
  (Reader.ofText chunkSize fileName text).run

end BimAudit.Ifc
