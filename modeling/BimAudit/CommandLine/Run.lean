import BimAudit.CommandLine.Help
import BimAudit.Export.Save
import BimAudit.Ids.Reader
import BimAudit.Ids.Writer
import BimAudit.Session.Validate
import BimAudit.Workbook.Load

/-!
# Running the program

The program reads its configuration, the documents and a workbook, writes the document if it is
asked to, reads the models, audits them, and saves the report. If nothing is to be saved the report
is handed over to be browsed.

* `run`: what the program does with its arguments.
-/

namespace BimAudit.CommandLine

open Files
open Session (Config ModelSource RuleSource)

/-- Why the program gives up. -/
inductive Failure where
  | unreadableFile (path : String)
  | badConfig (path : String)
  | badDocument (path : String) (fault : Ids.Fault)
  | badWorkbook (path : String) (fault : Workbook.Fault)
  | noDocument
  | severalDocuments (count : Nat)
  | noModel
  | unwritable (path : String)
  /-- A number leaves its word, and the program breaks down. -/
  | overflow
deriving DecidableEq, Repr

/-- The failure in words. -/
def Failure.message : Failure → String
  | unreadableFile path => "failed to read file '" ++ path ++ "'"
  | badConfig path => "invalid config '" ++ path ++ "'"
  | badDocument path fault => path ++ ": " ++ (fault.message?.getD "malformed IDS XML")
  | badWorkbook path fault => path ++ ": " ++ (fault.message?.getD "workbook read failed")
  | noDocument => "no IDS input: pass --ids or --workbook"
  | severalDocuments count => "--write-ids needs exactly one IDS input, got " ++ toString count
  | noModel => "no IFC files given"
  | unwritable path => "failed to write '" ++ path ++ "'"
  | overflow => "a number is too large"

/-- What the program says while it runs. -/
structure Transcript where
  /-- The lines of its output. -/
  output : List String := []
  /-- The warnings beside it. -/
  warnings : List String := []
deriving DecidableEq, Repr

/-- What is left to do when the program has run. -/
inductive Ending where
  | done
  | browse (r : Audit.Report)

/-- A step of the program, which may say something and may fail. -/
abbrev Job (m : Type → Type) : Type → Type := ExceptT Failure (StateT Transcript m)

/-- The number of bytes in so many mebibytes. It is a word of 64 bits; none if it does not fit. -/
def mebibytes? (n : Nat) : Option Nat :=
  if n * (1024 * 1024) < Text.wordLimit then some (n * (1024 * 1024)) else none

/-- The configuration with the settings of the command line, unless a size does not fit its word. -/
def adjust? (a : Arguments) (c : Config) : Option Config :=
  match (a.value? .largeFileMb).bind fun v => Text.word? v.toList with
  | some n => (mebibytes? n).map fun bytes => { c with largeFileBytes := bytes }
  | none => some c

variable {m : Type → Type} [Monad m] [FileSystem m]

/-- Says a line. -/
def say (line : String) : Job m Unit := modify fun t => { t with output := t.output ++ [line] }

/-- Warns. -/
def warn (line : String) : Job m Unit := modify fun t => { t with warnings := t.warnings ++ [line] }

/-- Reads a text. -/
def read (path : String) : Job m String := do
  match ← (readText? path : m _) with
  | some s => return s
  | none => throw (.unreadableFile path)

/-- Reads the configuration that the settings of the command line change. -/
def readBaseConfig (a : Arguments) : Job m Config := do
  match a.value? .config with
  | none => return {}
  | some path =>
    match Config.parse? (← read path) with
    | some c => return c
    | none => throw (.badConfig path)

/-- Reads the configuration. -/
def readConfig (a : Arguments) : Job m Config := do
  match adjust? a (← readBaseConfig a) with
  | some c => return c
  | none => throw .overflow

/-- Reads a document. -/
def readDocument (path : String) : Job m RuleSource := do
  match Ids.Document.ofXml (← read path) with
  | .ok d => return ⟨displayName path, d⟩
  | .error f => throw (.badDocument path f)

/-- Reads a workbook. -/
def readWorkbook (path : String) : Job m RuleSource := do
  match (← (Workbook.load path : m _)).bind Workbook.document with
  | .ok (d, warnings) =>
    for w in warnings do warn w.message
    return ⟨displayName path, d⟩
  | .error f => throw (.badWorkbook path f)

/-- Reads all documents. -/
def readRules (a : Arguments) : Job m (List RuleSource) := do
  let documents ← (a.all .ids).mapM readDocument
  let workbook ← (a.value? .workbook).toList.mapM readWorkbook
  if (documents ++ workbook).isEmpty then throw .noDocument
  return documents ++ workbook

/-- Writes the document. -/
def writeDocument (rules : List RuleSource) (path : String) : Job m Unit := do
  match rules with
  | [source] =>
    let xml := source.document.toXml
    unless ← (FileSystem.write path (.ofText xml) : m _) do throw (.unwritable path)
    say ("Written IDS: " ++ path)
  | _ => throw (.severalDocuments rules.length)

/-- Reads a model. -/
def readModel (path : String) : Job m ModelSource := do return ⟨displayName path, ← read path⟩

/-- Saves a report in one of its forms. -/
def save {α : Type} (path : String) (form : m (Except Export.Fault α)) : Job m α := do
  match ← (form : m _) with
  | .ok a => return a
  | .error (.unnamed _) => throw .overflow
  | .error _ => throw (.unwritable path)

/-- Saves a report in all forms that are asked for. -/
def saveReport (a : Arguments) (r : Audit.Report) : Job m Unit := do
  if let some path := a.value? .csv then
    let files ← save path (Export.saveCsv r path)
    say ("Exported " ++ toString files.length ++ " CSV sheets to: " ++ path)
  if let some path := a.value? .xlsx then
    save path (Export.saveSpreadsheet r path)
    say ("Exported to XLSX: " ++ path)
  if let some path := a.value? .json then
    save path (Export.saveJson r path)
    say ("Exported to JSON: " ++ path)

/-- The totals of a report in words. -/
def totals (s : Audit.Summary) : String :=
  toString s.total ++ " entities checked: " ++ toString s.passed ++ " passed, " ++ toString s.failed
    ++ " failed (" ++ Decimal.fixed 1 s.passRate ++ "%)"

/-- Audits the models. -/
def audit (a : Arguments) (config : Config) (rules : List RuleSource) : Job m Ending := do
  let models ← a.files.mapM readModel
  let (_, _, report) := ({ config } : Session).validate true (fun _ => false) models rules
  saveReport a report
  if a.saves then
    say (totals report.summary)
    return .done
  return .browse report

/-- Does what the arguments ask for. -/
def perform (a : Arguments) : Job m Ending := do
  let config ← readConfig a
  let rules ← readRules a
  if let some path := a.value? .writeIds then writeDocument rules path
  if a.files.isEmpty then
    if (a.value? .writeIds).isSome then return .done else throw .noModel
  audit a config rules

/-- How the program came to its end. -/
inductive Result where
  | detour (d : Detour)
  | failed (f : Failure)
  | ended (e : Ending)

namespace Result

/-- The exit code: two if the arguments cannot be used, 101 if the program breaks down, one for any
other failure, and else zero. -/
def exitCode : Result → Nat
  | detour (.misuse _) => 2
  | failed .overflow => 101
  | failed _ => 1
  | _ => 0

end Result

/-- Runs the program. -/
def run (arguments : List String) : m (Transcript × Result) := do
  match Arguments.parse arguments with
  | .error d => return ({}, .detour d)
  | .ok a =>
    match ← (perform a).run.run {} with
    | (.ok e, t) => return (t, .ended e)
    | (.error f, t) => return (t, .failed f)

/-- What a run prints. -/
def printed (t : Transcript) : Result → String
  | .detour .help => helpText
  | .detour .version => versionText
  | _ => String.join (t.output.map (· ++ "\n"))

end BimAudit.CommandLine
