import BimAudit.Text.Ascii
import BimAudit.Text.Numeral

/-!
# Arguments

The command line names the models to audit and, behind options, everything else. An option takes its
value from the next argument or from behind an equals sign. Behind two dashes that stand alone
everything is a model. Arguments are read from left to right, and the first one that asks for help
or cannot be used decides.

* `Arguments.parse`: what the arguments ask for.
-/

namespace BimAudit.CommandLine

/-- The options with a value. -/
inductive Setting where
  | ids
  | workbook
  | csv
  | xlsx
  | json
  | writeIds
  | config
  | largeFileMb
deriving DecidableEq, Repr

namespace Setting

/-- All options with a value, in the order of the help. -/
def all : List Setting := [ids, workbook, csv, xlsx, json, writeIds, config, largeFileMb]

/-- The name of the option. -/
def name : Setting → String
  | ids => "ids"
  | workbook => "workbook"
  | csv => "csv"
  | xlsx => "xlsx"
  | json => "json"
  | writeIds => "write-ids"
  | config => "config"
  | largeFileMb => "large-file-mb"

/-- What the value of the option is. -/
def valueName : Setting → String
  | ids => "IDS"
  | workbook => "XLSX|DIR|JSON"
  | csv => "DIR"
  | xlsx | json | writeIds | config => "FILE"
  | largeFileMb => "N"

/-- What the option is for. -/
def about : Setting → String
  | ids => "IDS XML documents to validate against"
  | workbook =>
    "Tabular IDS workbook (.xlsx/.ods spreadsheet, directory of CSV sheets or a JSON file)"
  | csv => "Export results as CSV sheets into this directory"
  | xlsx => "Export results as one XLSX workbook"
  | json => "Export results as JSON"
  | writeIds => "Write the loaded IDS (e.g. from a workbook) as IDS XML"
  | config => "Validator configuration (JSON)"
  | largeFileMb => "Size in MiB from which a model counts as large"

/-- The option may be given several times. -/
def isRepeatable (s : Setting) : Bool := s = ids

/-- The value can be read: a number where one is asked for, and else a path. -/
def accepts (s : Setting) (value : String) : Bool :=
  if s = largeFileMb then (Text.word? value.toList).isSome else !value.isEmpty

/-- The option with a name. -/
def ofName? (name : String) : Option Setting := all.find? (·.name = name)

end Setting

/-- What the arguments ask for. -/
structure Arguments where
  /-- The paths of the models. -/
  files : List String := []
  /-- The values of the options, in the order in which they are given. -/
  values : List (Setting × String) := []
deriving DecidableEq, Repr

/-- Why arguments cannot be used. -/
inductive Misuse where
  | unknownOption (argument : String)
  | missingValue (s : Setting)
  | unusableValue (s : Setting) (value : String)
  | repeated (s : Setting)
  /-- An option without a value is given one. -/
  | needlessValue (argument : String)
  /-- The path of a model is empty. -/
  | emptyPath
deriving DecidableEq, Repr

/-- What is done instead of an audit. -/
inductive Detour where
  | help
  | version
  | misuse (m : Misuse)
deriving DecidableEq, Repr

/-- The use of the arguments in words. -/
def Misuse.message : Misuse → String
  | unknownOption a => "unexpected argument '" ++ a ++ "' found"
  | missingValue s => "a value is required for '--" ++ s.name ++ " <" ++ s.valueName
      ++ ">' but none was supplied"
  | unusableValue s v =>
    "invalid value '" ++ v ++ "' for '--" ++ s.name ++ " <" ++ s.valueName ++ ">'"
  | repeated s => "the argument '--" ++ s.name ++ " <" ++ s.valueName
      ++ ">' cannot be used multiple times"
  | needlessValue a => "unexpected value in '" ++ a ++ "' found"
  | emptyPath => "a value is required for '[FILES]...' but none was supplied"

namespace Arguments

/-- The value of an option. -/
def value? (a : Arguments) (s : Setting) : Option String := (a.values.find? (·.1 = s)).map (·.2)

/-- All values of an option. -/
def all (a : Arguments) (s : Setting) : List String := (a.values.filter (·.1 = s)).map (·.2)

/-- Adds the path of a model. -/
def addFile (a : Arguments) (path : String) : Except Detour Arguments :=
  if path.isEmpty then .error (.misuse .emptyPath) else .ok { a with files := a.files ++ [path] }

/-- Adds the value of an option. -/
def addValue (a : Arguments) (s : Setting) (value : String) : Except Detour Arguments :=
  if !s.isRepeatable && (a.value? s).isSome then .error (.misuse (.repeated s))
  else if !s.accepts value then .error (.misuse (.unusableValue s value))
  else .ok { a with values := a.values ++ [(s, value)] }

/-- The argument begins like an option. -/
def isOption (argument : String) : Bool := Text.startsWith "-" argument && argument ≠ "-"

/-- An option with two dashes, without them: its name, and its value behind an equals sign. -/
def splitOption (s : List Char) : String × Option String :=
  (String.ofList (s.takeWhile (· ≠ '=')),
    match s.dropWhile (· ≠ '=') with
    | _ :: value => some (String.ofList value)
    | [] => none)

/-- What an option without a value asks for. -/
def plainOption (argument : String) (detour : Detour) (value : Option String) : Detour :=
  if value.isSome then .misuse (.needlessValue argument) else detour

/-- What an option with one dash asks for. -/
def shortOption (argument : String) : Detour :=
  match argument.toList with
  | _ :: 'h' :: _ => .help
  | _ :: 'V' :: _ => .version
  | _ => .misuse (.unknownOption argument)

/-- Reads the arguments behind those that were read before. -/
def parseFrom (a : Arguments) : List String → Except Detour Arguments
  | [] => .ok a
  | argument :: rest =>
    if argument = "--" then rest.foldlM addFile a
    else if Text.startsWith "--" argument then
      let (name, value) := splitOption (argument.toList.drop 2)
      if name = "help" then .error (plainOption argument .help value)
      else if name = "version" then .error (plainOption argument .version value)
      else match Setting.ofName? name, value, rest with
        | none, _, _ => .error (.misuse (.unknownOption argument))
        | some s, some value, rest => do parseFrom (← a.addValue s value) rest
        | some s, none, value :: rest =>
          if isOption value then .error (.misuse (.missingValue s))
          else do parseFrom (← a.addValue s value) rest
        | some s, none, [] => .error (.misuse (.missingValue s))
    else if isOption argument then .error (shortOption argument)
    else do parseFrom (← a.addFile argument) rest

/-- Reads the arguments. -/
def parse (arguments : List String) : Except Detour Arguments := parseFrom {} arguments

/-- The results are to be saved, or the document. -/
def saves (a : Arguments) : Bool :=
  [Setting.csv, .xlsx, .json, .writeIds].any fun s => (a.value? s).isSome

end Arguments

end BimAudit.CommandLine
