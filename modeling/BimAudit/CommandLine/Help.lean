import BimAudit.CommandLine.Arguments

/-!
# Help

The text that explains the command line, with the options in a column and what they are for in
another.
-/

namespace BimAudit.CommandLine

/-- The name of the program. -/
def programName : String := "ids-inspector"

/-- The line with the version of the program. -/
def versionText : String := programName ++ " 1.0.0\n"

/-- The options with what they are for. -/
def optionRows : List (String × String) :=
  Setting.all.map (fun s => ("      --" ++ s.name ++ " <" ++ s.valueName ++ ">", s.about))
    ++ [("  -h, --help", "Print help"), ("  -V, --version", "Print version")]

/-- Two columns of text, the first one as wide as its longest entry. -/
def columns (rows : List (String × String)) : String :=
  let width := (rows.map (·.1.length)).max?.getD 0
  String.join (rows.map fun r =>
    r.1 ++ String.ofList (List.replicate (width + 2 - r.1.length) ' ') ++ r.2 ++ "\n")

/-- The help. -/
def helpText : String :=
  "IDS Inspector - validate IFC models against IDS requirements\n\n"
    ++ "Usage: " ++ programName ++ " [OPTIONS] [FILES]...\n\n"
    ++ "Arguments:\n" ++ columns [("  [FILES]...", "IFC files to validate")] ++ "\n"
    ++ "Options:\n" ++ columns optionRows

end BimAudit.CommandLine
