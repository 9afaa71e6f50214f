import TableLint.CommandLine.Arguments
import TableLint.Report.Json
import TableLint.Rule.Check
import TableLint.Source.Lines

/-!
What the tool writes: reports in the four formats, the list of rules, and the texts of the other
commands.
-/
namespace TableLint.CommandLine

open Text Report

def line (s : List Char) : List Char := s ++ ['\n']

def versionText : List Char := line "dj-lint 0.2.0".toList

/-- Switches a terminal colour on. -/
def colour (code : String) : List Char := '\x1b' :: '[' :: code.toList ++ ['m']

def plainColour : List Char := colour "0"

def severityWord (s : Severity) : List Char :=
  let code := match s with
    | .error => "31"
    | .warning => "33"
    | .info => "34"
  colour code ++ s.word ++ plainColour

def summary (r : Report) : List Char :=
  let code :=
    if r.count .error > 0 then "31" else if r.count .warning > 0 then "33" else "32"
  line (colour code ++ "Found ".toList ++ decimal (r.count .error) ++ " error(s), ".toList ++
    decimal (r.count .warning) ++ " warning(s), ".toList ++ decimal (r.count .info) ++
    " info(s) in ".toList ++ decimal r.filesChecked ++ " file(s)".toList ++ plainColour)

def helpLine (v : Violation) : List Char :=
  match v.suggestion with
  | some help => line ("  = help: ".toList ++ help)
  | none => []

def violationText (v : Violation) : List Char :=
  line (v.code ++ [' '] ++ v.rule ++ " at ".toList ++ v.placeText) ++
    line ("  ".toList ++ severityWord v.severity ++ ": ".toList ++ v.message) ++
    helpLine v ++ ['\n']

/-- A violation with the line of the source that it stands on. -/
def violationDrawing (source : Option (List Char)) (v : Violation) : List Char :=
  line ("  × ".toList ++ v.headline) ++
    line ("   ╭─[".toList ++ v.placeText ++ [']']) ++
    (match source.bind (Source.lineText? · v.location.line) with
      | some text =>
        line ("   │ ".toList ++ text) ++
          line ("   · ".toList ++ List.replicate (v.location.column - 1) ' ' ++
            List.replicate (max 1 v.location.length) '─' ++ [' '] ++ v.rule)
      | none => []) ++
    line "   ╰────".toList ++ helpLine v

/-- The report in a format. `source?` gives the text of a file of the report. -/
def reportText (format : Format) (source? : List Char → Option (List Char)) (r : Report) :
    List Char :=
  match format with
  | .text => r.violations.flatMap violationText ++ summary r
  | .json => line r.json
  | .compact => r.violations.flatMap fun v => line v.lineText
  | .pretty =>
    r.violations.flatMap (fun v => violationDrawing (source? v.location.file) v) ++ summary r

def padTo (width : Nat) (s : List Char) : List Char := s ++ List.replicate (width - s.length) ' '

def ruleRow (code name severity help : List Char) : List Char :=
  line (padTo 8 code ++ [' '] ++ padTo 20 name ++ [' '] ++ padTo 9 severity ++ [' '] ++ help)

def rulesText : List Char :=
  line "Available messages:\n".toList ++
    ruleRow "Code".toList "Name".toList "Severity".toList "Description".toList ++
    line (List.replicate 80 '-') ++
    (Rule.checks.flatMap (·.rules)).flatMap (fun r =>
      ruleRow r.message.code r.message.name r.message.severity.word r.message.help) ++
    line "\nUse --rules to report only some messages, e.g.:".toList ++
    line "  dj-lint check --rules no-pk,bad-opt".toList ++
    line "  dj-lint check --rules DJ001,DJ003".toList ++
    line "\nSuppress a single finding with a comment on or above the class line:".toList ++
    line "  # dj-lint: allow(no-pk) reason=\"view-only table\"".toList ++
    line "  # pylint: disable=no-pk".toList

def defaultSettings : List Char :=
  ("# dj-lint configuration\n\n" ++
    "[analyzer]\n" ++
    "# Root directory to analyze (default: current directory)\n" ++
    "# root = \"./pipeline\"\n\n" ++
    "# Glob patterns to exclude from analysis\n" ++
    "exclude = [\n" ++
    "    \"**/.venv/**\",\n" ++
    "    \"**/venv/**\",\n" ++
    "    \"**/__pycache__/**\",\n" ++
    "]\n\n" ++
    "# Respect .gitignore files\n" ++
    "respect_gitignore = true\n\n" ++
    "# Abort when a Python file does not parse (default: skip it with a warning)\n" ++
    "# fail_on_parse_error = false\n\n" ++
    "[datajoint]\n" ++
    "# Accept filepath@store attributes (same as --permit-dj-filepath)\n" ++
    "permit_filepath = false\n\n" ++
    "# Module names under which dj.Manual style bases are recognized\n" ++
    "module_aliases = [\"dj\", \"datajoint\"]\n\n" ++
    "# Bare base class names that also declare tables\n" ++
    "extension_bases = [\"_Merge\"]\n\n" ++
    "# \"after-options\" or \"per-option\"\n" ++
    "# null_pk_ref = \"after-options\"\n\n" ++
    "# Message configurations\n" ++
    "# Each message can be enabled/disabled and have its severity overridden\n\n" ++
    "# [rules.mult-fk-ref]\n" ++
    "# severity = \"error\"\n\n" ++
    "# [rules.dj-wildcard-import]\n" ++
    "# enabled = false\n").toList

def initText : List Char :=
  line "Created dj-lint.toml".toList ++ line "\nNext steps:".toList ++
    line "  1. Edit dj-lint.toml to configure messages".toList ++
    line "  2. Run: dj-lint check".toList

def helpText : List Char :=
  line "Command line interface for the dj-lint DataJoint schema linter\n".toList ++
    line "Usage: dj-lint [OPTIONS] <COMMAND>\n".toList ++
    line "Commands:".toList ++
    line "  check       Check Python schema modules".toList ++
    line "  list-rules  List available messages".toList ++
    line "  init        Initialize configuration file".toList ++
    line "  help        Print this message or the help of the given subcommand(s)\n".toList ++
    line "Options:".toList ++
    line "  -v, --verbose          Enable verbose output".toList ++
    line "  -c, --config <CONFIG>  Path to configuration file".toList ++
    line "  -h, --help             Print help".toList ++
    line "  -V, --version          Print version".toList

end TableLint.CommandLine
