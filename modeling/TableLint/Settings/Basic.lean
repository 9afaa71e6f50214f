import TableLint.Report.Message

/-!
Settings: which files are read, which rules count, and what a table class is.
-/
namespace TableLint

namespace Settings

/-- When a nullable reference in the primary key is reported. -/
inductive NullableMode where
  /-- Once, after all options have been looked at. -/
  | afterOptions
  /-- At each option. -/
  | perOption
deriving DecidableEq, Repr

structure Files where
  root : List Char := ['.']
  exclude : List (List Char) :=
    ["**/.venv/**".toList, "**/venv/**".toList, "**/__pycache__/**".toList]
  respectGitignore : Bool := true
  failOnParseError : Bool := false
deriving DecidableEq, Repr

structure RuleSetting where
  enabled : Option Bool := none
  severity : Option Report.Severity := none
deriving DecidableEq, Repr

structure Tables where
  permitFilepath : Bool := false
  moduleAliases : List (List Char) := ["dj".toList, "datajoint".toList]
  extensionBases : List (List Char) := ["_Merge".toList]
  nullableMode : NullableMode := .afterOptions
deriving DecidableEq, Repr

end Settings

structure Settings where
  files : Settings.Files := {}
  /-- Settings of rules by their keys, no key twice. -/
  rules : List (List Char × Settings.RuleSetting) := []
  tables : Settings.Tables := {}
deriving DecidableEq, Repr

namespace Settings

/-- What is set for exactly this key. -/
def ruleSetting? (s : Settings) (key : List Char) : Option RuleSetting := s.rules.lookup key

def isEnabled (s : Settings) (key : List Char) : Bool :=
  ((s.ruleSetting? key).bind (·.enabled)).getD true

def severity? (s : Settings) (key : List Char) : Option Report.Severity :=
  (s.ruleSetting? key).bind (·.severity)

end Settings

end TableLint
