import TableLint.Analysis
import TableLint.CommandLine.Output
import TableLint.Settings.Lookup

/-!
Running the tool on a file tree.
-/
namespace TableLint.CommandLine

open Text TableLint.Tree

/-- What a run leaves behind: its exit code, what it wrote, the message it failed with, and its
warnings. -/
structure Result where
  exit : Nat := 0
  stdout : List Char := []
  failure : Option (List Char) := none
  warnings : List (List Char) := []
deriving DecidableEq, Repr

def failed (message : List Char) (warnings : List (List Char)) : Result :=
  { exit := 1, failure := some message, warnings }

def ruleKeys (rules : Option (List Char)) : List (List Char) := (rules.map (commaList trim)).getD []

/-- Warnings for keys that no rule has. -/
def unknownRules (keys : List (List Char)) : List (List Char) :=
  (keys.filter fun key => (Rule.RuleId.lookup? key).isNone).map ("Unknown rule: ".toList ++ ·)

def settingsAt (tree : FileTree) (origin : Settings.Origin) :
    Except Settings.Problem Settings :=
  match origin.path? with
  | none => .ok {}
  | some path => Settings.load tree path

def optionsOf (request : CheckRequest) (settings : Settings) : Analysis.Options :=
  { root := some request.path
    exclude := request.exclude
    only := ruleKeys request.rules
    settings :=
      if request.permitFilepath then
        { settings with tables := { settings.tables with permitFilepath := true } }
      else settings }

def runAnalysis (tree : FileTree) (format : Format) (options : Analysis.Options) : Result :=
  let warnings := unknownRules options.only
  match Analysis.Analyzer.make tree options with
  | .error _ => failed "Failed to build analyzer".toList warnings
  | .ok analyzer =>
    let outcome := analyzer.run tree
    let warnings := warnings ++ outcome.skipped.map ("Failed to parse ".toList ++ ·)
    match outcome.result with
    | .error _ => failed "Analysis failed".toList warnings
    | .ok report =>
      { exit := if report.hasErrors then 1 else 0
        stdout := reportText format (fun file => tree.read? (join analyzer.base file)) report
        warnings }

def runCheck (tree : FileTree) (global : Option (List Char)) (request : CheckRequest) : Result :=
  let origin := Settings.find tree request.path request.config global
  match settingsAt tree origin with
  | .error _ => failed ("Failed to load config: ".toList ++ (origin.path?.getD [])) []
  | .ok settings => runAnalysis tree request.format (optionsOf request settings)

def runInit (tree : FileTree) (force : Bool) : FileTree × Result :=
  let name := "dj-lint.toml".toList
  if tree.contains name && !force then
    (tree, failed ("Configuration file already exists at ".toList ++ name ++
      ". Use --force to overwrite.".toList) [])
  else
    match tree.write? name defaultSettings with
    | some tree => (tree, { stdout := initText })
    | none => (tree, failed ("Failed to write ".toList ++ name) [])

/-- Runs the tool with arguments. `global` is the directory of the user's settings. -/
def run (tree : FileTree) (global : Option (List Char)) (args : List (List Char)) :
    FileTree × Result :=
  match Request.ofArguments? args with
  | none => (tree, { exit := 2 })
  | some (.check request) => (tree, runCheck tree global request)
  | some .listRules => (tree, { stdout := rulesText })
  | some (.init force) => runInit tree force
  | some .version => (tree, { stdout := versionText })
  | some .help => (tree, { stdout := helpText })

end TableLint.CommandLine
