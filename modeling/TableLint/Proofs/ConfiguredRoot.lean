import TableLint.CommandLine.Run
import TableLint.Proofs.ReportingOptions

/-!
The root in the settings. An analysis takes the root that it is given and falls back on that of its
settings. A check is always given one, the current directory if there is no path among its
arguments. So it answers as if the settings named the current directory, whatever they name.
-/
namespace TableLint

/-- The settings with another root. -/
def Settings.withRoot (s : Settings) (root : List Char) : Settings :=
  { s with files := { s.files with root } }

namespace Analysis

open TableLint.Tree

/-- The options with a root that only the settings name. -/
def Options.rootedBySettings (options : Options) (root : List Char) : Options :=
  { options with root := none, settings := options.settings.withRoot root }

variable {tree : FileTree} {options : Options} {root : List Char}

/-- Once it is set up, an analysis does not look at the root of its settings. -/
theorem Analyzer.run_withRoot (a : Analyzer) (tree : FileTree) (checks : List Rule.Check)
    (root : List Char) :
    ({ a with settings := a.settings.withRoot root } : Analyzer).run tree checks =
      a.run tree checks := rfl

/-- It makes no difference for setting up whether a root is given or named by the settings. -/
theorem make_rootedBySettings (h : options.root = some root) :
    Analyzer.make tree (options.rootedBySettings root) =
      (Analyzer.make tree options).map fun a =>
        { a with settings := a.settings.withRoot root } := by
  have hr : (options.rootedBySettings root).root.getD
      (options.rootedBySettings root).settings.files.root =
        options.root.getD options.settings.files.root := by
    rw [h]
    rfl
  simp only [Analyzer.make, hr]
  split
  · rfl
  · simp only [Options.rootedBySettings, Settings.withRoot]
    cases (options.exclude ++ options.settings.files.exclude).mapM ExcludePattern.parse? <;> rfl

end Analysis

namespace CommandLine

open Analysis TableLint.Tree

variable {tree : FileTree} {global : Option (List Char)} {args : List (List Char)}
  {reading : Reading} {request : CheckRequest} {settings : Settings} {format : Format}
  {options : Options} {root : List Char} {report : Report}

theorem runCheck_of_settings
    (h : settingsAt tree (Settings.find tree request.path request.config global) = .ok settings) :
    runCheck tree global request =
      runAnalysis tree request.format (optionsOf request settings) := by
  simp only [runCheck, h]

theorem runAnalysis_rootedBySettings (h : options.root = some root) :
    runAnalysis tree format (options.rootedBySettings root) = runAnalysis tree format options := by
  simp only [runAnalysis, make_rootedBySettings h]
  cases Analyzer.make tree options with
  | error problem => rfl
  | ok a =>
    simp only [Except.map, Analyzer.run_withRoot]
    rfl

/-- A report is written, and decides on the exit code. -/
theorem runAnalysis_of_analyze (h : analyze Rule.checks tree options = .ok report) :
    (runAnalysis tree format options).exit = (if report.hasErrors then 1 else 0) ∧
      ∃ source?, (runAnalysis tree format options).stdout = reportText format source? report := by
  rw [analyze] at h
  rw [runAnalysis]
  cases hm : Analyzer.make tree options with
  | error problem =>
    rw [hm] at h
    cases h
  | ok a =>
    rw [hm] at h
    have hr : (a.run tree).result = .ok report := h
    simp only [hr]
    exact ⟨trivial, _, rfl⟩

/-! ### Arguments without a path -/

theorem run_of_reading (hr : args.foldlM Reading.step {} = .ok reading)
    (hf : reading.finish = .ok (.check request)) :
    run tree global args = (tree, runCheck tree global request) := by
  have ho : Request.ofArguments? args = some (.check request) := by
    simp only [Request.ofArguments?, hr, bind, Except.bind, hf]
  simp only [run, ho]

/-- The path stands for the current directory if none is given. -/
theorem path_of_finish (hf : reading.finish = .ok (.check request)) (hp : reading.path = none) :
    request.path = ['.'] := by
  rw [Reading.finish, hp] at hf
  split at hf
  · cases hf
  · split at hf <;> cases hf
    rfl

/-- What the analysis of a request is asked for if it is to find its root in the settings. -/
def configured (request : CheckRequest) (settings : Settings) : Options :=
  { optionsOf request settings with root := none }

theorem rootedBySettings_optionsOf (request : CheckRequest) (settings : Settings)
    (root : List Char) :
    (optionsOf request settings).rootedBySettings root =
      configured request (settings.withRoot root) := by
  simp only [configured, optionsOf, Options.rootedBySettings]
  split <;> rfl

/-- A configured root makes no difference if it is the one that is given. -/
theorem runAnalysis_configured
    (h : tree.absolute settings.files.root = tree.absolute request.path) :
    runAnalysis tree format (configured request settings) =
      runAnalysis tree format (optionsOf request settings) := by
  have hr : tree.absolute ((configured request settings).root.getD
      (configured request settings).settings.files.root) = tree.absolute request.path := by
    rw [← h]
    simp only [configured, optionsOf]
    split <;> rfl
  have hm : Analyzer.make tree (configured request settings) =
      Analyzer.make tree (optionsOf request settings) := by
    simp only [Analyzer.make, hr]
    rfl
  simp only [runAnalysis, hm]
  rfl

/-- A check without a path answers as if its settings named the current directory for their root,
and reports what an analysis with these settings finds. That is what the settings ask for if the
root they do name is the current directory. -/
theorem run_without_path (tree : FileTree) (global : Option (List Char))
    (args : List (List Char)) (reading : Reading) (request : CheckRequest) (settings : Settings)
    (hr : args.foldlM Reading.step {} = .ok reading)
    (hf : reading.finish = .ok (.check request)) (hp : reading.path = none)
    (hs : settingsAt tree (Settings.find tree ['.'] request.config global) = .ok settings) :
    (run tree global args).2 =
        runAnalysis tree request.format (configured request (settings.withRoot ['.'])) ∧
      (∀ report,
        analyze Rule.checks tree (configured request (settings.withRoot ['.'])) = .ok report →
          (run tree global args).2.exit = (if report.hasErrors then 1 else 0) ∧
            ∃ source?, (run tree global args).2.stdout =
              reportText request.format source? report) ∧
      (tree.absolute settings.files.root = tree.absolute ['.'] →
        (run tree global args).2 =
          runAnalysis tree request.format (configured request settings)) := by
  have hpath := path_of_finish hf hp
  rw [← hpath] at hs ⊢
  have hrun : (run tree global args).2 =
      runAnalysis tree request.format (optionsOf request settings) := by
    rw [run_of_reading hr hf, runCheck_of_settings hs]
  have hroot : (run tree global args).2 = runAnalysis tree request.format
      (configured request (settings.withRoot request.path)) := by
    rw [hrun, ← rootedBySettings_optionsOf, runAnalysis_rootedBySettings rfl]
  refine ⟨hroot, ?_, ?_⟩
  · intro report ha
    rw [hroot]
    exact runAnalysis_of_analyze ha
  · intro h
    rw [hrun, runAnalysis_configured h]

/-- A directory whose settings name another one below it, with a module outside of that. -/
def labProject : FileTree where
  root := .directory []
    [.file "dj-lint.toml".toList "[analyzer]\nroot = \"pipeline\"\n".toUTF8,
      .directory "pipeline".toList [.file "notes.txt".toList .empty],
      .file "scan.py".toList "from labs import *\n".toUTF8]
  current := []

def labArguments : List (List Char) := ["check".toList, "-f".toList, "json".toList]

def labSettings : Settings := ({} : Settings).withRoot "pipeline".toList

theorem run_without_path_lab :
    (run labProject none labArguments).2 =
      runAnalysis labProject .json (configured { format := .json } (labSettings.withRoot ['.'])) :=
  (run_without_path labProject none labArguments
    { scope := .check, seen := [.format], format := .json } { format := .json } labSettings
    (by decide +kernel) (by decide +kernel) rfl (by decide +kernel)).1

/-- The module outside is checked, although an analysis with these settings would not check it. -/
theorem run_outside_root :
    settingsAt labProject (Settings.find labProject ['.'] none none) = .ok labSettings ∧
      labProject.contains labSettings.files.root = true ∧
      (runAnalysis labProject .json (configured { format := .json } labSettings)).stdout =
        "\x7b\n  \"violations\": [],\n  \"files_checked\": 0\n\x7d\n".toList ∧
      ("\"file\": \"scan.py\"".toList <:+: (run labProject none labArguments).2.stdout) ∧
      ("\"files_checked\": 1".toList <:+: (run labProject none labArguments).2.stdout) := by
  decide +kernel

end CommandLine

end TableLint
