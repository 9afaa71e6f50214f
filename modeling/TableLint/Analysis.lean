import TableLint.Report.Allowance
import TableLint.Rule.Check
import TableLint.Tree.Exclude
import TableLint.Tree.Walk

/-!
The analysis of a directory or a file. The files are found, checked one by one in the order of their
paths, and what is found is filtered by the settings and by comments in the files.
-/
namespace TableLint.Analysis

open Report TableLint.Tree

/-- What an analysis is asked for, beyond its settings. -/
structure Options where
  /-- The directory or file, unless it is that of the settings. -/
  root : Option (List Char) := none
  exclude : List (List Char) := []
  /-- The names or codes of the rules to report; none stands for all. -/
  only : List (List Char) := []
  failOnParseError : Option Bool := none
  settings : Settings := {}

inductive Problem where
  | notFound (path : List Char)
  | badPattern
  | unreadable
  | unparsable (path : List Char)
deriving DecidableEq, Repr

/-- An analysis that is set up: its root exists and its patterns are read. -/
structure Analyzer where
  root : List Char
  /-- The directory from which paths are reported. -/
  base : List Char
  excludes : List ExcludePattern
  only : List (List Char)
  failOnParseError : Bool
  settings : Settings

def Analyzer.make (tree : FileTree) (options : Options) : Except Problem Analyzer :=
  let root := tree.absolute (options.root.getD options.settings.files.root)
  if !tree.contains root then .error (.notFound root)
  else
    match (options.exclude ++ options.settings.files.exclude).mapM ExcludePattern.parse? with
    | none => .error .badPattern
    | some excludes =>
      .ok {
        root
        base := if tree.hasFile root then (parent? root).getD root else root
        excludes
        only := options.only
        failOnParseError :=
          options.failOnParseError.getD options.settings.files.failOnParseError
        settings := options.settings }

namespace Analyzer

def isModulePath (path : List Char) : Bool :=
  extension? path == some "py".toList || extension? path == some "pyi".toList

def isExcluded (a : Analyzer) (path : List Char) : Bool :=
  let relative := (below? a.root path).getD path
  a.excludes.any (·.excludes path relative)

/-- Of the paths found below the root, those to check, in order. -/
def modulesAmong (a : Analyzer) (paths : List (List Char)) : List (List Char) :=
  (paths.filter fun path => isModulePath path && !a.isExcluded path).mergeSort pathLE

/-- The paths to check. A root that is a file is checked whatever its name. -/
def modulePaths (a : Analyzer) (tree : FileTree) : List (List Char) :=
  if tree.hasFile a.root then [a.root]
  else a.modulesAmong (walk tree a.settings.files.respectGitignore a.root)

def isWanted (a : Analyzer) (v : Violation) : Bool :=
  a.settings.isEnabled v.rule &&
    (a.only.isEmpty ||
      a.only.any fun key => Text.sameLetters key v.rule || Text.sameLetters key v.code)

def isAllowed (content : List Char) (v : Violation) : Bool :=
  (allowance? content v.location.line v.rule).isSome ||
    (allowance? content v.location.line v.code).isSome

/-- The violation as it is reported, if it is. -/
def report? (a : Analyzer) (content : List Char) (v : Violation) : Option Violation :=
  if a.isWanted v && !isAllowed content v then
    some { v with severity := (a.settings.severity? v.rule).getD v.severity }
  else none

inductive FileResult where
  | checked (violations : List Violation)
  | unparsable
  | unreadable

/-- Checks the file at a path, its content being given if it could be read. -/
def checkFile (a : Analyzer) (checks : List Rule.Check) (path : List Char) :
    Option (List Char) → FileResult
  | none => .unreadable
  | some content =>
    match Source.outline? content with
    | none => .unparsable
    | some outline =>
      let file := { path, shownAs := relativeTo a.base path, content, outline }
      .checked ((checks.flatMap (·.violations a.settings.tables file)).filterMap
        (a.report? content))

/-- What an analysis answers: the paths of the files that were skipped because they do not parse,
and the report or the problem it ended with. -/
structure Outcome where
  skipped : List (List Char) := []
  result : Except Problem Report

/-- Collects the results of files, up to the first problem. -/
def collect (fail : Bool) : Report → List (List Char × FileResult) → Outcome
  | report, [] => { result := .ok report }
  | report, (path, result) :: results =>
    match result with
    | .checked violations =>
      collect fail (report.append { violations, filesChecked := 1 }) results
    | .unreadable => { result := .error .unreadable }
    | .unparsable =>
      if fail then { skipped := [path], result := .error (.unparsable path) }
      else
        let rest := collect fail report results
        { rest with skipped := path :: rest.skipped }

/-- The order in which violations are reported: by file, line and column. -/
def violationLE (v w : Violation) : Bool :=
  let p := components v.location.file
  let q := components w.location.file
  if p == q then
    v.location.line < w.location.line ||
      (v.location.line == w.location.line && v.location.column ≤ w.location.column)
  else componentsLE p q

def sorted (r : Report) : Report :=
  { r with violations := r.violations.mergeSort violationLE }

def runOn (a : Analyzer) (checks : List Rule.Check) (read? : List Char → Option (List Char))
    (paths : List (List Char)) : Outcome :=
  let outcome := collect a.failOnParseError {}
    (paths.map fun path => (path, a.checkFile checks path (read? path)))
  { outcome with result := outcome.result.map sorted }

def run (a : Analyzer) (tree : FileTree) (checks : List Rule.Check := Rule.checks) : Outcome :=
  a.runOn checks tree.read? (a.modulePaths tree)

end Analyzer

end TableLint.Analysis
