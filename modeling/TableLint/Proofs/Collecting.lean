import TableLint.Analysis
import TableLint.Proofs.Paths

/-!
How an analysis is set up, and what it collects from its files. The first file with a problem
decides; if there is none, the report has the violations of all files in the order of their places,
and counts the files that could be parsed.
-/
namespace TableLint.Analysis.Analyzer

open Report TableLint.Tree

/-! ### Setting up -/

/-- What is known of an analysis that was set up. -/
structure SetUp (tree : FileTree) (options : Options) (a : Analyzer) : Prop where
  root : a.root = tree.absolute (options.root.getD options.settings.files.root)
  base : a.base = if tree.hasFile a.root then (parent? a.root).getD a.root else a.root
  excludes : (options.exclude ++ options.settings.files.exclude).mapM ExcludePattern.parse? =
    some a.excludes
  only : a.only = options.only
  failOnParseError : a.failOnParseError =
    options.failOnParseError.getD options.settings.files.failOnParseError
  settings : a.settings = options.settings

variable {tree : FileTree} {options : Options} {a : Analyzer}

theorem setUp_of_make (h : Analyzer.make tree options = .ok a) : SetUp tree options a := by
  simp only [Analyzer.make] at h
  split at h
  · cases h
  · split at h
    · cases h
    · next he =>
      cases h
      exact ⟨rfl, rfl, he, rfl, rfl, rfl⟩

/-- A directory can be analysed if the patterns can be read. -/
theorem make_of_directory {root : List Char} {excludes : List ExcludePattern}
    (hr : tree.absolute (options.root.getD options.settings.files.root) = root)
    (hc : tree.contains root = true) (hf : tree.hasFile root = false)
    (he : (options.exclude ++ options.settings.files.exclude).mapM ExcludePattern.parse? =
      some excludes) :
    Analyzer.make tree options = .ok
      { root, base := root, excludes, only := options.only
        failOnParseError := options.failOnParseError.getD options.settings.files.failOnParseError
        settings := options.settings } := by
  simp [Analyzer.make, hr, hc, hf, he]

theorem SetUp.root_ne_nil (h : SetUp tree options a) : a.root ≠ [] := by
  rw [h.root, FileTree.absolute, join]
  split
  · next hp =>
    intro he
    rw [he] at hp
    cases hp
  · split <;> simp [FileTree.pathTo]

theorem SetUp.base_eq_root (h : SetUp tree options a) (hdir : tree.hasFile a.root = false) :
    a.base = a.root := by
  rw [h.base, hdir]
  rfl

/-! ### Collecting -/

/-- Why a file ends the analysis, if it does. -/
def FileResult.problem? (fail : Bool) (path : List Char) : FileResult → Option Problem
  | .checked _ => none
  | .unreadable => some .unreadable
  | .unparsable => if fail then some (.unparsable path) else none

/-- What is reported in a file that could be parsed. -/
def FileResult.violations? : FileResult → Option (List Violation)
  | .checked violations => some violations
  | .unreadable => none
  | .unparsable => none

/-- What is reported in a file. -/
def FileResult.violations (result : FileResult) : List Violation := result.violations?.getD []

/-- Collecting results adds all violations to the report, unless a file ends it. -/
theorem collect_result (fail : Bool) (report : Report) (results : List (List Char × FileResult)) :
    (collect fail report results).result =
      match results.findSome? fun entry => entry.2.problem? fail entry.1 with
      | some problem => .error problem
      | none => .ok (report.append
          { violations := results.flatMap (·.2.violations)
            filesChecked := results.countP (·.2.violations?.isSome) }) := by
  induction results generalizing report with
  | nil => simp [collect, Report.append]
  | cons entry results ih =>
    obtain ⟨path, result⟩ := entry
    rw [List.findSome?_cons]
    cases result with
    | checked violations =>
      rw [show (FileResult.checked violations).problem? fail path = none from rfl]
      simp only [collect, ih]
      cases results.findSome? fun entry => entry.2.problem? fail entry.1 with
      | some problem => rfl
      | none =>
        simp [Report.append, FileResult.violations, FileResult.violations?, Nat.add_assoc,
          Nat.add_comm 1]
    | unreadable => rfl
    | unparsable =>
      cases fail with
      | true => rfl
      | false =>
        rw [show FileResult.unparsable.problem? false path = none from rfl]
        simp only [collect, ih, Bool.false_eq_true, if_false]
        cases results.findSome? fun entry => entry.2.problem? false entry.1 with
        | some problem => rfl
        | none => simp [FileResult.violations, FileResult.violations?]

/-- The result of an analysis of the files at the given paths. -/
theorem runOn_result (a : Analyzer) (checks : List Rule.Check)
    (read? : List Char → Option (List Char)) (paths : List (List Char)) :
    (a.runOn checks read? paths).result =
      match paths.findSome? fun path =>
        (a.checkFile checks path (read? path)).problem? a.failOnParseError path with
      | some problem => .error problem
      | none => .ok
          { violations := (paths.flatMap fun path =>
              (a.checkFile checks path (read? path)).violations).mergeSort violationLE
            filesChecked := paths.countP fun path =>
              (a.checkFile checks path (read? path)).violations?.isSome } := by
  simp only [runOn, collect_result, List.findSome?_map, List.flatMap_map, List.countP_map,
    Function.comp_def]
  cases paths.findSome? fun path =>
      (a.checkFile checks path (read? path)).problem? a.failOnParseError path with
  | some problem => rfl
  | none => simp [Except.map, sorted, Report.append]

theorem flatMap_checks (settings : Settings.Tables) (file : Rule.ModuleFile) :
    (Rule.checks.flatMap fun check => check.violations settings file) =
      Rule.checkModule settings file.shownAs file.outline :=
  List.append_nil _

/-! ### The order of violations -/

/-- The order of violations in one file. -/
def placeLE (v w : Violation) : Bool :=
  v.location.line < w.location.line ||
    (v.location.line == w.location.line && v.location.column ≤ w.location.column)

theorem placeLE_iff (v w : Violation) :
    placeLE v w = true ↔ v.location.line < w.location.line ∨
      v.location.line = w.location.line ∧ v.location.column ≤ w.location.column := by
  simp [placeLE]

theorem sorts_placeLE : Sorts placeLE where
  trans u v w huv hvw := by
    rw [placeLE_iff] at *
    omega
  total v w := by
    rw [Bool.or_eq_true, placeLE_iff, placeLE_iff]
    omega

theorem violationLE_of_eq {v w : Violation}
    (h : components v.location.file = components w.location.file) :
    violationLE v w = placeLE v w := by
  simp [violationLE, placeLE, h]

theorem violationLE_of_ne {v w : Violation}
    (h : components v.location.file ≠ components w.location.file) :
    violationLE v w = componentsLE (components v.location.file) (components w.location.file) := by
  simp [violationLE, h]

theorem sorts_violationLE : Sorts violationLE where
  trans u v w huv hvw := by
    by_cases hu : components u.location.file = components v.location.file
    · by_cases hv : components v.location.file = components w.location.file
      · rw [violationLE_of_eq hu] at huv
        rw [violationLE_of_eq hv] at hvw
        rw [violationLE_of_eq (hu.trans hv)]
        exact sorts_placeLE.trans u v w huv hvw
      · rw [violationLE_of_ne hv] at hvw
        rw [violationLE_of_ne (hu ▸ hv), hu]
        exact hvw
    · rw [violationLE_of_ne hu] at huv
      by_cases hv : components v.location.file = components w.location.file
      · rw [violationLE_of_ne (hv ▸ hu), ← hv]
        exact huv
      · rw [violationLE_of_ne hv] at hvw
        have hw : components u.location.file ≠ components w.location.file := by
          intro he
          rw [he] at huv
          exact hv (orders_componentsLE.antisymm _ _ hvw huv)
        rw [violationLE_of_ne hw]
        exact orders_componentsLE.trans _ _ _ huv hvw
  total v w := by
    by_cases h : components v.location.file = components w.location.file
    · rw [violationLE_of_eq h, violationLE_of_eq h.symm]
      exact sorts_placeLE.total v w
    · rw [violationLE_of_ne h, violationLE_of_ne (Ne.symm h)]
      exact orders_componentsLE.total _ _

end TableLint.Analysis.Analyzer
