import TableLint.Proofs.Collecting

/-!
What options about reporting do to a report. Whether and how a violation is reported is decided for
each one by itself, before the violations of all files are put in order; the order goes by their
places, which are never changed. So leaving violations out or giving them another severity comes to
the same when it is done to the finished report.
-/
namespace TableLint

namespace Report

/-- The report with violations changed or left out. -/
def filterMap (f : Violation → Option Violation) (r : Report) : Report :=
  { r with violations := r.violations.filterMap f }

/-- The report with only some of its violations. -/
def keep (p : Violation → Bool) (r : Report) : Report :=
  { r with violations := r.violations.filter p }

/-- The report with a severity for the violations of a rule. -/
def setSeverity (rule : List Char) (severity : Severity) (r : Report) : Report :=
  { r with
    violations := r.violations.map fun v => if v.rule == rule then { v with severity } else v }

theorem filterMap_guard (p : Violation → Bool) : filterMap (Option.guard p) = keep p := by
  funext r
  rw [filterMap, keep, List.filterMap_eq_filter]

theorem filterMap_setSeverity (rule : List Char) (severity : Severity) :
    filterMap (fun v => some (if v.rule == rule then { v with severity } else v)) =
      setSeverity rule severity := by
  funext r
  rw [filterMap, setSeverity, List.filterMap_eq_map']

end Report

namespace Settings

/-- The settings with a change of what is set for a rule. -/
def changeRule (s : Settings) (key : List Char) (change : RuleSetting → RuleSetting) : Settings :=
  { s with
    rules := (key, change ((s.ruleSetting? key).getD {})) :: s.rules.filter (·.1 != key) }

theorem ruleSetting?_changeRule (s : Settings) (key other : List Char)
    (change : RuleSetting → RuleSetting) :
    (s.changeRule key change).ruleSetting? other =
      if other = key then some (change ((s.ruleSetting? key).getD {}))
      else s.ruleSetting? other := by
  by_cases h : other = key
  · simp [changeRule, ruleSetting?, h]
  · simp only [changeRule, ruleSetting?, List.lookup_cons, beq_eq_false_iff_ne.mpr h, if_neg h]
    induction s.rules with
    | nil => rfl
    | cons rule rules ih =>
      obtain ⟨k, setting⟩ := rule
      by_cases hk : k = key
      · subst hk
        rw [List.filter_cons_of_neg (by simp), List.lookup_cons, beq_eq_false_iff_ne.mpr h]
        exact ih
      · rw [List.filter_cons_of_pos (by simp [hk]), List.lookup_cons, List.lookup_cons, ih]

/-- The settings with a rule switched off. -/
def disable (s : Settings) (key : List Char) : Settings :=
  s.changeRule key fun setting => { setting with enabled := some false }

/-- The settings with a severity for a rule. -/
def override (s : Settings) (key : List Char) (severity : Report.Severity) : Settings :=
  s.changeRule key fun setting => { setting with severity := some severity }

theorem isEnabled_disable (s : Settings) (key rule : List Char) :
    (s.disable key).isEnabled rule = (s.isEnabled rule && rule != key) := by
  rw [isEnabled, isEnabled, disable, ruleSetting?_changeRule]
  by_cases h : rule = key <;> simp [h]

theorem severity?_disable (s : Settings) (key rule : List Char) :
    (s.disable key).severity? rule = s.severity? rule := by
  rw [severity?, severity?, disable, ruleSetting?_changeRule]
  by_cases h : rule = key
  · subst h
    cases s.ruleSetting? rule <;> simp
  · rw [if_neg h]

theorem isEnabled_override (s : Settings) (key rule : List Char) (severity : Report.Severity) :
    (s.override key severity).isEnabled rule = s.isEnabled rule := by
  rw [isEnabled, isEnabled, override, ruleSetting?_changeRule]
  by_cases h : rule = key
  · subst h
    cases s.ruleSetting? rule <;> simp
  · rw [if_neg h]

theorem severity?_override (s : Settings) (key rule : List Char) (severity : Report.Severity) :
    (s.override key severity).severity? rule =
      if rule = key then some severity else s.severity? rule := by
  rw [severity?, severity?, override, ruleSetting?_changeRule]
  by_cases h : rule = key <;> simp [h]

end Settings

namespace Analysis

open Report TableLint.Tree

variable {options : Options} {a : Analyzer} {tree : FileTree} {checks : List Rule.Check}
  {f : Violation → Option Violation}

namespace Analyzer

/-- The result of a file with violations changed or left out. -/
def FileResult.filterMap (f : Violation → Option Violation) : FileResult → FileResult
  | .checked violations => .checked (violations.filterMap f)
  | .unparsable => .unparsable
  | .unreadable => .unreadable

@[simp] theorem FileResult.problem?_filterMap (result : FileResult) (fail : Bool)
    (path : List Char) : (result.filterMap f).problem? fail path = result.problem? fail path := by
  cases result <;> rfl

@[simp] theorem FileResult.violations_filterMap (result : FileResult) :
    (result.filterMap f).violations = result.violations.filterMap f := by
  cases result <;> rfl

@[simp] theorem FileResult.isSome_filterMap (result : FileResult) :
    (result.filterMap f).violations?.isSome = result.violations?.isSome := by
  cases result <;> rfl

/-- The analysis with other options about reporting. -/
def withReporting (a : Analyzer) (only : List (List Char)) (settings : Settings) : Analyzer :=
  { a with only, settings }

@[simp] theorem failOnParseError_withReporting (a : Analyzer) (only : List (List Char))
    (settings : Settings) : (a.withReporting only settings).failOnParseError = a.failOnParseError :=
  rfl

/-- An analysis that reports each violation as another one would, and then changes it or leaves it
out, has all its reports changed so. -/
theorem run_withReporting {only : List (List Char)} {settings : Settings}
    (hfiles : settings.files = a.settings.files) (htables : settings.tables = a.settings.tables)
    (hf : ∀ v w, f v = some w → w.location = v.location)
    (h : ∀ content v, (a.withReporting only settings).report? content v =
      (a.report? content v).bind f) :
    ((a.withReporting only settings).run tree checks).result =
      (a.run tree checks).result.map (Report.filterMap f) := by
  have hpaths : (a.withReporting only settings).modulePaths tree = a.modulePaths tree := by
    rw [modulePaths, modulePaths, withReporting, hfiles]
    rfl
  have hcheck : ∀ path content, (a.withReporting only settings).checkFile checks path content =
      (a.checkFile checks path content).filterMap f := by
    intro path content
    cases content with
    | none => rfl
    | some content =>
      cases ho : Source.outline? content with
      | none => simp only [checkFile, ho, FileResult.filterMap]
      | some outline =>
        simp only [checkFile, ho, FileResult.filterMap, List.filterMap_filterMap, ← h]
        simp only [withReporting, htables]
  -- Places are kept, so violations compare after the change as they did before.
  have hsort : ∀ v w v' w', f v = some v' → f w = some w' →
      violationLE v' w' = violationLE v w := by
    intro v w v' w' hv hw
    rw [violationLE, violationLE, hf v v' hv, hf w w' hw]
  rw [run, run, hpaths, runOn_result, runOn_result]
  simp only [hcheck, FileResult.problem?_filterMap, FileResult.violations_filterMap,
    FileResult.isSome_filterMap, failOnParseError_withReporting]
  cases (a.modulePaths tree).findSome? fun path =>
      (a.checkFile checks path (tree.read? path)).problem? a.failOnParseError path with
  | some problem => rfl
  | none =>
    simp only [Except.map, Report.filterMap]
    rw [filterMap_mergeSort sorts_violationLE hsort, List.filterMap_flatMap]

end Analyzer

/-- The analysis as a whole: it is set up and run. -/
def analyze (checks : List Rule.Check) (tree : FileTree) (options : Options) :
    Except Problem Report :=
  (Analyzer.make tree options).bind fun a => (a.run tree checks).result

/-- Setting up does not depend on options about reporting. -/
theorem make_withReporting (tree : FileTree) (options : Options) (only : List (List Char))
    (settings : Settings) (hfiles : settings.files = options.settings.files) :
    Analyzer.make tree { options with only, settings } =
      (Analyzer.make tree options).map fun a => a.withReporting only settings := by
  simp only [Analyzer.make, hfiles]
  split
  · rfl
  · cases (options.exclude ++ options.settings.files.exclude).mapM ExcludePattern.parse? <;> rfl

theorem analyze_withReporting (options : Options) (only : List (List Char)) (settings : Settings)
    (hfiles : settings.files = options.settings.files)
    (htables : settings.tables = options.settings.tables)
    (hf : ∀ v w, f v = some w → w.location = v.location)
    (h : ∀ a : Analyzer, a.only = options.only → a.settings = options.settings → ∀ content v,
      (a.withReporting only settings).report? content v = (a.report? content v).bind f) :
    analyze checks tree { options with only, settings } =
      (analyze checks tree options).map (Report.filterMap f) := by
  rw [analyze, analyze, make_withReporting tree options only settings hfiles]
  cases hm : Analyzer.make tree options with
  | error problem => rfl
  | ok a =>
    have hs := Analyzer.setUp_of_make hm
    exact Analyzer.run_withReporting (hs.settings ▸ hfiles) (hs.settings ▸ htables) hf
      (h a hs.only hs.settings)

theorem location_of_guard {p : Violation → Bool} (v w : Violation)
    (h : Option.guard p v = some w) : w.location = v.location := by
  rw [(Option.guard_eq_some_iff.mp h).1]

/-! ### The options -/

/-- The rule or the code of the violation is one of the keys, up to case. -/
def isAmong (keys : List (List Char)) (v : Violation) : Bool :=
  keys.any fun key => Text.sameLetters key v.rule || Text.sameLetters key v.code

theorem isWanted_eq (a : Analyzer) (v : Violation) :
    a.isWanted v = (a.settings.isEnabled v.rule && (a.only.isEmpty || isAmong a.only v)) := rfl

/-- Asking for fewer violations leaves out the others after they are given their severities. -/
theorem report?_of_isWanted {b : Analyzer} {p : Violation → Bool}
    (hw : ∀ v, b.isWanted v = (a.isWanted v && p v))
    (hs : ∀ rule, b.settings.severity? rule = a.settings.severity? rule)
    (hp : ∀ (v : Violation) severity, p { v with severity } = p v) (content : List Char)
    (v : Violation) : b.report? content v = (a.report? content v).bind (Option.guard p) := by
  simp only [Analyzer.report?, hw, hs]
  cases a.isWanted v <;> cases Analyzer.isAllowed content v <;> cases hv : p v <;>
    simp [Option.guard, hp, hv]

theorem analyze_only (checks : List Rule.Check) (tree : FileTree) (options : Options)
    {keys : List (List Char)} (hk : keys ≠ []) :
    analyze checks tree { options with only := keys } =
      (analyze checks tree { options with only := [] }).map (Report.keep (isAmong keys)) := by
  have hempty : keys.isEmpty = false := by simpa using hk
  rw [← Report.filterMap_guard]
  refine analyze_withReporting { options with only := [] } keys options.settings rfl rfl
    location_of_guard ?_
  intro a honly hsettings
  refine report?_of_isWanted ?_ ?_ fun v severity => rfl
  · intro v
    simp only [isWanted_eq, Analyzer.withReporting, honly, hsettings, hempty, List.isEmpty_nil,
      Bool.true_or, Bool.false_or, Bool.and_true]
  · intro rule
    rw [hsettings]
    rfl

theorem analyze_disable (checks : List Rule.Check) (tree : FileTree) (options : Options)
    (name : List Char) :
    analyze checks tree { options with settings := options.settings.disable name } =
      (analyze checks tree options).map (Report.keep (·.rule != name)) := by
  rw [← Report.filterMap_guard]
  refine analyze_withReporting options options.only (options.settings.disable name) rfl rfl
    location_of_guard ?_
  intro a honly hsettings
  refine report?_of_isWanted ?_ ?_ fun v severity => rfl
  · intro v
    simp only [isWanted_eq, Analyzer.withReporting, honly, hsettings, Settings.isEnabled_disable]
    rw [Bool.and_right_comm]
  · intro rule
    rw [hsettings]
    exact Settings.severity?_disable _ name rule

theorem analyze_override (checks : List Rule.Check) (tree : FileTree) (options : Options)
    (name : List Char) (severity : Severity) :
    analyze checks tree { options with settings := options.settings.override name severity } =
      (analyze checks tree options).map (Report.setSeverity name severity) := by
  rw [← Report.filterMap_setSeverity]
  refine analyze_withReporting options options.only (options.settings.override name severity) rfl
    rfl ?_ ?_
  · rintro v w ⟨⟩
    split <;> rfl
  · intro a honly hsettings content v
    simp only [Analyzer.report?, isWanted_eq, Analyzer.withReporting, honly, hsettings,
      Settings.isEnabled_override, Settings.severity?_override]
    split
    · by_cases h : v.rule = name <;> simp [h]
    · rfl

/-- Options about reporting commute with the analysis, for every set of checks: keys to report keep
of the whole report the violations with one of the keys, switching a rule off takes its violations
away, and setting a severity changes nothing else. The number of files stays, and so does a
problem. -/
theorem analyze_reporting (checks : List Rule.Check) (tree : FileTree) (options : Options) :
    (∀ keys, keys ≠ [] →
      analyze checks tree { options with only := keys } =
        (analyze checks tree { options with only := [] }).map (Report.keep (isAmong keys))) ∧
      (∀ name, analyze checks tree { options with settings := options.settings.disable name } =
        (analyze checks tree options).map (Report.keep (·.rule != name))) ∧
      ∀ name severity,
        analyze checks tree { options with settings := options.settings.override name severity } =
          (analyze checks tree options).map (Report.setSeverity name severity) :=
  ⟨fun _ hk => analyze_only checks tree options hk, analyze_disable checks tree options,
    analyze_override checks tree options⟩

/-- A directory with a module whose first import is reported. The second is allowed. -/
def importsTree : FileTree where
  root := .directory [] [.file "imports.py".toList
    "from scans import *\n# dj-lint: allow(dj002)\nfrom labs import *\n".toUTF8]
  current := []

theorem analyze_reporting_imports :
    ["dj002".toList, "NO-PK".toList] ≠ [] ∧
      analyze Rule.checks importsTree { only := ["dj002".toList, "NO-PK".toList] } =
        (analyze Rule.checks importsTree {}).map
          (Report.keep (isAmong ["dj002".toList, "NO-PK".toList])) :=
  ⟨by decide, (analyze_reporting Rule.checks importsTree {}).1 _ (by decide)⟩

end Analysis

end TableLint
