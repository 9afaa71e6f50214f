import TableLint.Proofs.Collecting
import TableLint.Proofs.Excluding
import TableLint.Proofs.Walking

/-!
The analysis of one directory at two places. Below the root everything goes by names, so the same
files are found, excluded, read and reported. What can make a difference lies above: ignore files,
and pieces of the root from which on a pattern covers a path, as patterns are tried on paths as a
whole too.
-/
namespace TableLint.Analysis

open Report TableLint.Tree

/-- The problem with a path below a root. -/
def Problem.under (root : List Char) : Problem → Problem
  | .unparsable path => .unparsable (join root path)
  | problem => problem

namespace Analyzer

/-- What an analysis answers, with paths below a root. -/
def Outcome.under (root : List Char) (o : Outcome) : Outcome :=
  { skipped := o.skipped.map (join root), result := o.result.mapError (Problem.under root) }

variable {a a' : Analyzer} {tree tree' : FileTree} {options : Options}
  {names place place' : List (List Char)} {steps : List (List (List Char))} {children : List Entry}

/-! ### Exclusion -/

/-- Some pattern excludes the path because of what lies below the root. -/
def excludesBelow (a : Analyzer) (relative : List Char) : Bool :=
  a.excludes.any (·.excludesBelow relative)

/-- Some pattern covers the path along the names from a piece of the root on. -/
def ReachesAbove (a : Analyzer) (names : List (List Char)) : Prop :=
  ∃ p ∈ a.excludes, p.ReachesAbove a.root names

theorem isExcluded_goDown (hp : ∀ p ∈ a.excludes, ∃ ws, p.wildcards = .anyPieces :: ws)
    (hr : a.root ≠ []) (h : ∀ name ∈ names, IsName name) (hne : names ≠ []) :
    a.isExcluded (goDown a.root names) = true ↔
      a.excludesBelow (joinPieces names) = true ∨ a.ReachesAbove names := by
  rw [isExcluded, below?_goDown hr h hne, Option.getD_some, excludesBelow, List.any_eq_true,
    List.any_eq_true, ReachesAbove, ← exists_or]
  refine exists_congr fun p => ?_
  rw [← and_or_left]
  refine and_congr_right fun hm => ?_
  exact ExcludePattern.excludes_goDown (hp p hm) hr h hne

theorem exists_parse?_of_mem {texts : List (List Char)} {patterns : List ExcludePattern}
    (h : texts.mapM ExcludePattern.parse? = some patterns) {p : ExcludePattern}
    (hp : p ∈ patterns) : ∃ text ∈ texts, ExcludePattern.parse? text = some p := by
  induction texts generalizing patterns with
  | nil =>
    cases h
    cases hp
  | cons text texts ih =>
    rw [List.mapM_cons] at h
    obtain ⟨q, hq, h⟩ := Option.bind_eq_some_iff.mp h
    obtain ⟨rest, hrest, h⟩ := Option.bind_eq_some_iff.mp h
    cases h
    rcases List.mem_cons.mp hp with rfl | hp
    · exact ⟨text, List.mem_cons_self, hq⟩
    · obtain ⟨other, hm, ho⟩ := ih hrest hp
      exact ⟨other, List.mem_cons_of_mem text hm, ho⟩

/-- Patterns for names reach above the root just if one of the names is a piece of it. -/
theorem reachesAbove_barred (hs : SetUp tree options a) {barred : List (List Char)}
    (hb : options.exclude ++ options.settings.files.exclude = barred.map ExcludePattern.barring)
    (hplain : ∀ name ∈ barred, ExcludePattern.isPlain name = true) (hne : names ≠ []) :
    a.ReachesAbove names ↔ ∃ name ∈ barred, name ∈ frontPieces a.root := by
  have hexcludes : a.excludes = barred.map ExcludePattern.forName := by
    have he := hs.excludes
    rw [hb, ExcludePattern.mapM_barring hplain] at he
    exact (Option.some.inj he).symm
  simp only [ReachesAbove, hexcludes, List.mem_map, exists_exists_and_eq_and]
  refine exists_congr fun name => and_congr_right fun hm => ?_
  exact ExcludePattern.reachesAbove_forName (hplain name hm) hne

/-! ### The files to check -/

/-- Whether a file is a module, its name decides. -/
theorem isModulePath_goDown {root : List Char} (hr : root ≠ []) (h : ∀ name ∈ names, IsName name)
    (hne : names ≠ []) : isModulePath (goDown root names) = isModulePath (joinPieces names) := by
  have hname : fileName? (goDown root names) = fileName? (joinPieces names) := by
    rw [fileName?, fileName?, components_goDown hr h hne, components_joinPieces_names h hne,
      List.getLast?_append_of_ne_nil _ (by simpa using hne)]
  simp only [isModulePath, extension?, hname]

/-- The order of paths below one root. -/
def stepsLE (names names' : List (List Char)) : Bool :=
  componentsLE (names.map Component.name) (names'.map Component.name)

theorem modulesAmong_goDown (hr : a.root ≠ [])
    (h : ∀ names ∈ steps, names ≠ [] ∧ ∀ name ∈ names, IsName name) :
    a.modulesAmong (steps.map (goDown a.root)) =
      ((steps.filter fun names => isModulePath (joinPieces names) &&
        !a.isExcluded (goDown a.root names)).mergeSort stepsLE).map (goDown a.root) := by
  have hfilter : (steps.map (goDown a.root)).filter
        (fun path => isModulePath path && !a.isExcluded path) =
      (steps.filter fun names => isModulePath (joinPieces names) &&
        !a.isExcluded (goDown a.root names)).map (goDown a.root) := by
    rw [List.filter_map]
    congr 1
    apply List.filter_congr
    intro names hm
    rw [Function.comp_apply, isModulePath_goDown hr (h names hm).2 (h names hm).1]
  rw [modulesAmong, hfilter, List.map_mergeSort]
  intro names hm names' hm'
  obtain ⟨hne, hn⟩ := h names (List.mem_filter.mp hm).1
  obtain ⟨hne', hn'⟩ := h names' (List.mem_filter.mp hm').1
  rw [pathLE, components_goDown hr hn hne, components_goDown hr hn' hne', stepsLE, componentsLE,
    lexLE_append]

/-! ### What becomes of the files -/

theorem collect_under (fail : Bool) (root : List Char) (report : Report)
    (results : List (List Char × FileResult)) :
    collect fail report (results.map fun entry => (join root entry.1, entry.2)) =
      (collect fail report results).under root := by
  induction results generalizing report with
  | nil => rfl
  | cons entry results ih =>
    obtain ⟨path, result⟩ := entry
    cases result with
    | checked violations => exact ih _
    | unreadable => rfl
    | unparsable =>
      cases fail with
      | true => rfl
      | false =>
        simp only [List.map_cons, collect, ih, Bool.false_eq_true, if_false]
        rfl

/-- The analysis of files given by names below a root, what becomes of each of them being known. -/
def outcomeOf (fail : Bool) (files : List (List (List Char)))
    (result : List (List Char) → FileResult) : Outcome :=
  let outcome := collect fail {} (files.map fun names => (joinPieces names, result names))
  { outcome with result := outcome.result.map sorted }

theorem runOn_goDown (a : Analyzer) (read? : List Char → Option (List Char))
    (files : List (List (List Char))) (result : List (List Char) → FileResult)
    (h : ∀ names ∈ files, a.checkFile Rule.checks (goDown a.root names)
      (read? (goDown a.root names)) = result names) :
    a.runOn Rule.checks read? (files.map (goDown a.root)) =
      (outcomeOf a.failOnParseError files result).under a.root := by
  have hresults : ((files.map (goDown a.root)).map fun path =>
        (path, a.checkFile Rule.checks path (read? path))) =
      (files.map fun names => (joinPieces names, result names)).map fun entry =>
        (join a.root entry.1, entry.2) := by
    rw [List.map_map, List.map_map]
    apply List.map_congr_left
    intro names hm
    rw [Function.comp_apply, h names hm]
    rfl
  rw [runOn, hresults, collect_under, outcomeOf]
  cases hc : (collect a.failOnParseError {}
      (files.map fun names => (joinPieces names, result names))).result <;>
    simp [Outcome.under, hc, Except.map, Except.mapError]

/-- Two analyses with the same settings make the same of a content, if they show it alike. -/
theorem checkFile_congr (hs : a'.settings = a.settings) (ho : a'.only = a.only)
    {path path' : List Char} (hshown : relativeTo a'.base path' = relativeTo a.base path)
    (content : Option (List Char)) :
    a'.checkFile Rule.checks path' content = a.checkFile Rule.checks path content := by
  cases content with
  | none => rfl
  | some content =>
    have hreport : a'.report? content = a.report? content := by
      funext v
      rw [report?, report?, isWanted, isWanted, hs, ho]
    cases hc : Source.outline? content with
    | none => simp only [checkFile, hc]
    | some outline => simp only [checkFile, hc, flatMap_checks, hshown, hs, hreport]

/-! ### One directory at two places -/

/-- The path leads to a place where a directory with these entries is. -/
structure HasDirectory (tree : FileTree) (root : List Char) (place : List (List Char))
    (children : List Entry) : Prop where
  located : tree.locate? root = some place
  found : ∃ name, tree.root.find? place = some (.directory name children)

theorem HasDirectory.exists_directory {root : List Char}
    (h : HasDirectory tree root place children) :
    ∃ name, tree.entry? root = some (.directory name children) := by
  obtain ⟨name, hf⟩ := h.found
  unfold FileTree.entry?
  exact ⟨name, by rw [h.located, Option.bind_some, hf]⟩

theorem HasDirectory.hasFile {root : List Char} (h : HasDirectory tree root place children) :
    tree.hasFile root = false := by
  obtain ⟨name, he⟩ := h.exists_directory
  rw [FileTree.hasFile, he]

theorem HasDirectory.read?_eq {root root' : List Char} (h : HasDirectory tree root place children)
    (h' : HasDirectory tree' root' place' children) (hn : ∀ name ∈ names, IsName name)
    (hne : names ≠ []) : tree'.read? (goDown root' names) = tree.read? (goDown root names) := by
  obtain ⟨name, he⟩ := h.exists_directory
  obtain ⟨name', he'⟩ := h'.exists_directory
  obtain ⟨first, others, rfl⟩ := List.exists_cons_of_ne_nil hne
  rw [FileTree.read?, FileTree.read?, FileTree.entry?_goDown he hn hne,
    FileTree.entry?_goDown he' hn hne]
  rfl

/-- Directories with the same entries are at two paths. All entries have names that files can have,
and the ignore files above the two say the same about them. -/
structure Relocation (respectGit : Bool) (tree : FileTree) (root : List Char) (tree' : FileTree)
    (root' : List Char) (place place' : List (List Char)) (children : List Entry) : Prop where
  here : HasDirectory tree root place children
  there : HasDirectory tree' root' place' children
  named : ∀ name ∈ namesIn children, IsName name
  ignored : IgnoreRules.Agree (rulesAbove tree respectGit place)
    (rulesAbove tree' respectGit place') place place' (listedIn [] children)

/-- Two analyses check the same files below their roots and answer the same, up to the roots in
paths. -/
def AnswerAlike (a : Analyzer) (tree : FileTree) (a' : Analyzer) (tree' : FileTree) : Prop :=
  ∃ (files : List (List (List Char))) (outcome : Outcome),
    a.modulePaths tree = files.map (goDown a.root) ∧
      a'.modulePaths tree' = files.map (goDown a'.root) ∧
      a.run tree = outcome.under a.root ∧ a'.run tree' = outcome.under a'.root

section

variable {root' : Option (List Char)} (hs : SetUp tree options a)
  (hs' : SetUp tree' { options with root := root' } a')
  (hr : Relocation options.settings.files.respectGitignore tree a.root tree' a'.root place place'
    children)

include hs hs' hr

/-- Analyses that exclude the same files of the directory check the same files. -/
theorem exists_modulePaths (he : ∀ names, (names, false) ∈ listedIn [] children → names ≠ [] →
      (∀ name ∈ names, IsName name) →
      a'.isExcluded (goDown a'.root names) = a.isExcluded (goDown a.root names)) :
    ∃ files, InStep a.root a'.root (listedIn [] children) (a.modulePaths tree)
      (a'.modulePaths tree') files := by
  have hsettings : a'.settings = options.settings := hs'.settings
  obtain ⟨name, hf⟩ := hr.here.found
  obtain ⟨name', hf'⟩ := hr.there.found
  obtain ⟨steps, hnamed, hamong, hwalk, hwalk'⟩ :=
    exists_walk _ hr.here.located hr.there.located hf hf' hr.named hr.ignored
  refine ⟨(steps.filter fun names => isModulePath (joinPieces names) &&
    !a.isExcluded (goDown a.root names)).mergeSort stepsLE, ?_, ?_, ?_, ?_⟩
  · intro names hm
    rw [List.mem_mergeSort, List.mem_filter] at hm
    exact hnamed names hm.1
  · intro names hm
    rw [List.mem_mergeSort, List.mem_filter] at hm
    exact hamong names hm.1
  · rw [modulePaths, hr.here.hasFile, hs.settings, hwalk]
    exact modulesAmong_goDown hs.root_ne_nil hnamed
  · rw [modulePaths, hr.there.hasFile, hsettings, hwalk']
    refine (modulesAmong_goDown hs'.root_ne_nil hnamed).trans ?_
    congr 2
    apply List.filter_congr
    intro names hm
    rw [he names (hamong names hm) (hnamed names hm).1 (hnamed names hm).2]

/-- A file comes out the same at both places. -/
theorem checkFile_relocated (hn : ∀ name ∈ names, IsName name) (hne : names ≠ []) :
    a'.checkFile Rule.checks (goDown a'.root names) (tree'.read? (goDown a'.root names)) =
      a.checkFile Rule.checks (goDown a.root names) (tree.read? (goDown a.root names)) := by
  rw [hr.here.read?_eq hr.there hn hne]
  apply checkFile_congr (hs'.settings.trans hs.settings.symm) (hs'.only.trans hs.only.symm)
  rw [hs.base_eq_root hr.here.hasFile, hs'.base_eq_root hr.there.hasFile,
    relativeTo_goDown hs.root_ne_nil hn hne, relativeTo_goDown hs'.root_ne_nil hn hne]

theorem answerAlike_of_isExcluded (he : ∀ names, (names, false) ∈ listedIn [] children →
      names ≠ [] → (∀ name ∈ names, IsName name) →
      a'.isExcluded (goDown a'.root names) = a.isExcluded (goDown a.root names)) :
    AnswerAlike a tree a' tree' := by
  have hfail : a'.failOnParseError = a.failOnParseError :=
    hs'.failOnParseError.trans hs.failOnParseError.symm
  obtain ⟨files, hnamed, -, hpaths, hpaths'⟩ := exists_modulePaths hs hs' hr he
  refine ⟨files, outcomeOf a.failOnParseError files fun names =>
    a.checkFile Rule.checks (goDown a.root names) (tree.read? (goDown a.root names)),
    hpaths, hpaths', ?_, ?_⟩
  · rw [run, hpaths]
    exact runOn_goDown a tree.read? files _ fun _ _ => rfl
  · rw [run, hpaths', ← hfail]
    exact runOn_goDown a' tree'.read? files _ fun names hm =>
      checkFile_relocated hs hs' hr (hnamed names hm).2 (hnamed names hm).1

end

/-- With patterns that start with `**/`, a file is excluded because of what lies below the root, or
because a pattern reaches above the root. Patterns for names do so just if a name is a piece of the
root. If the patterns reach above two roots for the same files of a directory, and the ignore files
above say the same about its entries, analyses of the directory at these roots answer alike. -/
theorem relocated_answerAlike (tree tree' : FileTree) (options : Options)
    (root' : Option (List Char)) (a a' : Analyzer) (place place' : List (List Char))
    (children : List Entry)
    (hpatterns : ∀ text ∈ options.exclude ++ options.settings.files.exclude,
      "**/".toList <+: text)
    (hmake : Analyzer.make tree options = .ok a)
    (hmake' : Analyzer.make tree' { options with root := root' } = .ok a')
    (hr : Relocation options.settings.files.respectGitignore tree a.root tree' a'.root place place'
      children) :
    (∀ names, names ≠ [] → (∀ name ∈ names, IsName name) →
        (a.isExcluded (goDown a.root names) = true ↔
          a.excludesBelow (joinPieces names) = true ∨ a.ReachesAbove names)) ∧
      (∀ barred : List (List Char), options.exclude ++ options.settings.files.exclude =
          barred.map ExcludePattern.barring →
        (∀ name ∈ barred, ExcludePattern.isPlain name = true) → ∀ names, names ≠ [] →
        (a.ReachesAbove names ↔ ∃ name ∈ barred, name ∈ frontPieces a.root) ∧
          (a'.ReachesAbove names ↔ ∃ name ∈ barred, name ∈ frontPieces a'.root)) ∧
      ((∀ names, (names, false) ∈ listedIn [] children →
          a.excludesBelow (joinPieces names) = false →
          (a.ReachesAbove names ↔ a'.ReachesAbove names)) →
        AnswerAlike a tree a' tree') := by
  have hs := setUp_of_make hmake
  have hs' := setUp_of_make hmake'
  have hexcludes : a'.excludes = a.excludes := Option.some.inj (hs'.excludes.symm.trans hs.excludes)
  have hstart : ∀ p ∈ a.excludes, ∃ ws, p.wildcards = .anyPieces :: ws := by
    intro p hp
    obtain ⟨text, ht, hparse⟩ := exists_parse?_of_mem hs.excludes hp
    exact ExcludePattern.exists_wildcards_of_parse? (hpatterns text ht) hparse
  have hexcluded := fun names (hne : names ≠ []) (h : ∀ name ∈ names, IsName name) =>
    isExcluded_goDown hstart hs.root_ne_nil h hne
  refine ⟨hexcluded, ?_, ?_⟩
  · intro barred hb hplain names hne
    exact ⟨reachesAbove_barred hs hb hplain hne, reachesAbove_barred hs' hb hplain hne⟩
  · intro hreach
    refine answerAlike_of_isExcluded hs hs' hr ?_
    intro names hm hne h
    rw [Bool.eq_iff_iff, hexcluded names hne h,
      isExcluded_goDown (hexcludes ▸ hstart) hs'.root_ne_nil h hne, excludesBelow, hexcludes,
      ← excludesBelow]
    -- A file that is excluded below the root is excluded at both places anyway.
    cases hb : a.excludesBelow (joinPieces names) with
    | true => simp
    | false => simpa using (hreach names hm hb).symm

/-! ### Copies of a directory -/

/-- The entries of a directory with a module, and with another one in an environment. -/
def labEntries : List Entry :=
  [.file "scan.py".toList "from labs import *\n".toUTF8,
    .directory ".venv".toList [.file "site.py".toList "import os\n".toUTF8]]

/-- The directory in four places: below an ignore file that says nothing about its entries, below a
barred name, below an ignore file that covers a module, and below nothing of the kind. -/
def copies : FileTree where
  root := .directory []
    [.directory "home".toList
        [.file ".ignore".toList "*.log\n".toUTF8, .directory "lab".toList labEntries],
      .directory "venv".toList [.directory "lab".toList labEntries],
      .directory "old".toList
        [.file ".ignore".toList "*.py\n".toUTF8, .directory "lab".toList labEntries],
      .directory "lab".toList labEntries]
  current := []

/-- The names that the usual patterns are for. -/
def usualNames : List (List Char) := [".venv".toList, "venv".toList, "__pycache__".toList]

/-- The analysis of one of the places with the usual patterns. -/
def analysisAt (root : List Char) : Analyzer where
  root := root
  base := root
  excludes := usualNames.map ExcludePattern.forName
  only := []
  failOnParseError := false
  settings := {}

theorem usualNames_plain : ∀ name ∈ usualNames, ExcludePattern.isPlain name = true := by
  decide +kernel

theorem exclude_eq_usual :
    ({} : Settings).files.exclude = usualNames.map ExcludePattern.barring := by
  decide +kernel

theorem make_copies (root : List Char) (hr : copies.absolute root = root)
    (hc : copies.contains root = true) (hf : copies.hasFile root = false) :
    Analyzer.make copies { root := some root } = .ok (analysisAt root) := by
  refine make_of_directory hr hc hf ?_
  rw [List.nil_append, exclude_eq_usual, ExcludePattern.mapM_barring usualNames_plain]

/-- What lies above the first place and the last makes no difference to the entries. -/
theorem relocation_copies : Relocation true copies "/home/lab".toList copies "/lab".toList
    ["home".toList, "lab".toList] ["lab".toList] labEntries where
  here := ⟨by decide +kernel, "lab".toList, rfl⟩
  there := ⟨by decide +kernel, "lab".toList, rfl⟩
  named := by decide +kernel
  ignored := by decide +kernel

theorem relocated_answerAlike_copies :
    AnswerAlike (analysisAt "/home/lab".toList) copies (analysisAt "/lab".toList) copies := by
  have hmake := make_copies "/home/lab".toList (by decide +kernel) (by decide +kernel)
    (by decide +kernel)
  have hmake' := make_copies "/lab".toList (by decide +kernel) (by decide +kernel)
    (by decide +kernel)
  obtain ⟨-, hbarred, halike⟩ := relocated_answerAlike copies copies
    { root := some "/home/lab".toList } (some "/lab".toList) _ _ _ _ _ (by decide +kernel) hmake
    hmake' relocation_copies
  apply halike
  intro names hm _
  have hne : names ≠ [] := by
    rintro rfl
    revert hm
    decide +kernel
  obtain ⟨hleft, hright⟩ := hbarred usualNames exclude_eq_usual usualNames_plain names hne
  rw [hleft, hright]
  decide +kernel

theorem AnswerAlike.length_eq (h : AnswerAlike a tree a' tree') :
    (a.modulePaths tree).length = (a'.modulePaths tree').length := by
  obtain ⟨files, -, hpaths, hpaths', -⟩ := h
  rw [hpaths, hpaths', List.length_map, List.length_map]

theorem length_modulePaths (hf : tree.hasFile a.root = false) :
    (a.modulePaths tree).length =
      ((walk tree a.settings.files.respectGitignore a.root).filter fun path =>
        isModulePath path && !a.isExcluded path).length := by
  rw [modulePaths, hf]
  exact List.length_mergeSort _

/-- In a directory whose path has a barred name, or with an ignore file above, the same entries are
not checked. -/
theorem not_answerAlike_copies :
    (∀ root ∈ ["/lab".toList, "/venv/lab".toList, "/old/lab".toList],
        Analyzer.make copies { root := some root } = .ok (analysisAt root)) ∧
      HasDirectory copies "/lab".toList ["lab".toList] labEntries ∧
      HasDirectory copies "/venv/lab".toList ["venv".toList, "lab".toList] labEntries ∧
      HasDirectory copies "/old/lab".toList ["old".toList, "lab".toList] labEntries ∧
      ¬AnswerAlike (analysisAt "/lab".toList) copies (analysisAt "/venv/lab".toList) copies ∧
      ¬AnswerAlike (analysisAt "/lab".toList) copies (analysisAt "/old/lab".toList) copies := by
  have hlab : ((analysisAt "/lab".toList).modulePaths copies).length = 1 :=
    (length_modulePaths (by decide +kernel)).trans (by decide +kernel)
  have hvenv : ((analysisAt "/venv/lab".toList).modulePaths copies).length = 0 :=
    (length_modulePaths (by decide +kernel)).trans (by decide +kernel)
  have hold : ((analysisAt "/old/lab".toList).modulePaths copies).length = 0 :=
    (length_modulePaths (by decide +kernel)).trans (by decide +kernel)
  have hmake : ∀ root ∈ ["/lab".toList, "/venv/lab".toList, "/old/lab".toList],
      copies.absolute root = root ∧ copies.contains root = true ∧ copies.hasFile root = false := by
    decide +kernel
  refine ⟨fun root hm => ?_, relocation_copies.there, ⟨by decide +kernel, "lab".toList, rfl⟩,
    ⟨by decide +kernel, "lab".toList, rfl⟩, ?_, ?_⟩
  · obtain ⟨hr, hc, hf⟩ := hmake root hm
    exact make_copies root hr hc hf
  · intro h
    have hlength := h.length_eq
    rw [hlab, hvenv] at hlength
    cases hlength
  · intro h
    have hlength := h.length_eq
    rw [hlab, hold] at hlength
    cases hlength

end Analyzer

end TableLint.Analysis
