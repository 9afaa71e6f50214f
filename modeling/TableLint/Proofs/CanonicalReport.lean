import Mathlib.Data.List.Nodup
import TableLint.Proofs.Collecting
import TableLint.Proofs.ModuleBlocks

/-!
The order in which files are found makes no difference. Files are checked in the order of their
paths and the violations are sorted once more at the end, by the paths that are reported; as these
are in the same order, that sorts only within each file. So a report has one block for each file,
and a problem is that of the first file that has one.
-/
namespace TableLint.Analysis.Analyzer

open Report TableLint.Tree

variable {a : Analyzer} {tree : FileTree} {paths others : List (List Char)}
  {path content : List Char} {v w : Violation}

/-! ### What is said of a file -/

/-- Why the file at a path ends the analysis, if it does. -/
def problemAt? (a : Analyzer) (tree : FileTree) (path : List Char) : Option Problem :=
  match tree.read? path with
  | none => some .unreadable
  | some content =>
    if a.failOnParseError && (Source.outline? content).isNone then some (.unparsable path) else none

/-- The file at a path can be read and parsed. -/
def parses (tree : FileTree) (path : List Char) : Bool :=
  ((tree.read? path).bind Source.outline?).isSome

/-- What is reported in the file at a path, in the order in which it is found. -/
def violationsAt (a : Analyzer) (tree : FileTree) (path : List Char) : List Violation :=
  match tree.read? path with
  | none => []
  | some content =>
    match Source.outline? content with
    | none => []
    | some outline =>
      (Rule.checkModule a.settings.tables (relativeTo a.base path) outline).filterMap
        (a.report? content)

theorem checkFile_problem? (a : Analyzer) (tree : FileTree) (path : List Char) :
    (a.checkFile Rule.checks path (tree.read? path)).problem? a.failOnParseError path =
      a.problemAt? tree path := by
  rw [problemAt?]
  cases tree.read? path with
  | none => rfl
  | some content => cases ho : Source.outline? content <;> simp [checkFile, ho, FileResult.problem?]

theorem checkFile_violations (a : Analyzer) (tree : FileTree) (path : List Char) :
    (a.checkFile Rule.checks path (tree.read? path)).violations = a.violationsAt tree path := by
  rw [violationsAt]
  cases tree.read? path with
  | none => rfl
  | some content =>
    cases ho : Source.outline? content with
    | none => simp only [checkFile, ho, FileResult.violations, FileResult.violations?, Option.getD]
    | some outline =>
      simp only [checkFile, ho, flatMap_checks, FileResult.violations, FileResult.violations?,
        Option.getD]

theorem checkFile_isSome (a : Analyzer) (tree : FileTree) (path : List Char) :
    (a.checkFile Rule.checks path (tree.read? path)).violations?.isSome = parses tree path := by
  rw [parses]
  cases tree.read? path with
  | none => rfl
  | some content =>
    cases ho : Source.outline? content <;> simp [checkFile, ho, FileResult.violations?]

theorem violationsAt_of_not_parses (h : parses tree path = false) :
    a.violationsAt tree path = [] := by
  rw [parses] at h
  rw [violationsAt]
  cases hr : tree.read? path with
  | none => rfl
  | some content =>
    rw [hr, Option.bind_some, Option.isSome_eq_false_iff, Option.isNone_iff_eq_none] at h
    simp only [h]

theorem location_of_report? (h : a.report? content v = some w) : w.location = v.location := by
  rw [report?] at h
  split at h
  · cases h
    rfl
  · cases h

/-- All that is found in a file has its place there. -/
theorem file_of_mem_checkModule {settings : Settings.Tables} {file : List Char}
    {outline : Source.Outline} (h : v ∈ Rule.checkModule settings file outline) :
    v.location.file = file := by
  rw [Rule.checkModule_eq, List.mem_append] at h
  rcases h with h | h
  · obtain ⟨i, -, rfl⟩ := List.mem_map.mp h
    rfl
  · obtain ⟨c, -, h⟩ := List.mem_flatMap.mp h
    rw [Rule.classBlock] at h
    split at h
    · cases h
    · obtain ⟨finding, -, rfl⟩ := List.mem_map.mp h
      rfl

theorem file_of_mem_violationsAt (h : v ∈ a.violationsAt tree path) :
    v.location.file = relativeTo a.base path := by
  rw [violationsAt] at h
  split at h
  · cases h
  · split at h
    · cases h
    · obtain ⟨u, hu, hv⟩ := List.mem_filterMap.mp h
      rw [location_of_report? hv]
      exact file_of_mem_checkModule hu

/-! ### The files to check -/

/-- The path was found, and is one of a module that is not excluded. -/
structure IsChosen (a : Analyzer) (paths : List (List Char)) (path : List Char) : Prop where
  found : path ∈ paths
  isModule : isModulePath path = true
  notExcluded : a.isExcluded path = false

/-- The path comes before another. Paths are the same if their components are. -/
def ComesBefore (p q : List Char) : Prop := pathLE p q = true ∧ components p ≠ components q

theorem mem_modulesAmong : path ∈ a.modulesAmong paths ↔ a.IsChosen paths path := by
  rw [modulesAmong, List.mem_mergeSort, List.mem_filter, Bool.and_eq_true, Bool.not_eq_true']
  constructor
  · rintro ⟨hf, hm, he⟩
    exact ⟨hf, hm, he⟩
  · rintro ⟨hf, hm, he⟩
    exact ⟨hf, hm, he⟩

theorem pairwise_modulesAmong (a : Analyzer) (h : (paths.map components).Nodup) :
    (a.modulesAmong paths).Pairwise ComesBefore := by
  have hnodup : ((a.modulesAmong paths).map components).Nodup :=
    ((List.mergeSort_perm _ pathLE).map components).nodup_iff.mpr
      (h.sublist (List.filter_sublist.map components))
  exact (List.pairwise_mergeSort sorts_pathLE.trans sorts_pathLE.total _).and
    (List.pairwise_map.mp hnodup)

/-- Different paths are put in order, however they come. -/
theorem modulesAmong_of_perm (a : Analyzer) (h : (paths.map components).Nodup)
    (hp : paths.Perm others) :
    a.modulesAmong paths = a.modulesAmong others := by
  refine mergeSort_of_perm sorts_pathLE ?_ (hp.filter _)
  intro p hp q hq hpq hqp
  exact List.inj_on_of_nodup_map h (List.mem_filter.mp hp).1 (List.mem_filter.mp hq).1
    (components_eq_of_pathLE hpq hqp)

/-- The analysis of the files at the paths found below the root. -/
def runAmong (a : Analyzer) (tree : FileTree) (paths : List (List Char)) : Outcome :=
  a.runOn Rule.checks tree.read? (a.modulesAmong paths)

theorem run_eq_runAmong (hdir : tree.hasFile a.root = false) :
    a.run tree = a.runAmong tree (walk tree a.settings.files.respectGitignore a.root) := by
  rw [run, modulePaths, hdir]
  rfl

/-! ### One block for each file -/

/-- The violations in the order of their places, with those at one place in the order found. -/
structure StablySorted (found sorted : List Violation) : Prop where
  perm : sorted.Perm found
  ascending : sorted.Pairwise fun v w => v.location.line < w.location.line ∨
    v.location.line = w.location.line ∧ v.location.column ≤ w.location.column
  ties : ∀ line column,
    sorted.filter (fun v => v.location.line == line && v.location.column == column) =
      found.filter fun v => v.location.line == line && v.location.column == column

theorem stablySorted_mergeSort (found : List Violation) :
    StablySorted found (found.mergeSort placeLE) where
  perm := List.mergeSort_perm found placeLE
  ascending := (List.pairwise_mergeSort sorts_placeLE.trans sorts_placeLE.total found).imp
    (placeLE_iff _ _).mp
  ties line column := by
    rw [filter_mergeSort sorts_placeLE]
    apply List.mergeSort_of_pairwise
    rw [List.pairwise_filter]
    refine List.pairwise_of_forall fun v w hv hw => ?_
    simp only [Bool.and_eq_true, beq_iff_eq] at hv hw
    rw [placeLE_iff]
    omega

/-- Files in order have the violations reported in them in order. -/
theorem violationLE_of_comesBefore {p q : List Char} (hbase : a.base = a.root)
    (hroot : a.root ≠ []) (hp : LiesBelow a.root p) (hq : LiesBelow a.root q)
    (hpq : ComesBefore p q) (hv : v ∈ a.violationsAt tree p) (hw : w ∈ a.violationsAt tree q) :
    violationLE v w = true := by
  obtain ⟨restp, hrp, hcp⟩ := hp
  obtain ⟨restq, hrq, hcq⟩ := hq
  have hr : components a.root ≠ [] := components_ne_nil hroot
  have hfv : components v.location.file = restp := by
    rw [file_of_mem_violationsAt hv, hbase, components_relativeTo hr hrp hcp]
  have hfw : components w.location.file = restq := by
    rw [file_of_mem_violationsAt hw, hbase, components_relativeTo hr hrq hcq]
  -- Both paths start with the root, so what follows it decides, and that is what is reported.
  obtain ⟨hle, hne⟩ := hpq
  rw [pathLE, hcp, hcq, componentsLE, lexLE_append] at hle
  rw [hcp, hcq, ne_eq, List.append_cancel_left_eq] at hne
  rw [violationLE_of_ne (by rwa [hfv, hfw]), hfv, hfw]
  exact hle

theorem mergeSort_violationsAt (a : Analyzer) (tree : FileTree) (path : List Char) :
    (a.violationsAt tree path).mergeSort violationLE =
      (a.violationsAt tree path).mergeSort placeLE := by
  apply mergeSort_congr
  intro v hv w hw
  rw [violationLE_of_eq]
  rw [file_of_mem_violationsAt hv, file_of_mem_violationsAt hw]

/-- Files that cannot be parsed have no block. -/
theorem flatMap_filter_parses (a : Analyzer) (tree : FileTree) (files : List (List Char)) :
    ((files.filter (parses tree)).flatMap fun path =>
        (a.violationsAt tree path).mergeSort placeLE) =
      files.flatMap fun path => (a.violationsAt tree path).mergeSort placeLE := by
  induction files with
  | nil => rfl
  | cons path files ih =>
    cases hp : parses tree path with
    | true => rw [List.filter_cons_of_pos hp, List.flatMap_cons, List.flatMap_cons, ih]
    | false =>
      rw [List.filter_cons_of_neg (by simp [hp]), List.flatMap_cons,
        violationsAt_of_not_parses hp, ih]
      simp

/-- What an analysis of the files at some paths has to answer. It does not matter how the paths are
ordered. -/
inductive Canonical (a : Analyzer) (tree : FileTree) (paths : List (List Char)) :
    Except Problem Report → Prop where
  /-- One block for each file that can be parsed, if no file ends the analysis. -/
  | report (files : List (List Char)) (block : List Char → List Violation)
      (fine : ∀ path, a.IsChosen paths path → a.problemAt? tree path = none)
      (parsed : ∀ path, path ∈ files ↔ a.IsChosen paths path ∧ parses tree path = true)
      (ascending : files.Pairwise ComesBefore)
      (sorted : ∀ path ∈ files, StablySorted (a.violationsAt tree path) (block path)) :
      Canonical a tree paths
        (.ok { violations := files.flatMap block, filesChecked := files.length })
  /-- The problem of the first file that has one. -/
  | problem (path : List Char) (problem : Problem) (chosen : a.IsChosen paths path)
      (has : a.problemAt? tree path = some problem)
      (least : ∀ other, a.IsChosen paths other → (a.problemAt? tree other).isSome = true →
        pathLE path other = true) :
      Canonical a tree paths (.error problem)

theorem canonical_of_none (hbase : a.base = a.root) (hroot : a.root ≠ [])
    (hbelow : ∀ path ∈ paths, LiesBelow a.root path)
    (hdistinct : (paths.map components).Nodup)
    (h : (a.modulesAmong paths).findSome? (a.problemAt? tree) = none) :
    Canonical a tree paths (.ok
      { violations := ((a.modulesAmong paths).flatMap (a.violationsAt tree)).mergeSort violationLE
        filesChecked := (a.modulesAmong paths).countP (parses tree) }) := by
  have hascending := pairwise_modulesAmong a hdistinct
  have hlies : ∀ path ∈ a.modulesAmong paths, LiesBelow a.root path := fun path hm =>
    hbelow path (mem_modulesAmong.mp hm).found
  have hblocks : (a.modulesAmong paths).Pairwise fun p q =>
      ∀ v ∈ a.violationsAt tree p, ∀ w ∈ a.violationsAt tree q, violationLE v w = true :=
    hascending.imp_of_mem fun hp hq hpq v hv w hw =>
      violationLE_of_comesBefore hbase hroot (hlies _ hp) (hlies _ hq) hpq hv hw
  -- The last sort goes by file first, but the files are in order: it sorts within the blocks only.
  rw [mergeSort_flatMap sorts_violationLE hblocks, List.countP_eq_length_filter]
  simp only [mergeSort_violationsAt]
  rw [← flatMap_filter_parses]
  refine .report _ _ ?_ ?_ (hascending.filter _) fun path _ => stablySorted_mergeSort _
  · intro path hc
    exact List.findSome?_eq_none_iff.mp h path (mem_modulesAmong.mpr hc)
  · intro path
    rw [List.mem_filter, mem_modulesAmong]

theorem canonical_of_some {problem : Problem}
    (hdistinct : (paths.map components).Nodup)
    (h : (a.modulesAmong paths).findSome? (a.problemAt? tree) = some problem) :
    Canonical a tree paths (.error problem) := by
  obtain ⟨front, path, back, hsplit, hproblem, hfront⟩ := List.findSome?_eq_some_iff.mp h
  have hsorted := pairwise_modulesAmong a hdistinct
  rw [hsplit, List.pairwise_append, List.pairwise_cons] at hsorted
  have hchosen : a.IsChosen paths path := mem_modulesAmong.mp (by simp [hsplit])
  refine .problem path problem hchosen hproblem ?_
  intro other hc hs
  have hm := mem_modulesAmong.mpr hc
  rw [hsplit, List.mem_append, List.mem_cons] at hm
  rcases hm with hm | rfl | hm
  · rw [hfront other hm] at hs
    cases hs
  · exact sorts_pathLE.refl other
  · exact (hsorted.2.1.1 other hm).1

theorem canonical_runAmong (hbase : a.base = a.root) (hroot : a.root ≠ [])
    (hbelow : ∀ path ∈ paths, LiesBelow a.root path)
    (hdistinct : (paths.map components).Nodup) :
    Canonical a tree paths (a.runAmong tree paths).result := by
  rw [runAmong, runOn_result]
  simp only [checkFile_problem?, checkFile_violations, checkFile_isSome]
  cases h : (a.modulesAmong paths).findSome? (a.problemAt? tree) with
  | none => exact canonical_of_none hbase hroot hbelow hdistinct h
  | some problem => exact canonical_of_some hdistinct h

/-- The answer of an analysis of a directory is the same for every order in which the files below
it are found, and it is the canonical one. -/
theorem run_canonical (tree : FileTree) (options : Options) (a : Analyzer)
    (paths : List (List Char)) (hmake : Analyzer.make tree options = .ok a)
    (hdir : tree.hasFile a.root = false) (hbelow : ∀ path ∈ paths, LiesBelow a.root path)
    (hdistinct : (paths.map components).Nodup) :
    Canonical a tree paths (a.runAmong tree paths).result ∧
      (∀ others, paths.Perm others → a.runAmong tree others = a.runAmong tree paths) ∧
      (paths.Perm (walk tree a.settings.files.respectGitignore a.root) →
        a.run tree = a.runAmong tree paths) := by
  have hsetUp := setUp_of_make hmake
  have hsame : ∀ others, paths.Perm others → a.runAmong tree others = a.runAmong tree paths := by
    intro others hp
    rw [runAmong, runAmong, modulesAmong_of_perm a hdistinct hp]
  have hcanonical : Canonical a tree paths (a.runAmong tree paths).result :=
    canonical_runAmong (hsetUp.base_eq_root hdir) hsetUp.root_ne_nil hbelow hdistinct
  refine ⟨hcanonical, hsame, ?_⟩
  intro hp
  rw [run_eq_runAmong hdir, hsame _ hp]

/-- A directory in which the module `a.py` stands beside a directory `a`, with imports that are
reported. -/
def labTree : FileTree where
  root := .directory [] [.directory "lab".toList
    [.file "b.py".toList "from scans import *\n".toUTF8,
      .directory "a".toList
        [.file "x.py".toList "from scans import *\n".toUTF8, .file "notes.txt".toList .empty],
      .file "a.py".toList "class Scan(\n".toUTF8]]
  current := ["lab".toList]

/-- The analysis of the directory without patterns. -/
def labOptions : Options :=
  { root := some "/lab".toList, settings := { files := { exclude := [] } } }

def labAnalyzer : Analyzer :=
  { root := "/lab".toList, base := "/lab".toList, excludes := [], only := []
    failOnParseError := false, settings := labOptions.settings }

/-- The files of the directory, in the order of the texts of their paths. -/
def labPaths : List (List Char) :=
  ["/lab/a.py".toList, "/lab/a/notes.txt".toList, "/lab/a/x.py".toList, "/lab/b.py".toList]

/-- They are found and reported in two other orders. -/
theorem run_canonical_lab :
    Analyzer.make labTree labOptions = .ok labAnalyzer ∧
      labPaths.Perm (walk labTree true "/lab".toList) ∧
      Canonical labAnalyzer labTree labPaths (labAnalyzer.run labTree).result := by
  have hdir : labTree.hasFile "/lab".toList = false := by decide +kernel
  have hmake : Analyzer.make labTree labOptions = .ok labAnalyzer :=
    make_of_directory (by decide +kernel) (by decide +kernel) hdir rfl
  have hperm : labPaths.Perm (walk labTree true "/lab".toList) := by decide +kernel
  have hbelow : ∀ path ∈ labPaths, LiesBelow labAnalyzer.root path := by
    simp only [labPaths, List.forall_mem_cons]
    exact ⟨⟨[.name "a.py".toList], by decide +kernel⟩,
      ⟨[.name "a".toList, .name "notes.txt".toList], by decide +kernel⟩,
      ⟨[.name "a".toList, .name "x.py".toList], by decide +kernel⟩,
      ⟨[.name "b.py".toList], by decide +kernel⟩, by simp⟩
  obtain ⟨hcanonical, -, hrun⟩ :=
    run_canonical labTree labOptions labAnalyzer labPaths hmake hdir hbelow (by decide +kernel)
  exact ⟨hmake, hperm, hrun hperm ▸ hcanonical⟩

end TableLint.Analysis.Analyzer
