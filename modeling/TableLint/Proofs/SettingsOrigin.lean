import TableLint.CommandLine.Run
import TableLint.Proofs.Paths

/-!
Finding settings and loading them. The files that settings may come from are looked at in a fixed
order, and the first that has something to say is taken. So nothing that comes after it has any
influence. Finding and loading look at the same texts: a file that was taken for its settings has
them, or is reported as malformed.
-/
namespace TableLint.Settings

open TableLint.Tree

variable {tree other : FileTree} {directory path text name : List Char}
  {global : Option (List Char)} {origin : Origin}

/-! ### The order of the files -/

/-- The files that settings may come from if none is named, the first ones first. -/
def candidates (directory : List Char) (global : Option (List Char)) : List Origin :=
  settingsNames.map (fun name => .project (join directory name)) ++
    .projectFile (join directory projectFileName) ::
      (global.map fun home => Origin.global (join home "config.toml".toList)).toList

/-- The origin has something to say in the tree. -/
def Origin.counts (tree : FileTree) : Origin → Bool
  | .project path | .global path => tree.contains path
  | .projectFile path => (tree.read? path).any hasSettings
  | .explicit _ | .default => true

/-- The settings come from the first file that counts. -/
theorem findIn_eq (tree : FileTree) (directory : List Char) (global : Option (List Char)) :
    findIn tree directory none global =
      ((candidates directory global).find? (·.counts tree)).getD .default := by
  have hproject : (settingsNames.map fun name => Origin.project (join directory name)).find?
      (·.counts tree) =
        ((settingsNames.map (join directory)).find? tree.contains).map Origin.project := by
    rw [List.find?_map, List.find?_map, Option.map_map]
    rfl
  rw [candidates, List.find?_append, hproject, List.find?_cons, findIn]
  cases (settingsNames.map (join directory)).find? tree.contains with
  | some path => rfl
  | none =>
    simp only [Option.map_none, Option.none_or, Origin.counts]
    cases (tree.read? (join directory projectFileName)).any hasSettings with
    | true => rfl
    | false =>
      cases global with
      | none => rfl
      | some home =>
        simp only [Option.map_some, Option.toList_some, List.find?_cons, List.find?_nil]
        generalize join home "config.toml".toList = path
        cases hc : tree.contains path <;> simp [hc, Option.filter]

/-- The candidates that come before an origin, and the origin itself. -/
def notAfter (directory : List Char) (global : Option (List Char)) (origin : Origin) :
    List Origin :=
  (candidates directory global).takeWhile (· != origin) ++ [origin]

/-- In both trees something is at the path, or nothing is, and its text is the same. -/
structure LooksAlike (tree other : FileTree) (path : List Char) : Prop where
  contains : other.contains path = tree.contains path
  read? : other.read? path = tree.read? path

theorem counts_of_looksAlike (h : ∀ path, origin.path? = some path → LooksAlike tree other path) :
    origin.counts other = origin.counts tree := by
  cases origin with
  | project path => exact (h path rfl).contains
  | global path => exact (h path rfl).contains
  | projectFile path => simp only [Origin.counts, (h path rfl).read?]
  | explicit path => rfl
  | default => rfl

/-- What a search finds depends on the elements up to it only. -/
theorem getD_find?_congr {α : Type} [DecidableEq α] {p q : α → Bool} {xs : List α} {d : α}
    (hd : d ∉ xs)
    (h : ∀ a ∈ xs.takeWhile (· != (xs.find? p).getD d) ++ [(xs.find? p).getD d], q a = p a) :
    (xs.find? q).getD d = (xs.find? p).getD d := by
  induction xs with
  | nil => rfl
  | cons x xs ih =>
    rw [List.mem_cons, not_or] at hd
    cases hp : p x with
    | true =>
      have hq : q x = true := by
        rw [← hp]
        apply h
        simp [hp]
      simp [hp, hq]
    | false =>
      have hne : x ≠ (xs.find? p).getD d := by
        cases hf : xs.find? p with
        | none => exact Ne.symm hd.1
        | some b =>
          rintro rfl
          simp [List.find?_some hf] at hp
      have hb : (x != (xs.find? p).getD d) = true := by simpa using hne
      simp only [List.find?_cons, hp, List.takeWhile_cons, hb, if_true, List.cons_append,
        List.mem_cons, forall_eq_or_imp] at h ⊢
      rw [h.1]
      exact ih hd.2 h.2

theorem default_not_mem_candidates : Origin.default ∉ candidates directory global := by
  cases global <;> simp [candidates]

/-- Files that come after the one that was found have no influence. -/
theorem findIn_of_looksAlike
    (h : ∀ c ∈ notAfter directory global (findIn tree directory none global),
      ∀ path, c.path? = some path → LooksAlike tree other path) :
    findIn other directory none global = findIn tree directory none global := by
  rw [findIn_eq] at h ⊢
  rw [findIn_eq]
  apply getD_find?_congr default_not_mem_candidates
  intro c hc
  exact counts_of_looksAlike (h c hc)

/-- An origin that was found is a candidate that counts, or there is none. -/
theorem mem_candidates_of_findIn (h : findIn tree directory none global = origin)
    (hne : origin ≠ .default) :
    origin ∈ candidates directory global ∧ origin.counts tree = true := by
  rw [findIn_eq] at h
  cases hf : (candidates directory global).find? (·.counts tree) with
  | none =>
    rw [hf] at h
    exact absurd h.symm hne
  | some found =>
    rw [hf] at h
    obtain rfl : found = origin := h
    exact ⟨List.mem_of_find?_eq_some hf, List.find?_some hf⟩

/-! ### Loading -/

theorem fileName?_join (h : IsName name) (directory : List Char) :
    fileName? (join directory name) = some name := by
  have hnames : ∀ n ∈ [name], IsName n := by
    intro n hn
    rw [List.mem_singleton.mp hn]
    exact h
  have hlast : (components (join directory name)).getLast? = some (.name name) := by
    by_cases hd : directory = []
    · have hj : join directory name = joinPieces [name] := by
        have ha := h.isAbsolute_append []
        rw [List.append_nil] at ha
        simp [join, hd, ha, joinPieces]
      rw [hj, components_joinPieces_names hnames (by simp)]
      rfl
    · have hj : join directory name = goDown directory [name] := rfl
      rw [hj, components_goDown hd hnames (by simp), List.map_singleton, List.getLast?_concat]
  rw [fileName?, hlast]

theorem isName_projectFileName : IsName projectFileName := by decide

/-- The other files that settings are found in are not read as project files. -/
theorem fileName?_ne_projectFileName (h : origin ∈ candidates directory global)
    (hp : origin.path? = some path) (hn : origin ≠ .projectFile path) :
    fileName? path ≠ some projectFileName := by
  have hother : ∀ name ∈ "config.toml".toList :: settingsNames,
      IsName name ∧ name ≠ projectFileName := by decide
  rw [candidates, List.mem_append, List.mem_cons, List.mem_map] at h
  rcases h with ⟨name, hm, rfl⟩ | rfl | hg
  · obtain rfl := Option.some.inj hp
    obtain ⟨hname, hne⟩ := hother name (List.mem_cons_of_mem _ hm)
    rw [fileName?_join hname]
    exact fun he => hne (Option.some.inj he)
  · obtain rfl := Option.some.inj hp
    exact absurd rfl hn
  · obtain ⟨home, -, rfl⟩ := Option.map_eq_some_iff.mp (Option.mem_toList.mp hg)
    obtain rfl := Option.some.inj hp
    obtain ⟨hname, hne⟩ := hother _ List.mem_cons_self
    rw [fileName?_join hname]
    exact fun he => hne (Option.some.inj he)

/-- Only project files can lack a table. -/
theorem load_ne_missingTable (h : fileName? path ≠ some projectFileName) :
    load tree path ≠ .error .missingTable := by
  have hb : (fileName? path == some projectFileName) = false := beq_eq_false_iff_ne.mpr h
  rw [load]
  cases tree.read? path with
  | none => simp
  | some text =>
    simp only [hb, Bool.false_eq_true, if_false, parse]
    split <;> simp

/-- The text of a project file is no TOML, or what it says about this tool cannot be settings. -/
def MalformedProject (text : List Char) : Prop :=
  Toml.parse? text = none ∨
    ∃ entries tool, Toml.parse? text = some entries ∧ entries.lookup "tool".toList = some tool ∧
      ((∀ form tools, tool ≠ .table form tools) ∧ (∀ s, tool ≠ .dateTime s) ∨
        ∃ form tools v, tool = .table form tools ∧ tools.lookup "dj-lint".toList = some v ∧
          readSettings? .project v = none)

theorem parseProject_of_malformed (h : MalformedProject text) :
    parseProject text = .error .malformed := by
  rw [parseProject]
  rcases h with hn | ⟨entries, tool, hp, ht, h⟩
  · simp only [hn]
  · simp only [hp, ht]
    rcases h with ⟨htable, hdate⟩ | ⟨form, tools, v, rfl, hv, hr⟩
    · cases tool with
      | table form tools => exact absurd rfl (htable form tools)
      | dateTime s => exact absurd rfl (hdate s)
      | string | integer | float | boolean | array | tables => rfl
    · simp only [hv, hr]

theorem problem_of_parseProject {problem : Problem} (h : parseProject text = .error problem) :
    problem = .malformed := by
  rw [parseProject] at h
  split at h
  · exact (Except.error.inj h).symm
  · split at h
    · cases h
    · cases h
    · split at h
      · cases h
      · split at h
        · cases h
        · exact (Except.error.inj h).symm
    · exact (Except.error.inj h).symm

theorem load_project (hn : fileName? path = some projectFileName)
    (hr : tree.read? path = some text) :
    load tree path =
      (parseProject text).bind fun found => found.elim (.error .missingTable) .ok := by
  simp only [load, hr, hn, beq_self_eq_true, if_true]
  cases parseProject text with
  | error problem => rfl
  | ok found => cases found <;> rfl

/-- A project file that speaks of this tool has settings or is malformed. -/
theorem load_of_hasSettings (hn : fileName? path = some projectFileName)
    (hr : tree.read? path = some text) (hs : hasSettings text = true) :
    (∃ settings, load tree path = .ok settings) ∨ load tree path = .error .malformed := by
  rw [load_project hn hr]
  rw [hasSettings] at hs
  cases hp : parseProject text with
  | error problem =>
    rw [problem_of_parseProject hp]
    exact .inr rfl
  | ok found =>
    cases found with
    | none => simp [hp] at hs
    | some settings => exact .inl ⟨settings, rfl⟩

/-- So it is with every project file that was found. -/
theorem load_of_findIn (h : findIn tree directory none global = .projectFile path) :
    (∃ settings, load tree path = .ok settings) ∨ load tree path = .error .malformed := by
  obtain ⟨hm, hc⟩ := mem_candidates_of_findIn h (by simp)
  obtain ⟨text, hr, hs⟩ : ∃ text, tree.read? path = some text ∧ hasSettings text = true := by
    rw [Origin.counts] at hc
    cases hr : tree.read? path with
    | none => simp [hr] at hc
    | some text => exact ⟨text, rfl, by simpa [hr] using hc⟩
  have hpath : path = join directory projectFileName := by
    simpa [candidates] using hm
  refine load_of_hasSettings ?_ hr hs
  rw [hpath]
  exact fileName?_join isName_projectFileName directory

/-- Without a file of its own, a project has its settings in its project file if that speaks of this
tool. -/
theorem findIn_projectFile
    (hnone : ∀ name ∈ settingsNames, tree.contains (join directory name) = false)
    (hr : tree.read? (join directory projectFileName) = some text) (hs : hasSettings text = true) :
    findIn tree directory none global = .projectFile (join directory projectFileName) := by
  have hproject : (settingsNames.map (join directory)).find? tree.contains = none := by
    rw [List.find?_eq_none]
    intro path hm
    obtain ⟨name, hname, rfl⟩ := List.mem_map.mp hm
    simp [hnone name hname]
  simp [findIn, hproject, hr, hs]

end TableLint.Settings

namespace TableLint.CommandLine

open Settings TableLint.Tree

/-- Where no settings are named, files after the one that was found have no influence on what is
found. What was found can be loaded but for a file that cannot be read or is malformed; a project
file can be read. A project file that is malformed is found and reported, unless the project has a
settings file, whatever the user has set. -/
theorem settingsAt_findIn (tree : FileTree) (directory : List Char) (global : Option (List Char)) :
    (∀ other, (∀ c ∈ notAfter directory global (findIn tree directory none global),
        ∀ path, c.path? = some path → LooksAlike tree other path) →
      findIn other directory none global = findIn tree directory none global) ∧
      settingsAt tree (findIn tree directory none global) ≠ .error .missingTable ∧
      (∀ path, findIn tree directory none global = .projectFile path →
        settingsAt tree (findIn tree directory none global) ≠ .error .unreadable) ∧
      ∀ text, (∀ name ∈ settingsNames, tree.contains (join directory name) = false) →
        tree.read? (join directory projectFileName) = some text → MalformedProject text →
          findIn tree directory none global = .projectFile (join directory projectFileName) ∧
            settingsAt tree (findIn tree directory none global) = .error .malformed := by
  refine ⟨fun other => findIn_of_looksAlike, ?_, ?_, ?_⟩
  · cases hp : (findIn tree directory none global).path? with
    | none => simp [settingsAt, hp]
    | some path =>
      have hload : settingsAt tree (findIn tree directory none global) = load tree path := by
        simp only [settingsAt, hp]
      rw [hload]
      by_cases hproject : findIn tree directory none global = .projectFile path
      · rcases load_of_findIn hproject with ⟨settings, h⟩ | h <;> simp [h]
      · have hne : findIn tree directory none global ≠ .default := by
          intro he
          rw [he] at hp
          cases hp
        exact load_ne_missingTable
          (fileName?_ne_projectFileName (mem_candidates_of_findIn rfl hne).1 hp hproject)
  · intro path hproject
    rw [hproject]
    rcases load_of_findIn hproject with ⟨settings, h⟩ | h <;> simp [settingsAt, Origin.path?, h]
  · intro text hnone hr hm
    have hs : hasSettings text = true := by
      rw [hasSettings, parseProject_of_malformed hm]
    have hfound : findIn tree directory none global =
        .projectFile (join directory projectFileName) := findIn_projectFile hnone hr hs
    refine ⟨hfound, ?_⟩
    have hload := load_project (fileName?_join isName_projectFileName directory) hr
    rw [parseProject_of_malformed hm] at hload
    rw [hfound]
    exact hload

/-- A project file with an open bracket, and a user with settings. -/
def brokenProject : FileTree where
  root := .directory []
    [.directory "home".toList [.file "config.toml".toList .empty],
      .file "pyproject.toml".toList "[tool.dj-lint\n".toUTF8]
  current := []

/-- The same project, and a user without settings. -/
def brokenProjectAlone : FileTree where
  root := .directory [] [.file "pyproject.toml".toList "[tool.dj-lint\n".toUTF8]
  current := []

theorem settingsAt_findIn_broken :
    settingsAt brokenProject (findIn brokenProject ['.'] none (some "home".toList)) =
        .error .malformed ∧
      findIn brokenProjectAlone ['.'] none (some "home".toList) =
        findIn brokenProject ['.'] none (some "home".toList) := by
  have h := settingsAt_findIn brokenProject ['.'] (some "home".toList)
  have hread : brokenProject.read? (join ['.'] projectFileName) =
      some "[tool.dj-lint\n".toList := by decide +kernel
  have hmalformed : MalformedProject "[tool.dj-lint\n".toList :=
    .inl (Option.isNone_iff_eq_none.mp (by decide +kernel))
  obtain ⟨hfound, hload⟩ := h.2.2.2 _ (by decide +kernel) hread hmalformed
  refine ⟨hload, h.1 brokenProjectAlone ?_⟩
  have halike : ∀ c ∈ notAfter ['.'] (some "home".toList)
      (.projectFile (join ['.'] projectFileName)), ∀ path ∈ c.path?,
        brokenProjectAlone.contains path = brokenProject.contains path ∧
          brokenProjectAlone.read? path = brokenProject.read? path := by decide +kernel
  rw [hfound]
  intro c hc path hp
  exact ⟨(halike c hc path hp).1, (halike c hc path hp).2⟩

end TableLint.CommandLine
