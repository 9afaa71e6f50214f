import TableLint.Proofs.Visibility

/-!
The violations of a module, class by class. A module is checked in two phases: the visible names are
collected from all imports and tables, then each table is judged with them. So the violations are
those of the wildcard imports, followed by one block for each class; neither the order of the
statements nor the definition of another class has a part in a block, and further imports and
classes can only shorten it.
-/
namespace TableLint.Rule

open Source (Import ClassInfo Outline Span Value)

variable {settings : Settings.Tables} {file : List Char} {names more : VisibleNames}

/-- The violations of a table, with the names visible in its file. -/
def tableBlock (settings : Settings.Tables) (file : List Char) (names : VisibleNames)
    (name : List Char) (kind : TableKind) (definition : Option Value) (span : Span) :
    List Report.Violation :=
  (judge names settings { name, kind, definition, span }).map (Finding.violation file span)

/-- The violations of a class: those of the table that it is, if it is one. -/
def classBlock (settings : Settings.Tables) (file : List Char) (names : VisibleNames)
    (c : ClassInfo) : List Report.Violation :=
  match TableKind.ofBases? settings c.bases with
  | none => []
  | some kind => tableBlock settings file names c.name kind c.definition c.span

/-- The import brings in whatever its source holds. -/
def isWildcard (i : Import) : Bool :=
  match i.imported with
  | .wildcard _ => true
  | _ => false

/-- One violation for each wildcard import. -/
def wildcardBlock (file : List Char) (imports : List Import) : List Report.Violation :=
  (imports.filter isWildcard).map fun i => Finding.violation file i.span ⟨.wildcardImport, []⟩

/-! ### The blocks of a module -/

theorem importViolation?_eq (file : List Char) (i : Import) :
    importViolation? file i =
      if isWildcard i then some (Finding.violation file i.span ⟨.wildcardImport, []⟩)
      else none := by
  obtain ⟨imported, span⟩ := i
  cases imported <;> rfl

theorem filterMap_importViolation? (file : List Char) (imports : List Import) :
    imports.filterMap (importViolation? file) = wildcardBlock file imports := by
  induction imports with
  | nil => rfl
  | cons i rest ih =>
    rw [List.filterMap_cons, importViolation?_eq, ih, wildcardBlock, wildcardBlock,
      List.filter_cons]
    cases isWildcard i <;> rfl

theorem flatMap_tableBlock (settings : Settings.Tables) (file : List Char) (names : VisibleNames)
    (classes : List ClassInfo) :
    ((classes.filterMap (Table.ofClass? settings)).flatMap fun table =>
        (judge names settings table).map (Finding.violation file table.span)) =
      classes.flatMap (classBlock settings file names) := by
  induction classes with
  | nil => rfl
  | cons c rest ih =>
    rw [List.filterMap_cons, List.flatMap_cons, ← ih, classBlock, Table.ofClass?]
    cases TableKind.ofBases? settings c.bases with
    | none => rfl
    | some kind => rfl

theorem checkModule_eq (settings : Settings.Tables) (file : List Char) (outline : Outline) :
    checkModule settings file outline =
      wildcardBlock file outline.imports ++
        outline.classes.flatMap (classBlock settings file (visibleIn settings outline)) := by
  rw [checkModule, filterMap_importViolation?, tablesOf, flatMap_tableBlock]

/-! ### The names of a module -/

/-- The class names that an import brings in. -/
def boundClasses (i : Import) : List (List Char) :=
  match i.imported with
  | .names _ names => names.map (·.bound)
  | _ => []

/-- The module names that an import brings in. -/
def boundModules (i : Import) : List (List Char) :=
  match i.imported with
  | .modules names => names.map (·.bound)
  | _ => []

/-- The class is a table. -/
def isTable (settings : Settings.Tables) (c : ClassInfo) : Bool :=
  (TableKind.ofBases? settings c.bases).isSome

theorem addImport_eq (v : VisibleNames) (i : Import) :
    v.addImport i = ⟨v.classes ++ boundClasses i, v.modules ++ boundModules i⟩ := by
  obtain ⟨imported, span⟩ := i
  cases imported <;>
    simp [VisibleNames.addImport, VisibleNames.addModules, VisibleNames.addClasses, boundClasses,
      boundModules]

theorem foldl_addImport (v : VisibleNames) (imports : List Import) :
    imports.foldl VisibleNames.addImport v =
      ⟨v.classes ++ imports.flatMap boundClasses, v.modules ++ imports.flatMap boundModules⟩ := by
  induction imports generalizing v with
  | nil => simp
  | cons i rest ih => simp [ih, addImport_eq]

theorem foldl_addTable (v : VisibleNames) (tables : List Table) :
    tables.foldl (fun v t => v.addTable t.name) v =
      ⟨v.classes ++ tables.map Table.name, v.modules⟩ := by
  induction tables generalizing v with
  | nil => simp
  | cons t rest ih =>
    rw [List.foldl_cons, ih]
    simp [VisibleNames.addTable]

theorem visibleIn_eq (settings : Settings.Tables) (outline : Outline) :
    visibleIn settings outline =
      ⟨outline.imports.flatMap boundClasses ++ (tablesOf settings outline).map Table.name,
        outline.imports.flatMap boundModules⟩ := by
  rw [visibleIn, foldl_addTable, foldl_addImport]
  rfl

theorem mem_map_name_tablesOf {outline : Outline} {name : List Char} :
    name ∈ (tablesOf settings outline).map Table.name ↔
      ∃ c ∈ outline.classes, isTable settings c = true ∧ c.name = name := by
  simp only [tablesOf, List.mem_map, List.mem_filterMap, Table.ofClass?, Option.map_eq_some_iff,
    isTable, Option.isSome_iff_exists]
  constructor
  · rintro ⟨table, ⟨c, hc, kind, hk, rfl⟩, rfl⟩
    exact ⟨c, hc, ⟨kind, hk⟩, rfl⟩
  · rintro ⟨c, hc, ⟨kind, hk⟩, rfl⟩
    exact ⟨_, ⟨c, hc, kind, hk, rfl⟩, rfl⟩

/-- The class names of a file are those of its imports and of its tables. -/
theorem mem_visibleIn_classes {outline : Outline} {name : List Char} :
    name ∈ (visibleIn settings outline).classes ↔
      (∃ i ∈ outline.imports, name ∈ boundClasses i) ∨
        ∃ c ∈ outline.classes, isTable settings c = true ∧ c.name = name := by
  rw [visibleIn_eq, List.mem_append, List.mem_flatMap, mem_map_name_tablesOf]

theorem mem_visibleIn_modules {outline : Outline} {name : List Char} :
    name ∈ (visibleIn settings outline).modules ↔
      ∃ i ∈ outline.imports, name ∈ boundModules i := by
  rw [visibleIn_eq, List.mem_flatMap]

/-- A file with the imports of another and tables of the same names sees what the other sees. -/
theorem visibleIn_within {old new : Outline} (hi : old.imports ⊆ new.imports)
    (hc : ∀ c ∈ old.classes, ∃ d ∈ new.classes, d.name = c.name ∧ d.bases = c.bases) :
    (visibleIn settings old).Within (visibleIn settings new) where
  classes := by
    intro name hn
    rw [mem_visibleIn_classes] at hn ⊢
    rcases hn with ⟨i, hm, hb⟩ | ⟨c, hm, ht, rfl⟩
    · exact .inl ⟨i, hi hm, hb⟩
    · obtain ⟨d, hd, hname, hbases⟩ := hc c hm
      exact .inr ⟨d, hd, by rwa [isTable, hbases], hname⟩
  modules := by
    intro name hn
    rw [mem_visibleIn_modules] at hn ⊢
    obtain ⟨i, hm, hb⟩ := hn
    exact ⟨i, hi hm, hb⟩

theorem visibleIn_within_of_subset {old new : Outline} (hi : old.imports ⊆ new.imports)
    (hc : old.classes ⊆ new.classes) :
    (visibleIn settings old).Within (visibleIn settings new) :=
  visibleIn_within hi fun c hm => ⟨c, hc hm, rfl, rfl⟩

/-! ### What a block depends on -/

/-- The same names in another order, or repeated, make the same block. -/
theorem tableBlock_of_within_of_within (h : names.Within more) (h' : more.Within names)
    (name : List Char) (kind : TableKind) (definition : Option Value) (span : Span) :
    tableBlock settings file more name kind definition span =
      tableBlock settings file names name kind definition span := by
  rw [tableBlock, tableBlock, judge_of_within_of_within h h']

theorem classBlock_of_within_of_within (h : names.Within more) (h' : more.Within names) :
    classBlock settings file more = classBlock settings file names := by
  funext c
  rw [classBlock, classBlock]
  cases TableKind.ofBases? settings c.bases with
  | none => rfl
  | some kind => exact tableBlock_of_within_of_within h h' _ _ _ _

/-- More names can only take the last violation from a block. -/
theorem classBlock_isPrefix_of_within (h : names.Within more) (c : ClassInfo) :
    classBlock settings file more c <+: classBlock settings file names c := by
  rw [classBlock, classBlock]
  cases TableKind.ofBases? settings c.bases with
  | none => exact List.prefix_rfl
  | some kind =>
    rcases judge_of_within h settings ⟨c.name, kind, c.definition, c.span, none⟩ with
      he | ⟨finding, he, -⟩
    · simp only [tableBlock, he]
      exact List.prefix_rfl
    · simp only [tableBlock, he, List.map_append]
      exact List.prefix_append _ _

theorem wildcardBlock_perm {imports imports' : List Import} (h : imports.Perm imports') :
    (wildcardBlock file imports).Perm (wildcardBlock file imports') :=
  (h.filter isWildcard).map _

theorem wildcardBlock_insert {i : Import} (h : isWildcard i = false) {before after : List Import} :
    wildcardBlock file (before ++ i :: after) = wildcardBlock file (before ++ after) := by
  rw [wildcardBlock, wildcardBlock, List.filter_append, List.filter_append,
    List.filter_cons_of_neg (by simp [h])]

/-- Outlines that bring in the same names are checked with the same blocks. -/
theorem checkModule_of_sameNames {outline other : Outline}
    (h : (visibleIn settings outline).Within (visibleIn settings other))
    (h' : (visibleIn settings other).Within (visibleIn settings outline)) :
    checkModule settings file other =
      wildcardBlock file other.imports ++
        other.classes.flatMap (classBlock settings file (visibleIn settings outline)) := by
  rw [checkModule_eq, classBlock_of_within_of_within h h']

theorem checkModule_of_perm {outline other : Outline} (hi : other.imports.Perm outline.imports)
    (hc : other.classes.Perm outline.classes) :
    checkModule settings file other =
      wildcardBlock file other.imports ++
        other.classes.flatMap (classBlock settings file (visibleIn settings outline)) :=
  checkModule_of_sameNames (visibleIn_within_of_subset hi.symm.subset hc.symm.subset)
    (visibleIn_within_of_subset hi.subset hc.subset)

theorem exists_sameHead {before after : List ClassInfo} {c d : ClassInfo} (hn : d.name = c.name)
    (hb : d.bases = c.bases) : ∀ x ∈ before ++ c :: after,
      ∃ y ∈ before ++ d :: after, y.name = x.name ∧ y.bases = x.bases := by
  intro x hx
  rcases List.mem_append.mp hx with hbefore | hrest
  · exact ⟨x, List.mem_append_left _ hbefore, rfl, rfl⟩
  · rcases List.mem_cons.mp hrest with rfl | hafter
    · exact ⟨d, by simp, hn, hb⟩
    · exact ⟨x, by simp [hafter], rfl, rfl⟩

theorem checkModule_of_definition {outline : Outline} {before after : List ClassInfo}
    {c : ClassInfo} (hc : outline.classes = before ++ c :: after) (value : Option Value) :
    checkModule settings file
        { outline with classes := before ++ { c with definition := value } :: after } =
      wildcardBlock file outline.imports ++
        (before ++ { c with definition := value } :: after).flatMap
          (classBlock settings file (visibleIn settings outline)) := by
  refine checkModule_of_sameNames (visibleIn_within (List.Subset.refl _) ?_)
    (visibleIn_within (List.Subset.refl _) ?_)
  · rw [hc]
    exact exists_sameHead rfl rfl
  · rw [hc]
    exact exists_sameHead rfl rfl

/-- A module is checked in blocks: its wildcard imports in their order, then its classes in theirs.
A block is made from the data of its class and the set of names that the file brings in anywhere.
So another order of imports and classes gives the same blocks in that order, and another definition
of one class leaves the blocks of all others as they are. -/
theorem checkModule_blocks (settings : Settings.Tables) (file : List Char) (outline : Outline) :
    checkModule settings file outline =
        wildcardBlock file outline.imports ++
          outline.classes.flatMap (classBlock settings file (visibleIn settings outline)) ∧
      (∀ name, name ∈ (visibleIn settings outline).classes ↔
        (∃ i ∈ outline.imports, name ∈ boundClasses i) ∨
          ∃ c ∈ outline.classes, isTable settings c = true ∧ c.name = name) ∧
      (∀ name, name ∈ (visibleIn settings outline).modules ↔
        ∃ i ∈ outline.imports, name ∈ boundModules i) ∧
      (∀ names more : VisibleNames, names.Within more → more.Within names →
        ∀ name kind definition span, tableBlock settings file more name kind definition span =
          tableBlock settings file names name kind definition span) ∧
      (∀ other : Outline, other.imports.Perm outline.imports →
        other.classes.Perm outline.classes →
        checkModule settings file other =
            wildcardBlock file other.imports ++
              other.classes.flatMap (classBlock settings file (visibleIn settings outline)) ∧
          (checkModule settings file other).Perm (checkModule settings file outline)) ∧
      ∀ before c after value, outline.classes = before ++ c :: after →
        checkModule settings file
            { outline with classes := before ++ { c with definition := value } :: after } =
          wildcardBlock file outline.imports ++
            (before.flatMap (classBlock settings file (visibleIn settings outline)) ++
              (classBlock settings file (visibleIn settings outline)
                  { c with definition := value } ++
                after.flatMap (classBlock settings file (visibleIn settings outline)))) := by
  refine ⟨checkModule_eq settings file outline, fun _ => mem_visibleIn_classes,
    fun _ => mem_visibleIn_modules, fun _ _ => tableBlock_of_within_of_within, ?_, ?_⟩
  · intro other hi hc
    refine ⟨checkModule_of_perm hi hc, ?_⟩
    rw [checkModule_of_perm hi hc, checkModule_eq]
    exact (wildcardBlock_perm hi).append (hc.flatMap_right _)
  · intro before c after value hc
    rw [checkModule_of_definition hc, List.flatMap_append, List.flatMap_cons]

/-- A table with one reference, and the table it means. -/
def sessionClass : ClassInfo :=
  { name := "Session".toList, bases := ["dj.Manual".toList]
    definition := some (.literal "-> Subject".toList) }

def subjectClass : ClassInfo :=
  { name := "Subject".toList, bases := ["dj.Manual".toList]
    definition := some (.literal "subject_id : int".toList) }

/-- A reference to a later class is as good as one to an earlier class. -/
theorem checkModule_blocks_forward :
    [sessionClass, subjectClass].Perm [subjectClass, sessionClass] ∧
      checkModule {} [] { classes := [subjectClass, sessionClass] } = [] ∧
      checkModule {} [] { classes := [sessionClass, subjectClass] } = [] := by
  have hp : [sessionClass, subjectClass].Perm [subjectClass, sessionClass] := .swap _ _ _
  have hback : checkModule {} [] { classes := [subjectClass, sessionClass] } = [] := by
    decide +kernel
  obtain ⟨-, -, -, -, hperm, -⟩ :=
    checkModule_blocks {} [] { classes := [subjectClass, sessionClass] }
  have hforward := (hperm { classes := [sessionClass, subjectClass] } .rfl hp).2
  rw [hback] at hforward
  exact ⟨hp, hback, hforward.eq_nil⟩

/-- More visible names take at most the last finding from a judgement, and only if that was the
rejection of the definition. So a further import that is no wildcard, and a further class, take at
most the last violation from the block of any other class and add none. -/
theorem judge_of_moreNames (settings : Settings.Tables) :
    (∀ (names more : VisibleNames) (table : Table), names.Within more →
      judge more settings table = judge names settings table ∨
        ∃ finding, judge names settings table = judge more settings table ++ [finding] ∧
          (finding.rule = .definitionError ∨ finding.rule = .filepath)) ∧
      ∀ (file : List Char) (old new : Outline),
        checkModule settings file old =
          wildcardBlock file old.imports ++
            old.classes.flatMap (classBlock settings file (visibleIn settings old)) ∧
        (∀ before i after, isWildcard i = false → old.imports = before ++ after →
          new.imports = before ++ i :: after → new.classes = old.classes →
          (visibleIn settings old).Within (visibleIn settings new) ∧
          (∀ c, classBlock settings file (visibleIn settings new) c <+:
            classBlock settings file (visibleIn settings old) c) ∧
          checkModule settings file new =
            wildcardBlock file old.imports ++
              old.classes.flatMap (classBlock settings file (visibleIn settings new))) ∧
        ∀ before d after, old.classes = before ++ after → new.classes = before ++ d :: after →
          new.imports = old.imports →
          (visibleIn settings old).Within (visibleIn settings new) ∧
          (∀ c, classBlock settings file (visibleIn settings new) c <+:
            classBlock settings file (visibleIn settings old) c) ∧
          checkModule settings file new =
            wildcardBlock file old.imports ++
              (before.flatMap (classBlock settings file (visibleIn settings new)) ++
                (classBlock settings file (visibleIn settings new) d ++
                  after.flatMap (classBlock settings file (visibleIn settings new)))) := by
  refine ⟨fun _ _ table h => judge_of_within h settings table, fun file old new =>
    ⟨checkModule_eq settings file old, ?_, ?_⟩⟩
  · intro before i after hw ho hn hc
    have h : (visibleIn settings old).Within (visibleIn settings new) :=
      visibleIn_within_of_subset (by simp [ho, hn]) (by simp [hc])
    refine ⟨h, classBlock_isPrefix_of_within h, ?_⟩
    rw [checkModule_eq, hc, hn, wildcardBlock_insert hw, ho]
  · intro before d after ho hn hi
    have h : (visibleIn settings old).Within (visibleIn settings new) :=
      visibleIn_within_of_subset (by simp [hi]) (by simp [ho, hn])
    refine ⟨h, classBlock_isPrefix_of_within h, ?_⟩
    rw [checkModule_eq, hi, hn, List.flatMap_append, List.flatMap_cons]

def subjectImport : Import := ⟨.names "schema".toList [⟨"Subject".toList, none⟩], {}⟩

/-- The import of a class settles the reference to it. -/
theorem judge_of_moreNames_import :
    (checkModule {} [] { classes := [sessionClass] }).length = 1 ∧
      checkModule {} [] { imports := [subjectImport], classes := [sessionClass] } = [] ∧
      ∀ c, classBlock {} [] (visibleIn {} { imports := [subjectImport], classes := [sessionClass] })
          c <+: classBlock {} [] (visibleIn {} { classes := [sessionClass] }) c := by
  obtain ⟨-, hmodule⟩ := judge_of_moreNames {}
  obtain ⟨-, himport, -⟩ := hmodule [] { classes := [sessionClass] }
    { imports := [subjectImport], classes := [sessionClass] }
  obtain ⟨-, hshorter, -⟩ := himport [] subjectImport [] rfl rfl rfl rfl
  exact ⟨by decide +kernel, by decide +kernel, hshorter⟩

end TableLint.Rule
