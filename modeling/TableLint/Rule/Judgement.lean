import TableLint.Rule.Review

/-!
The judgement on a table class, and on all classes of a module.
-/
namespace TableLint.Rule

open Text

/-- What is reported when a definition is rejected for the given reason. -/
def rejectionFindings (names : VisibleNames) (settings : Settings.Tables) (table : Table)
    (definition message : List Char) : List Finding :=
  let r := review names settings.nullableMode table message definition
  r.findings ++
    if r.resolved then []
    else if occursIn "filepath data".toList message then
      if settings.permitFilepath then [] else [⟨.filepath, [table.name]⟩]
    else [⟨.definitionError, [table.name, message]⟩]

/-- The findings about a table whose definition is read in the given context. Nothing is known of a
definition that is no literal. -/
def judgeIn (context : Definition.Context) (names : VisibleNames) (settings : Settings.Tables)
    (table : Table) : List Finding :=
  match table.definition with
  | some .nonLiteral => []
  | none => [⟨.noDefinition, [table.name]⟩]
  | some (.literal definition) =>
    if (trim definition).isEmpty then [⟨.noDefinition, [table.name]⟩]
    else
      match Definition.declare context definition with
      | .ok declaration =>
        if declaration.primaryKey.isEmpty then [⟨.noKey, [table.name]⟩] else []
      | .error problem => rejectionFindings names settings table definition problem.message

def judge (names : VisibleNames) (settings : Settings.Tables) (table : Table) : List Finding :=
  judgeIn {} names settings table

def tablesOf (settings : Settings.Tables) (outline : Source.Outline) : List Table :=
  outline.classes.filterMap (Table.ofClass? settings)

def visibleIn (settings : Settings.Tables) (outline : Source.Outline) : VisibleNames :=
  (tablesOf settings outline).foldl (fun v t => v.addTable t.name)
    (outline.imports.foldl VisibleNames.addImport {})

/-- The violation that an import is: a wildcard hides names. -/
def importViolation? (file : List Char) (i : Source.Import) : Option Report.Violation :=
  match i.imported with
  | .wildcard _ => some (Finding.violation file i.span ⟨.wildcardImport, []⟩)
  | _ => none

/-- The violations of a module: those of its imports, then those of its tables. -/
def checkModule (settings : Settings.Tables) (file : List Char) (outline : Source.Outline) :
    List Report.Violation :=
  outline.imports.filterMap (importViolation? file) ++
    (tablesOf settings outline).flatMap fun table =>
      (judge (visibleIn settings outline) settings table).map (Finding.violation file table.span)

end TableLint.Rule
