import TableLint.Rule.Judgement

/-!
Checks. A check looks at modules one by one, each by itself; which of its violations are reported is
for the analysis to decide.
-/
namespace TableLint.Rule

/-- A module that is checked: the path of its file, the path that it is reported under, its text and
its outline. -/
structure ModuleFile where
  path : List Char
  shownAs : List Char
  content : List Char
  outline : Source.Outline

/-- A check: its name, what it does, what it can report, and what it finds in a module. -/
structure Check where
  name : List Char
  description : List Char
  rules : List RuleId
  violations : Settings.Tables → ModuleFile → List Report.Violation

def tableDefinition : Check :=
  { name := "table-definition".toList
    description := "Validates DataJoint table definitions and their foreign key references".toList
    rules := RuleId.all
    violations := fun settings file => checkModule settings file.shownAs file.outline }

def checks : List Check := [tableDefinition]

end TableLint.Rule
