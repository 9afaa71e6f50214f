import TableLint.Source.Outline

/-!
The names that references in a file can mean: tables and imported classes on the one hand, imported
modules on the other. A dotted import counts only as a whole.
-/
namespace TableLint.Rule

structure VisibleNames where
  classes : List (List Char) := []
  modules : List (List Char) := []
deriving DecidableEq, Repr

namespace VisibleNames

/-- The names after `import`. -/
def addModules (v : VisibleNames) (names : List Source.ImportedName) : VisibleNames :=
  { v with modules := v.modules ++ names.map (·.bound) }

/-- The names after `from … import`. -/
def addClasses (v : VisibleNames) (names : List Source.ImportedName) : VisibleNames :=
  { v with classes := v.classes ++ names.map (·.bound) }

def addTable (v : VisibleNames) (name : List Char) : VisibleNames :=
  { v with classes := v.classes ++ [name] }

/-- What an import brings in. A wildcard brings in nothing that is known. -/
def addImport (v : VisibleNames) (i : Source.Import) : VisibleNames :=
  match i.imported with
  | .modules names => v.addModules names
  | .names _ names => v.addClasses names
  | .wildcard _ => v

/-- The name is that of a table or an imported class. -/
def hasClass (v : VisibleNames) (name : List Char) : Bool := v.classes.contains name

def hasModule (v : VisibleNames) (name : List Char) : Bool := v.modules.contains name

end VisibleNames

end TableLint.Rule
