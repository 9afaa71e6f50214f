import TableLint.Source.Lexer
import TableLint.Source.Statement

/-!
The outline of a module: its imports and its classes in the order of the text. `outline? text` is
none if the text is not well formed.
-/
namespace TableLint.Source

/-- A class: its head, the last value that its body gives to the name `definition`, and the class
whose body it stands in. -/
structure ClassInfo where
  name : List Char
  bases : List (List Char) := []
  definition : Option Value := none
  span : Span := {}
  enclosing : Option (List Char) := none
deriving DecidableEq, Repr

structure Outline where
  imports : List Import := []
  classes : List ClassInfo := []
deriving Repr

namespace Outline

def append (a b : Outline) : Outline :=
  { imports := a.imports ++ b.imports, classes := a.classes ++ b.classes }

end Outline

def definitionName : List Char := "definition".toList

/-- The last value that the statements themselves give to the name `definition`. -/
def definitionIn : List Statement → Option Value
  | [] => none
  | .assignment name value :: statements =>
    (definitionIn statements).or (if name == definitionName then some value else none)
  | _ :: statements => definitionIn statements

mutual

/-- The outline of a statement. Classes inside a function belong to no class. -/
def Statement.outline (enclosing : Option (List Char)) : Statement → Outline
  | .imports i => { imports := [i] }
  | .assignment _ _ => {}
  | .other => {}
  | .function body => outlineOf none body
  | .compound body => outlineOf enclosing body
  | .classDef head body =>
    Outline.append
      { classes := [⟨head.name, head.bases, definitionIn body, head.span, enclosing⟩] }
      (outlineOf (some head.name) body)

def outlineOf (enclosing : Option (List Char)) : List Statement → Outline
  | [] => {}
  | s :: ss => (s.outline enclosing).append (outlineOf enclosing ss)

end

def outline? (text : List Char) : Option Outline := do
  let tokens ← tokens? text
  let nodes ← nest [] [] tokens
  let statements ← statements? false .free (layout (logicalLines nodes))
  return outlineOf none statements

end TableLint.Source
