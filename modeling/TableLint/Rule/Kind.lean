import TableLint.Settings.Basic
import TableLint.Source.Outline
import TableLint.Text.Split

/-!
Which classes are tables. The first base decides: a tier of one of the configured modules, or one of
the configured bare names.
-/
namespace TableLint.Rule

open Text

inductive TableKind where
  | manual
  | lookup
  | imported
  | computed
  | part
  | table
  | extension (base : List Char)
deriving DecidableEq, Repr

namespace TableKind

def ofTier? (tier : List Char) : Option TableKind :=
  match String.ofList tier with
  | "Manual" => some manual
  | "Lookup" => some lookup
  | "Imported" => some imported
  | "Computed" => some computed
  | "Part" => some part
  | "Table" => some table
  | _ => none

/-- The kind of a class with the given first base. -/
def ofBase? (settings : Settings.Tables) (base : List Char) : Option TableKind :=
  if settings.extensionBases.contains base then some (extension base)
  else if base.contains '.' then
    let tier := afterLast '.' base
    if settings.moduleAliases.contains (base.take (base.length - (tier.length + 1))) then
      ofTier? tier
    else none
  else none

def ofBases? (settings : Settings.Tables) (bases : List (List Char)) : Option TableKind :=
  bases.head?.bind (ofBase? settings)

end TableKind

structure Table where
  name : List Char
  kind : TableKind
  definition : Option Source.Value
  span : Source.Span
  enclosing : Option (List Char) := none
deriving DecidableEq, Repr

def Table.ofClass? (settings : Settings.Tables) (c : Source.ClassInfo) : Option Table :=
  (TableKind.ofBases? settings c.bases).map fun kind =>
    { name := c.name, kind, definition := c.definition, span := c.span, enclosing := c.enclosing }

end TableLint.Rule
