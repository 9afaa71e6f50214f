import TableLint.Text.Alphabetic
import TableLint.Text.Blank
import TableLint.Text.Split
import TableLint.Text.Quoted

/-!
What a definition may refer to: tables with their primary keys, adapters, and whether filepath
attributes are enabled. A reference names a table, optionally through a projection that renames
attributes of its key.
-/
namespace TableLint.Definition

open Text

structure Context where
  /-- Tables with their primary keys; an earlier entry hides a later one of the same name. -/
  tables : List (List Char × List (List Char)) := []
  adapters : List (List Char) := []
  filepath : Bool := false
deriving Repr

namespace Context

def withTable (context : Context) (name : List Char) (primaryKey : List (List Char)) : Context :=
  { context with tables := (name, primaryKey) :: context.tables }

def primaryKey? (context : Context) (name : List Char) : Option (List (List Char)) :=
  context.tables.lookup name

end Context

/-- The text inside one pair of equal quotes. -/
def unquote? (s : List Char) : Option (List Char) :=
  match s with
  | c :: rest =>
    if isQuote c then
      match rest.reverse with
      | d :: inner => if d == c then some inner.reverse else none
      | [] => none
    else none
  | [] => none

/-- Renamings of attributes, the latest first. -/
abbrev Renames := List (List Char × List Char)

/-- Adds one argument of a projection: `new = 'old'` renames, `'name'` only has to be quoted. -/
def addArgument (renames : Renames) (argument : List Char) : Option Renames :=
  match argument.dropWhile (· != '=') with
  | _ :: old => (unquote? (trim old)).map fun old =>
      (old, trim (argument.takeWhile (· != '='))) :: renames
  | [] => (unquote? argument).map fun _ => renames

def projectionRenames (arguments : List Char) : Option Renames :=
  (commaList trim arguments).foldlM addArgument []

/-- A table name: identifiers joined by dots. -/
def isTableName (name : List Char) : Bool :=
  (splitAt '.' name).all fun segment =>
    match segment with
    | c :: rest => (isAlphabetic c || c == '_') && rest.all fun d => isAlphanumeric d || d == '_'
    | [] => false

def withoutComment (reference : List Char) : List Char :=
  trim (match splitUnquoted '#' reference with
    | some (before, _) => before
    | none => reference)

/-- The table that a reference names, with the renamings of its projection. -/
def readReference (reference : List Char) : Option (List Char × Renames) :=
  let expression := withoutComment reference
  match cut? ".proj(".toList expression with
  | some (base, rest) =>
    match rest.reverse with
    | ')' :: arguments =>
      (projectionRenames arguments.reverse).bind fun renames =>
        if isTableName base then some (base, renames) else none
    | _ => none
  | none => if isTableName expression then some (expression, []) else none

/-- The table of a reference and the attributes it brings along, if the table is registered. -/
def resolveReference (context : Context) (reference : List Char) :
    Option (List Char × List (List Char)) :=
  match readReference reference with
  | some (table, renames) =>
    (context.primaryKey? table).map fun key =>
      (table, key.map fun name => (renames.lookup name).getD name)
  | none => none

end TableLint.Definition
