import TableLint.Definition.AttributeLine
import TableLint.Definition.Category
import TableLint.Definition.Context
import TableLint.Definition.IndexLine
import TableLint.Definition.ReferenceLine

/-!
Reading a whole definition. Lines are read in order; each adds to the declaration or ends the
reading with the first problem. Lines above the first separator belong to the primary key.
-/
namespace TableLint.Definition

open Text

/-- An attribute of a table. One that a reference brings along has no category and no type. -/
structure Attribute where
  name : List Char
  type : List Char := []
  category : Option Category := none
  nullable : Bool
  default : Option (List Char) := none
  comment : List Char := []
  store : Option (List Char) := none
deriving DecidableEq, Repr

structure ForeignKey where
  table : List Char
  attributes : List (List Char)
  nullable : Bool
  unique : Bool
deriving DecidableEq, Repr

structure Declaration where
  tableComment : List Char := []
  primaryKey : List (List Char) := []
  attributes : List Attribute := []
  foreignKeys : List ForeignKey := []
  indexes : List Index := []
  externalStores : List (List Char) := []
deriving DecidableEq, Repr

def addNew (names : List (List Char)) (name : List Char) : List (List Char) :=
  if names.contains name then names else names ++ [name]

namespace Declaration

/-- Adds an attribute unless one of its name is there; in the key, its name joins the key. -/
def addAttribute (inKey : Bool) (d : Declaration) (a : Attribute) : Declaration :=
  { d with
    primaryKey := if inKey then addNew d.primaryKey a.name else d.primaryKey
    attributes :=
      if d.attributes.any (·.name == a.name) then d.attributes else d.attributes ++ [a] }

def addStore (d : Declaration) : Option (List Char) → Declaration
  | some store => { d with externalStores := addNew d.externalStores store }
  | none => d

end Declaration

def isNull (default : Option (List Char)) : Bool :=
  default.any (sameLetters "null".toList)

def adapterOf (type : List Char) : List Char :=
  ((type.dropWhile (· == '<')).reverse.dropWhile (· == '>')).reverse

def compileAttribute (context : Context) (inKey : Bool) (line : List Char) :
    Except Problem Attribute := do
  let parsed ← AttributeLine.parse line
  let nullable := isNull parsed.default
  if nullable && inKey then throw (.nullableKey line)
  let comment := replaceChar '"' ['\\', '"'] parsed.comment
  if comment.head? == some ':' then throw (.attributeComment comment)
  match Category.of? parsed.type with
  | none => throw (.unsupportedType parsed.type)
  | some category =>
    if category == .filepath && !context.filepath then throw .filepathDisabled
    if category == .adapted && !context.adapters.contains (adapterOf parsed.type) then
      throw (.unknownAdapter (adapterOf parsed.type))
    if category.isSerialized && parsed.default.any (!·.isEmpty) && !nullable then
      throw (.serializedDefault line)
    return {
      name := parsed.name
      type := parsed.type
      category := some category
      nullable
      default := parsed.default
      comment
      store :=
        if category.isExternal then some ((parsed.type.dropWhile (· != '@')).drop 1) else none }

def isValidOption (option : List Char) : Bool :=
  option == "NULLABLE".toList || option == "UNIQUE".toList

def compileReference (context : Context) (inKey : Bool) (line : List Char) :
    Except Problem ForeignKey := do
  let parsed ← ReferenceLine.parse line
  match resolveReference context parsed.reference with
  | none => throw (.unresolvedReference parsed.reference)
  | some (table, attributes) =>
    let options := parsed.options.map upper
    match options.find? (!isValidOption ·) with
    | some option => throw (.invalidOption option)
    | none =>
      let nullable := options.contains "NULLABLE".toList
      if nullable && inKey then throw (.nullableDependency line)
      return { table, attributes, nullable, unique := options.contains "UNIQUE".toList }

/-- The kinds of lines of a definition; a `column` line declares an attribute. -/
inductive LineKind where
  | skipped
  | separator
  | reference
  | index
  | column
deriving DecidableEq, Repr

def lineKind (line : List Char) : LineKind :=
  if line.isEmpty || line.head? == some '#' then .skipped
  else if "---".toList.isPrefixOf line || "___".toList.isPrefixOf line then .separator
  else if ReferenceLine.isReference line then .reference
  else if Index.isIndex line then .index
  else .column

/-- Adds what one line declares that is neither skipped nor a separator. -/
def addLine (context : Context) (inKey : Bool) (d : Declaration) (line : List Char) :
    Except Problem Declaration :=
  match lineKind line with
  | .skipped | .separator => .ok d
  | .reference => do
    let key ← compileReference context inKey line
    let inherited := key.attributes.map fun name =>
      ({ name, nullable := key.nullable } : Attribute)
    let d := inherited.foldl (Declaration.addAttribute inKey) d
    return { d with foreignKeys := d.foreignKeys ++ [key] }
  | .index => do
    let index ← Index.parse line
    return { d with indexes := d.indexes ++ [index] }
  | .column => do
    let a ← compileAttribute context inKey line
    return (d.addStore a.store).addAttribute inKey a

/-- Adds what the lines declare, up to the first problem. -/
def addLines (context : Context) : Bool → Declaration → List (List Char) →
    Except Problem Declaration
  | _, d, [] => .ok d
  | inKey, d, line :: lines => do
    let d ← addLine context inKey d line
    addLines context (inKey && lineKind line != .separator) d lines

/-- The lines of a definition, trimmed, without blank lines at either end. -/
def splitLines (definition : List Char) : List (List Char) :=
  (splitAt '\n' (trim definition)).map trim

/-- The table comment, which only a first line that starts with a hash gives, and the lines after
it. -/
def takeTableComment : List (List Char) → List Char × List (List Char)
  | ('#' :: comment) :: lines => (trim comment, lines)
  | lines => ([], lines)

def declare (context : Context) (definition : List Char) : Except Problem Declaration :=
  let (tableComment, lines) := takeTableComment (splitLines definition)
  if tableComment.head? == some ':' then .error .tableComment
  else addLines context true { tableComment } lines

end TableLint.Definition
