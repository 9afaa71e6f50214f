import TableLint.Text.Blank
import TableLint.Text.Letter
import TableLint.Text.Word

/-!
The categories of attribute types. A category is a list of forms; a form is a leading word, compared
by case folding, and what may follow it. A type belongs to the first category one of whose forms it
has.
-/
namespace TableLint.Definition

open Text

inductive Category where
  | integer
  | decimal
  | float
  | string
  | json
  | enum
  | temporal
  | internalBlob
  | externalBlob
  | internalAttach
  | externalAttach
  | filepath
  | uuid
  | adapted
deriving DecidableEq, Repr

/-- What may follow the leading word of a type. -/
inductive Tail where
  | anything
  | nothing
  | size
  | optionalSize
  /-- An optional parenthesized part, then optionally the word `unsigned`. -/
  | optionalSizeSign
  | store
  /-- Text that ends in an angle bracket. -/
  | closing
deriving DecidableEq, Repr

/-- At least one character, none of them a line feed, and then `close`. -/
def endsIn (close : Char) (s : List Char) : Bool :=
  match s.reverse with
  | c :: inner => c == close && !inner.isEmpty && !inner.contains '\n'
  | [] => false

/-- Blanks, then a nonempty part in parentheses. -/
def isSize (s : List Char) : Bool :=
  match trimStart s with
  | '(' :: inner => endsIn ')' inner
  | _ => false

/-- The text before a final word `unsigned` that stands after a blank. -/
def beforeUnsigned? (s : List Char) : Option (List Char) :=
  match afterWord? "dengisnu".toList s.reverse with
  | some (c :: front) => if isBlank c then some (trimEnd front.reverse) else none
  | _ => none

/-- A store name: a letter, then word characters and hyphens. -/
def isStoreName : List Char → Bool
  | [] => false
  | c :: s => (let c := foldCase c; 'a' ≤ c && c ≤ 'z') && s.all fun d => d == '-' || isWord d

def Tail.holds : Tail → List Char → Bool
  | .anything, _ => true
  | .nothing, s => s.isEmpty
  | .size, s => isSize s
  | .optionalSize, s => s.isEmpty || isSize s
  | .optionalSizeSign, s =>
    s.isEmpty || isSize s ||
      match beforeUnsigned? s with
      | some front => front.isEmpty || isSize front
      | none => false
  | .store, s => isStoreName s
  | .closing, s => endsIn '>' s

namespace Category

/-- All categories, in the order in which they are tried. -/
def all : List Category :=
  [.integer, .decimal, .float, .string, .json, .enum, .temporal, .internalBlob, .externalBlob,
    .internalAttach, .externalAttach, .filepath, .uuid, .adapted]

/-- The forms of a category. After an integer word anything may follow. -/
def forms : Category → List (String × Tail)
  | .integer =>
    [("tinyint", .anything), ("smallint", .anything), ("mediumint", .anything),
      ("bigint", .anything), ("int", .anything), ("integer", .anything), ("serial", .nothing)]
  | .decimal => [("decimal", .optionalSizeSign), ("numeric", .optionalSizeSign)]
  | .float =>
    [("double", .optionalSizeSign), ("float", .optionalSizeSign), ("real", .optionalSizeSign)]
  | .string => [("varchar", .size), ("char", .size)]
  | .json => [("json", .nothing)]
  | .enum => [("enum", .size)]
  | .temporal =>
    [("date", .optionalSize), ("datetime", .optionalSize), ("time", .optionalSize),
      ("timestamp", .optionalSize), ("year", .optionalSize)]
  | .internalBlob =>
    [("tinyblob", .nothing), ("smallblob", .nothing), ("mediumblob", .nothing),
      ("longblob", .nothing), ("blob", .nothing)]
  | .externalBlob => [("blob@", .store)]
  | .internalAttach => [("attach", .nothing)]
  | .externalAttach => [("attach@", .store)]
  | .filepath => [("filepath@", .store)]
  | .uuid => [("uuid", .nothing)]
  | .adapted => [("<", .closing)]

def covers (category : Category) (type : List Char) : Bool :=
  category.forms.any fun (word, tail) =>
    match afterWord? word.toList type with
    | some rest => tail.holds rest
    | none => false

def of? (type : List Char) : Option Category := all.find? (·.covers type)

def isSerialized : Category → Bool
  | .internalBlob | .externalBlob | .internalAttach | .externalAttach => true
  | _ => false

def isExternal : Category → Bool
  | .externalBlob | .externalAttach | .filepath => true
  | _ => false

end Category

end TableLint.Definition
