import TableLint.Text.Blank
import TableLint.Text.Letter
import TableLint.Text.Split
import TableLint.Definition.Problem

/-!
Index lines: `[unique] index (attribute, …)`.
-/
namespace TableLint.Definition

open Text

structure Index where
  unique : Bool
  attributes : List (List Char)
deriving DecidableEq, Repr

namespace Index

/-- Whether the line starts with `unique`, and what follows the word `index`. -/
def afterKeyword? (line : List Char) : Option (Bool × List Char) :=
  match afterWord? "unique".toList line with
  | some (c :: rest) =>
    if isBlank c then (afterWord? "index".toList (trimStart rest)).map fun rest => (true, rest)
    else none
  | some [] => none
  | none => (afterWord? "index".toList line).map fun rest => (false, rest)

/-- The line counts as an index line. Only leading blanks of the rest may be line feeds. -/
def isIndex (line : List Char) : Bool :=
  match afterKeyword? line with
  | some (_, rest) => !(trimStart rest).contains '\n'
  | none => false

/-- The text in the parentheses that make up the whole of `s`, blanks apart. -/
def inParentheses? (s : List Char) : Option (List Char) :=
  match trimStart s with
  | '(' :: rest =>
    match rest.dropWhile (· != ')') with
    | _ :: after => if after.all isBlank then some (rest.takeWhile (· != ')')) else none
    | [] => none
  | _ => none

/-- Reads an index line. An index has at least one attribute. -/
def parse (line : List Char) : Except Problem Index :=
  match afterKeyword? line with
  | some (unique, rest) =>
    match (inParentheses? rest).map (commaList trim) with
    | some (first :: others) => .ok { unique, attributes := first :: others }
    | _ => .error (.indexLine line)
  | none => .error (.indexLine line)

end Index

end TableLint.Definition
