import TableLint.Text.Blank
import TableLint.Text.Quoted
import TableLint.Definition.Problem

/-!
Attribute lines: `name [= default] : type [# comment]`. A default ends at the first colon outside
quotes, a type at the first hash outside quotes; a type in angle brackets ends at the first closing
one. The line is read with a hash put at its end, so the comment is never missing.
-/
namespace TableLint.Definition

open Text

structure AttributeLine where
  name : List Char
  default : Option (List Char)
  type : List Char
  comment : List Char
deriving DecidableEq, Repr

namespace AttributeLine

def isNameChar (c : Char) : Bool := c.isLower || c.isDigit || c == '_'

def takeName? : List Char → Option (List Char × List Char)
  | [] => none
  | c :: s =>
    if c.isLower then some (c :: s.takeWhile isNameChar, s.dropWhile isNameChar) else none

/-- The comment after its hash: closing hashes and blanks do not belong to it. -/
def commentOf (s : List Char) : List Char := trim (s.reverse.dropWhile (· == '#')).reverse

/-- The type and the comment, from the start of the type on. -/
def typeAndComment (fail : List Char → Expected → Problem) (s : List Char) :
    Except Problem (List Char × List Char) :=
  match s with
  | '<' :: _ =>
    match s.dropWhile (· != '>') with
    | [] => .error (fail s .dataType)
    | _ :: rest =>
      match trimStart rest with
      | '#' :: comment => .ok (trim (s.takeWhile (· != '>') ++ ['>']), commentOf comment)
      | rest => .error (fail rest .hash)
  | c :: _ =>
    if c.isAlpha then
      match splitUnquoted '#' s with
      | some (type, rest) => .ok (trim type, commentOf (rest.drop 1))
      | none => .error (fail s .hash)
    else .error (fail s .dataType)
  | [] => .error (fail s .dataType)

/-- The optional default, and the text from the colon on. -/
def takeDefault (fail : List Char → Expected → Problem) (s : List Char) :
    Except Problem (Option (List Char) × List Char) :=
  match s with
  | '=' :: s =>
    match splitUnquoted ':' s with
    | some (default, rest) => .ok (some (trim default), rest)
    | none => .error (fail s .colon)
  | s => .ok (none, s)

/-- Reads an attribute line. The position of a failure counts characters of the line. -/
def parse (line : List Char) : Except Problem AttributeLine :=
  let padded := line ++ ['#']
  let fail := fun (rest : List Char) (expected : Expected) =>
    Problem.attributeLine (padded.length - rest.length) padded expected
  match takeName? (trimStart padded) with
  | none => .error (fail (trimStart padded) .name)
  | some (name, rest) =>
    match takeDefault fail (trimStart rest) with
    | .error problem => .error problem
    | .ok (default, rest) =>
      match trimStart rest with
      | ':' :: rest =>
        match typeAndComment fail (trimStart rest) with
        | .error problem => .error problem
        | .ok (type, comment) => .ok { name, default, type, comment }
      | rest => .error (fail rest .colon)

end AttributeLine

end TableLint.Definition
