import TableLint.Source.Position

/-!
Tokens of program text. A token keeps the gap before it (blanks, comments, joined lines), so the
tokens together are the whole text. There are no tokens for line ends: a token that starts a logical
line carries the line's indentation.
-/
namespace TableLint.Source

inductive Kind where
  /-- A name or a keyword. -/
  | word
  | number
  /-- A string literal that is not formatted. -/
  | string
  | mark
  /-- An opening bracket, or the opening quote of a formatted string. -/
  | opening
  | closing
  /-- Text of a formatted string outside its fields. -/
  | formatText
deriving DecidableEq, Repr

structure Token where
  kind : Kind
  gap : List Char
  text : List Char
  start : Position
  /-- The indentation, if the token starts a logical line. -/
  indent : Option Nat
deriving Repr

/-- The reserved words. The words `async` and `await` are names where they do not fit otherwise. -/
def keywords : List String :=
  ["False", "None", "True", "and", "as", "assert", "break", "class", "continue", "def", "del",
    "elif", "else", "except", "finally", "for", "from", "global", "if", "import", "in", "is",
    "lambda", "nonlocal", "not", "or", "pass", "raise", "return", "try", "while", "with", "yield"]

namespace Token

def raw (t : Token) : List Char := t.gap ++ t.text

def isWord (t : Token) (word : String) : Bool := t.kind == .word && t.text == word.toList

def isMark (t : Token) (mark : String) : Bool := t.kind == .mark && t.text == mark.toList

/-- The token is a name: a word that is not reserved. -/
def isName (t : Token) : Bool := t.kind == .word && !keywords.contains (String.ofList t.text)

end Token

end TableLint.Source
