import TableLint.Text.Split

/-!
Places given by line and column, both counted from one.
-/
namespace TableLint.Source

open Text

/-- The byte offset of a place; past the last line it is the end of the text. The column is not
checked against the line. -/
def offsetOf (content : List Char) (line column : Nat) : Nat :=
  match line with
  | 0 => 0
  | n + 1 =>
    let before := byteLength ((rawLines content).take n).flatten
    if n < (rawLines content).length then before + (column - 1) else before

def lineText? (content : List Char) (line : Nat) : Option (List Char) :=
  match line with
  | 0 => none
  | n + 1 => (lines content)[n]?

end TableLint.Source
