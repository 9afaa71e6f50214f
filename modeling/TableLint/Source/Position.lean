/-!
Places in a text. Lines count from one; columns and offsets count bytes of the UTF-8 form from zero.
-/
namespace TableLint.Source

structure Position where
  line : Nat := 1
  column : Nat := 0
  offset : Nat := 0
deriving DecidableEq, Repr

/-- A stretch of text: the place where it starts and its length in bytes. -/
structure Span where
  line : Nat := 0
  column : Nat := 0
  offset : Nat := 0
  length : Nat := 0
deriving DecidableEq, Repr

namespace Position

def step (p : Position) (c : Char) : Position :=
  if c == '\n' then { line := p.line + 1, column := 0, offset := p.offset + 1 }
  else { p with column := p.column + c.utf8Size, offset := p.offset + c.utf8Size }

def advance (p : Position) (s : List Char) : Position := s.foldl step p

@[simp] theorem advance_nil (p : Position) : p.advance [] = p := rfl

theorem advance_append (p : Position) (s t : List Char) :
    p.advance (s ++ t) = (p.advance s).advance t := by
  simp [advance, List.foldl_append]

def spanOf (p : Position) (length : Nat) : Span :=
  { line := p.line, column := p.column, offset := p.offset, length }

end Position

end TableLint.Source
