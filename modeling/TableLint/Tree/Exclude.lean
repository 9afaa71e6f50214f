import TableLint.Tree.Path

/-!
Patterns for paths that are left out. `?` stands for one character, `*` for any characters, slashes
among them, `[…]` and `[!…]` for one character of a class. `**` is a whole piece of the path: with a
slash after it it stands for nothing or for anything that ends in a slash, at the end for anything.
-/
namespace TableLint.Tree

open Text

/-- The characters of a class: single ones are ranges of one. -/
abbrev CharRanges := List (Char × Char)

inductive Wildcard where
  | char (c : Char)
  | anyChar
  | within (ranges : CharRanges)
  | except (ranges : CharRanges)
  | anySequence
  | anyPieces
deriving DecidableEq, Repr

def charRanges : List Char → CharRanges
  | a :: '-' :: b :: s => (a, b) :: charRanges s
  | a :: s => (a, a) :: charRanges s
  | [] => []

def inCharRanges (ranges : CharRanges) (c : Char) : Bool := ranges.any fun (a, b) => a ≤ c && c ≤ b

/-- The class after an opening bracket, and how many characters it takes. The first character of a
class never closes it. -/
def classOf? : List Char → Option (Wildcard × Nat)
  | '!' :: c :: s =>
    if s.contains ']' then
      let inner := s.takeWhile (· != ']')
      some (.except (charRanges (c :: inner)), inner.length + 3)
    else none
  | c :: s =>
    if c != '!' && s.contains ']' then
      let inner := s.takeWhile (· != ']')
      some (.within (charRanges (c :: inner)), inner.length + 2)
    else none
  | [] => none

/-- Reads a pattern. `atPiece` says that a piece of the path starts here. -/
def wildcards? (atPiece : Bool) (s : List Char) : Option (List Wildcard) :=
  match s with
  | [] => some []
  | '*' :: '*' :: '*' :: _ => none
  | '*' :: '*' :: s =>
    if atPiece then
      match s with
      | [] => some [.anyPieces]
      | '/' :: s => (wildcards? true s).map (.anyPieces :: ·)
      | _ => none
    else none
  | '*' :: s => (wildcards? false s).map (.anySequence :: ·)
  | '?' :: s => (wildcards? false s).map (.anyChar :: ·)
  | '[' :: s =>
    match classOf? s with
    | some (w, taken) => (wildcards? false (s.drop taken)).map (w :: ·)
    | none => none
  | c :: s => (wildcards? (c == '/') s).map (.char c :: ·)
termination_by s.length
decreasing_by all_goals simp only [List.length_cons, List.length_drop]; omega

def ends : List Char → List (List Char)
  | [] => [[]]
  | c :: s => (c :: s) :: ends s

/-- The ends of a text that start a piece of the path, and the empty end. -/
def pieceEnds : List Char → List (List Char)
  | [] => [[]]
  | c :: s => if c == '/' then s :: pieceEnds s else pieceEnds s

/-- What can be left of a text after it. -/
def Wildcard.rest (w : Wildcard) (s : List Char) : List (List Char) :=
  match w, s with
  | .anySequence, s => ends s
  | .anyPieces, s => s :: pieceEnds s
  | _, [] => []
  | .anyChar, _ :: s => [s]
  | .char c, d :: s => if c == d then [s] else []
  | .within ranges, d :: s => if inCharRanges ranges d then [s] else []
  | .except ranges, d :: s => if inCharRanges ranges d then [] else [s]

def covers : List Wildcard → List Char → Bool
  | [], s => s.isEmpty
  | w :: ws, s => (w.rest s).any (covers ws)

structure ExcludePattern where
  text : List Char
  wildcards : List Wildcard
deriving DecidableEq, Repr

namespace ExcludePattern

def parse? (text : List Char) : Option ExcludePattern :=
  (wildcards? true text).map fun wildcards => { text, wildcards }

/-- The name that the pattern comes down to when the pieces `**` are taken away, if it then is one
without stars. -/
def bareName? (p : ExcludePattern) : Option (List Char) :=
  let name := removeAll "/**".toList (removeAll "**/".toList p.text)
  if name.isEmpty || name.contains '*' then none else some name

def componentText : Component → List Char
  | .root => ['/']
  | .here => ['.']
  | .parent => ['.', '.']
  | .name text => text

/-- The pattern excludes a path, given as a whole and below the root of the analysis: it covers one
of them, or its bare name is a component below the root. -/
def excludes (p : ExcludePattern) (path relative : List Char) : Bool :=
  covers p.wildcards path || covers p.wildcards relative ||
    p.bareName?.any fun name => (components relative).any fun c => componentText c == name

end ExcludePattern

end TableLint.Tree
