import TableLint.Text.Split

/-!
Paths. A path is a text cut at slashes. What counts of it are its components: empty pieces and inner
`.` pieces do not. Operations that answer a path keep its text otherwise as it was written.
-/
namespace TableLint.Tree

open Text

/-- A component of a path. `here` is a `.` that the path starts with. -/
inductive Component where
  | root
  | here
  | parent
  | name (text : List Char)
deriving DecidableEq, Repr

/-- The piece counts as a component. -/
def isReal (piece : List Char) : Bool := !piece.isEmpty && piece != ['.']

/-- A path cut up: the component before the first slash, if it is the root or a dot, and the
pieces after it. -/
structure Pieces where
  head : Option Component
  body : List (List Char)
deriving Repr

def piecesOf (path : List Char) : Pieces :=
  match splitAt '/' path with
  | [] :: second :: rest => ⟨some .root, second :: rest⟩
  | ['.'] :: rest => ⟨some .here, rest⟩
  | pieces => ⟨none, pieces⟩

def Component.ofPiece (piece : List Char) : Component :=
  if piece == ['.', '.'] then .parent else .name piece

def components (path : List Char) : List Component :=
  let p := piecesOf path
  p.head.toList ++ (p.body.filter isReal).map Component.ofPiece

def joinPieces : List (List Char) → List Char
  | [] => []
  | [piece] => piece
  | piece :: pieces => piece ++ '/' :: joinPieces pieces

/-- The pieces without those at the end that do not count. -/
def trimPieces (pieces : List (List Char)) : List (List Char) :=
  (pieces.reverse.dropWhile (!isReal ·)).reverse

/-- The text of a path from its pieces, without those at the end that do not count. -/
def Pieces.text (p : Pieces) : List Char :=
  let body := trimPieces p.body
  match p.head with
  | some .root => '/' :: joinPieces body
  | some _ => if body.isEmpty then ['.'] else '.' :: '/' :: joinPieces body
  | none => joinPieces body

/-- Drops pieces up to and with the given number of components. -/
def dropReal : Nat → List (List Char) → List (List Char)
  | 0, pieces => pieces
  | _, [] => []
  | n + 1, piece :: pieces => if isReal piece then dropReal n pieces else dropReal (n + 1) pieces

def below? (base path : List Char) : Option (List Char) :=
  let n := (components base).length
  if (components base).isPrefixOf (components path) then
    let p := piecesOf path
    if n == 0 then some p.text
    else
      let body := dropReal (n - p.head.toList.length) p.body
      some (joinPieces (trimPieces (body.dropWhile (!isReal ·))))
  else none

/-- The path as seen from `base`: what lies below it, or else the path itself. -/
def relativeTo (base path : List Char) : List Char :=
  match below? base path with
  | some rest => if rest.isEmpty then path else rest
  | none => path

def isAbsolute (path : List Char) : Bool := path.head? == some '/'

def join (base path : List Char) : List Char :=
  if isAbsolute path then path
  else if base.isEmpty || base.getLast? == some '/' then base ++ path
  else base ++ '/' :: path

/-- The path without its last component. The root and the empty path have none. -/
def parent? (path : List Char) : Option (List Char) :=
  let p := piecesOf path
  match (trimPieces p.body).reverse with
  | _ :: front => some ({ p with body := front.reverse } : Pieces).text
  | [] =>
    match p.head with
    | some .here => some []
    | _ => none

def fileName? (path : List Char) : Option (List Char) :=
  match (components path).getLast? with
  | some (.name text) => some text
  | _ => none

/-- What stands after the last dot of the file name, if something stands before it. -/
def extension? (path : List Char) : Option (List Char) := do
  let name ← fileName? path
  match name.reverse.dropWhile (· != '.') with
  | _ :: _ :: _ => some (afterLast '.' name)
  | _ => none

/-- The lexicographic order of lists: the first difference decides, and a list comes before those
that it starts. -/
def lexLE {α : Type} [BEq α] (le : α → α → Bool) : List α → List α → Bool
  | [], _ => true
  | _ :: _, [] => false
  | a :: as, b :: bs => if a == b then lexLE le as bs else le a b

def textLE : List Char → List Char → Bool := lexLE fun c d => c.toNat ≤ d.toNat

def Component.rank : Component → Nat
  | .root => 0
  | .here => 1
  | .parent => 2
  | .name _ => 3

def Component.le (a b : Component) : Bool :=
  match a, b with
  | .name s, .name t => textLE s t
  | a, b => a.rank ≤ b.rank

def componentsLE : List Component → List Component → Bool := lexLE Component.le

def pathLE (p q : List Char) : Bool := componentsLE (components p) (components q)

end TableLint.Tree
