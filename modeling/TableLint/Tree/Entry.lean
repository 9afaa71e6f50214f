import TableLint.Tree.Path

/-!
File trees: files with their bytes and directories with their entries, and a working directory from
which paths are seen.
-/
namespace TableLint.Tree

open Text

/-- A file or a directory, under its name. -/
inductive Entry where
  | file (name : List Char) (content : ByteArray)
  | directory (name : List Char) (children : List Entry)

namespace Entry

def name : Entry → List Char
  | file name _ => name
  | directory name _ => name

def isDirectory : Entry → Bool
  | file _ _ => false
  | directory _ _ => true

def find? : List (List Char) → Entry → Option Entry
  | [], e => some e
  | name :: names, directory _ children =>
    (children.find? (·.name == name)).bind (find? names)
  | _ :: _, file _ _ => none

/-- The directory with a file in it, replacing an entry of the same name. Directories that are
missing on the way are made. -/
def put (content : ByteArray) : List (List Char) → Entry → Entry
  | [name], directory own children =>
    directory own (children.filter (·.name != name) ++ [file name content])
  | name :: names, directory own children =>
    let child := (children.find? (·.name == name)).getD (directory name [])
    directory own (children.filter (·.name != name) ++ [put content names child])
  | _, e => e

/-- The directory with another directory in it. Nothing changes if there is one already. -/
def putDirectory : List (List Char) → Entry → Entry
  | name :: names, directory own children =>
    let child := (children.find? (·.name == name)).getD (directory name [])
    directory own (children.filter (·.name != name) ++ [putDirectory names child])
  | _, e => e

end Entry

def textOf? (content : ByteArray) : Option (List Char) :=
  (String.fromUTF8? content).map String.toList

/-- A file tree, with the names on the way to the working directory. -/
structure FileTree where
  root : Entry
  current : List (List Char)

namespace FileTree

def pathTo (names : List (List Char)) : List Char := '/' :: joinPieces names

/-- Follows one piece of a path. Only from a directory something can be reached. -/
def follow? (tree : FileTree) (names : List (List Char)) (piece : List Char) :
    Option (List (List Char)) :=
  match tree.root.find? names with
  | some (.directory _ _) =>
    if piece.isEmpty || piece == ['.'] then some names
    else if piece == ['.', '.'] then some names.dropLast
    else if (tree.root.find? (names ++ [piece])).isSome then some (names ++ [piece])
    else none
  | _ => none

/-- The names on the way to what a path leads to, if there is something. -/
def locate? (tree : FileTree) (path : List Char) : Option (List (List Char)) :=
  if path.isEmpty then none
  else (splitAt '/' path).foldlM tree.follow? (if isAbsolute path then [] else tree.current)

def entry? (tree : FileTree) (path : List Char) : Option Entry :=
  (tree.locate? path).bind fun names => tree.root.find? names

def contains (tree : FileTree) (path : List Char) : Bool := (tree.entry? path).isSome

def hasFile (tree : FileTree) (path : List Char) : Bool :=
  match tree.entry? path with
  | some (.file _ _) => true
  | _ => false

/-- The text of the file at a path, if there is one and it is UTF-8. -/
def read? (tree : FileTree) (path : List Char) : Option (List Char) :=
  match tree.entry? path with
  | some (.file _ content) => textOf? content
  | _ => none

/-- Writes a file of the working directory, unless a directory is in the way. -/
def write? (tree : FileTree) (name content : List Char) : Option FileTree :=
  match tree.entry? name with
  | some (.directory _ _) => none
  | _ =>
    some { tree with root := tree.root.put (String.ofList content).toUTF8 (tree.current ++ [name]) }

/-- The path as seen from the root of the tree, not simplified. -/
def absolute (tree : FileTree) (path : List Char) : List Char := join (pathTo tree.current) path

end FileTree

end TableLint.Tree
