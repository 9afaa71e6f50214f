import TableLint.Settings.Read
import TableLint.Tree.Entry

/-!
Where settings come from: a file that is named, else one of the project, else the table in its
project file, else the file of the user, else none.
-/
namespace TableLint.Settings

open TableLint.Tree

inductive Origin where
  | explicit (path : List Char)
  | project (path : List Char)
  | projectFile (path : List Char)
  | global (path : List Char)
  | default
deriving DecidableEq, Repr

namespace Origin

def path? : Origin → Option (List Char)
  | explicit path | project path | projectFile path | global path => some path
  | default => none

/-- The settings are those of the user. -/
def isGlobal : Origin → Bool
  | global _ => true
  | _ => false

end Origin

def settingsNames : List (List Char) := ["dj-lint.toml".toList, ".dj-lint.toml".toList]

def projectFileName : List Char := "pyproject.toml".toList

/-- The project file speaks of this tool. One that is malformed counts, so that it is reported. -/
def hasSettings (text : List Char) : Bool :=
  match parseProject text with
  | .ok none => false
  | _ => true

def findIn (tree : FileTree) (directory : List Char) (explicit global : Option (List Char)) :
    Origin :=
  match explicit with
  | some path => .explicit path
  | none =>
    match (settingsNames.map (join directory)).find? tree.contains with
    | some path => .project path
    | none =>
      if (tree.read? (join directory projectFileName)).any hasSettings then
        .projectFile (join directory projectFileName)
      else
        match (global.map (join · "config.toml".toList)).filter tree.contains with
        | some path => .global path
        | none => .default

def find (tree : FileTree) (target : List Char) (explicit global : Option (List Char)) : Origin :=
  findIn tree (if tree.hasFile target then (parent? target).getD target else target) explicit global

/-- The directory of the user's settings: the one that is set, else one in the home directory. -/
def globalDirectory (set : Option (List Char)) (home : Option (List Char)) : Option (List Char) :=
  set.or (home.map (join · ".dj-lint".toList))

def load (tree : FileTree) (path : List Char) : Except Problem Settings :=
  match tree.read? path with
  | none => .error .unreadable
  | some text =>
    if fileName? path == some projectFileName then
      match parseProject text with
      | .ok (some settings) => .ok settings
      | .ok none => .error .missingTable
      | .error problem => .error problem
    else parse text

end TableLint.Settings
