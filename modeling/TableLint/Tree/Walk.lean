import TableLint.Tree.Ignore

/-!
Walking a directory. The ignore files of a directory count for all that is below it; of the three
kinds the more specific one decides, and of files of one kind the one nearest to the path. What is
below an ignored directory is never reached.
-/
namespace TableLint.Tree

structure IgnoreRules where
  directory : List (List Char)
  /-- The patterns of `.ignore`. -/
  plain : List IgnorePattern
  /-- The patterns of `.gitignore`. -/
  git : List IgnorePattern
  /-- The patterns of `.git/info/exclude`. -/
  gitExclude : List IgnorePattern

namespace IgnoreRules

def patternsAt (directory : Entry) (names : List (List Char)) : List IgnorePattern :=
  match directory.find? names with
  | some (.file _ content) => patternsOf content
  | _ => []

/-- The ignore files of a directory; `respectGit` says whether `.gitignore` counts. -/
def ofDirectory (respectGit : Bool) (names : List (List Char)) (directory : Entry) : IgnoreRules :=
  { directory := names
    plain := patternsAt directory [".ignore".toList]
    git := if respectGit then patternsAt directory [".gitignore".toList] else []
    gitExclude := patternsAt directory [".git".toList, "info".toList, "exclude".toList] }

/-- What patterns of this directory say about an entry below it. -/
def verdict? (r : IgnoreRules) (patterns : List IgnorePattern) (names : List (List Char))
    (isDirectory : Bool) : Option Bool :=
  ignoredBy? patterns (bytesOf (joinPieces (names.drop r.directory.length))) isDirectory

end IgnoreRules

/-- The entry is ignored, the rules being given with the nearest directory first. -/
def isIgnored (rules : List IgnoreRules) (names : List (List Char)) (isDirectory : Bool) : Bool :=
  let ask (kind : IgnoreRules → List IgnorePattern) : Option Bool :=
    rules.findSome? fun r => r.verdict? (kind r) names isDirectory
  (((ask (·.plain)).or (ask (·.git))).or (ask (·.gitExclude))).getD false

mutual

/-- The paths of the files in an entry that is reached by the given names, `path` being its own
path. -/
def Entry.files (respectGit : Bool) (rules : List IgnoreRules) (names : List (List Char))
    (path : List Char) : Entry → List (List Char)
  | .file _ _ => [path]
  | .directory name children =>
    filesIn respectGit (.ofDirectory respectGit names (.directory name children) :: rules) names
      path children

def filesIn (respectGit : Bool) (rules : List IgnoreRules) (names : List (List Char))
    (path : List Char) : List Entry → List (List Char)
  | [] => []
  | e :: es =>
    (if isIgnored rules (names ++ [e.name]) e.isDirectory then []
      else e.files respectGit rules (names ++ [e.name]) (join path e.name)) ++
      filesIn respectGit rules names path es

end

/-- The ignore files of the directories above a place, the nearest first. -/
def rulesAbove (tree : FileTree) (respectGit : Bool) (names : List (List Char)) :
    List IgnoreRules :=
  (List.range names.length).reverse.filterMap fun n =>
    (tree.root.find? (names.take n)).map (IgnoreRules.ofDirectory respectGit (names.take n))

def walk (tree : FileTree) (respectGit : Bool) (path : List Char) : List (List Char) :=
  match tree.locate? path with
  | none => []
  | some names =>
    match tree.root.find? names with
    | some e => e.files respectGit (rulesAbove tree respectGit names) names path
    | none => []

end TableLint.Tree
