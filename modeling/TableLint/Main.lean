import TableLint.CommandLine.Run

/-!
The command line on real files. Before a run, a picture is taken of the files that it can ask for;
the run itself only sees the picture. Afterwards its output is written, and the file that `init`
made.
-/
namespace TableLint.CommandLine

open TableLint.Tree

/-- The content of a file in a directory can be asked for. -/
def isAskedFor (name : List Char) : Bool :=
  Analysis.Analyzer.isModulePath name || name == Settings.projectFileName ||
    (Settings.settingsNames ++ [".ignore".toList, ".gitignore".toList, "exclude".toList]).contains
      name

/-- The names on the way to each place that a path passes, from the working directory to the place
that it leads to. -/
def placesOn (current : List (List Char)) (path : List Char) : List (List (List Char)) :=
  let start := if isAbsolute path then [] else current
  (Text.splitAt '/' path).foldl (fun places piece =>
    let names := places.getLastD start
    places ++ [
      if !isReal piece then names
      else if piece == ['.', '.'] then names.dropLast
      else names ++ [piece]]) [start]

/-- The places outside of its target that a check can ask about: those on the way to the target, the
ignore files above it, and the settings. -/
def placesAsked (current : List (List Char)) (global : Option (List Char))
    (request : CheckRequest) : List (List (List Char)) :=
  let onTheWay := placesOn current request.path
  let target := onTheWay.getLastD current
  let above := (List.range target.length).map fun n => target.take n
  onTheWay ++
    above.flatMap (fun names =>
      [names ++ [".ignore".toList], names ++ [".gitignore".toList],
        names ++ [".git".toList, "info".toList, "exclude".toList]]) ++
    (Settings.projectFileName :: Settings.settingsNames).map (fun name =>
      target.dropLast ++ [name]) ++
    (request.config.toList ++ (global.map (join · "config.toml".toList)).toList).flatMap
      (placesOn current)

def systemPath (names : List (List Char)) : String := String.ofList (FileTree.pathTo names)

/-- The bytes of a file. For one that cannot be read they are no text. -/
def bytesAt (names : List (List Char)) : IO ByteArray :=
  try IO.FS.readBinFile (systemPath names) catch _ => pure ⟨#[0xff]⟩

def kindAt (names : List (List Char)) : IO (Option IO.FS.FileType) := do
  try
    return some (← ((← IO.currentDir) / systemPath names).metadata).type
  catch _ => return none

/-- The picture with the file or directory at a place, without what is in the directory. -/
def addPlace (picture : Entry) (names : List (List Char)) : IO Entry := do
  match ← kindAt names with
  | some .dir => return picture.putDirectory names
  | some _ => return picture.put (← bytesAt names) names
  | none => return picture

/-- The picture with what is in the directory at a place. Links to directories are not followed. -/
partial def addContents (picture : Entry) (names : List (List Char)) : IO Entry := do
  let found ← try ((← IO.currentDir) / systemPath names).readDir catch _ => pure #[]
  let mut picture := picture
  for item in found do
    let inner := names ++ [item.fileName.toList]
    match (← item.path.symlinkMetadata).type, ← kindAt inner with
    | .dir, _ => picture ← addContents (picture.putDirectory inner) inner
    | _, some .file =>
      let content ← if isAskedFor item.fileName.toList then bytesAt inner else pure .empty
      picture := picture.put content inner
    | _, _ => pure ()
  return picture

def pictureFor (current : List (List Char)) (global : Option (List Char)) :
    Request → IO Entry
  | .check request => do
    let picture ← (placesAsked current global request).foldlM addPlace
      (Entry.putDirectory current (.directory [] []))
    let target := (placesOn current request.path).getLastD current
    match ← kindAt target with
    | some .dir => addContents picture target
    | _ => return picture
  | .init _ =>
    addPlace (Entry.putDirectory current (.directory [] [])) (current ++ ["dj-lint.toml".toList])
  | _ => return .directory [] []

def writeResult (result : Result) : IO Unit := do
  let errors ← IO.getStderr
  for warning in result.warnings do
    errors.putStrLn (String.ofList (" WARN ".toList ++ warning))
  IO.print (String.ofList result.stdout)
  if let some message := result.failure then
    errors.putStrLn (String.ofList ("Error: ".toList ++ message))
  if result.exit == 2 then errors.putStr (String.ofList helpText)

def runHere (args : List (List Char)) : IO UInt32 := do
  let current := ((Text.splitAt '/' (← IO.currentDir).toString.toList).filter isReal)
  let directory ← IO.getEnv "DJ_LINT_CONFIG_DIR"
  let home ← IO.getEnv "HOME"
  let global := Settings.globalDirectory (directory.map String.toList) (home.map String.toList)
  let request := Request.ofArguments? args
  let root ← (request.map (pictureFor current global)).getD (pure (.directory [] []))
  let (after, result) := run { root, current } global args
  match request, result.failure, after.entry? "dj-lint.toml".toList with
  | some (.init _), none, some (.file name content) =>
    IO.FS.writeBinFile (systemPath (current ++ [name])) content
  | _, _, _ => pure ()
  writeResult result
  return result.exit.toUInt32

end TableLint.CommandLine

def main (args : List String) : IO UInt32 :=
  TableLint.CommandLine.runHere (args.map String.toList)
