/-!
Values of a TOML document.
-/
namespace TableLint.Toml

/-- How a table came to be, which decides how it may be extended. -/
inductive Form where
  /-- Written in braces, and complete. -/
  | inline
  /-- Only named on the way to another table. -/
  | implicit
  /-- Made by a dotted key. -/
  | dotted
  /-- Opened by a header of its own. -/
  | header
deriving DecidableEq, Repr

inductive Value where
  | string (text : List Char)
  | integer (value : Int)
  /-- A floating-point number, by its spelling. -/
  | float (spelling : List Char)
  | boolean (value : Bool)
  /-- A date, a time or both, in normal form. -/
  | dateTime (text : List Char)
  | array (items : List Value)
  | table (form : Form) (entries : List (List Char × Value))
  /-- An array whose items are tables opened by headers. -/
  | tables (items : List (List (List Char × Value)))
deriving Repr

/-- The entries of a table, no key twice. -/
abbrev Entries := List (List Char × Value)

def replaceEntry (key : List Char) (value : Value) : Entries → Entries
  | [] => []
  | (k, v) :: entries =>
    if k == key then (k, value) :: entries else (k, v) :: replaceEntry key value entries

/-- Goes down the path and changes the entries there. Tables that are missing on the way are made;
a path of a dotted key (`dotted`) does not enter a table that has a header of its own. `change`
learns whether the last table is one that dotted keys made. -/
def changeAt (dotted : Bool) (change : Bool → Entries → Option Entries) (isDotted : Bool) :
    (path : List (List Char)) → Entries → Option Entries
  | [], entries => change isDotted entries
  | key :: path, entries =>
    match entries.lookup key with
    | none => do
      let made ← changeAt dotted change dotted path []
      return entries ++ [(key, .table (if dotted then .dotted else .implicit) made)]
    | some (.table form inner) => do
      if form == .inline || (dotted && form == .header) then none
      else
        let inner ← changeAt dotted change (form == .dotted) path inner
        return replaceEntry key (.table form inner) entries
    | some (.tables items) => do
      let last ← items.getLast?
      let inner ← changeAt dotted change false path last
      return replaceEntry key (.tables (items.dropLast ++ [inner])) entries
    | some _ => none

def addEntry (path : List (List Char)) (value : Value) (entries : Entries) : Option Entries :=
  match path.getLast? with
  | none => none
  | some key =>
    let change (isDotted : Bool) (inner : Entries) : Option Entries :=
      if isDotted != (path.length > 1) || (inner.lookup key).isSome then none
      else some (inner ++ [(key, value)])
    changeAt true change false path.dropLast entries

/-- Opens the table at a path. It may have been named before, but not opened. -/
def openTable (path : List (List Char)) (entries : Entries) : Option Entries :=
  match path.getLast? with
  | none => none
  | some key =>
    let change (_ : Bool) (inner : Entries) : Option Entries :=
      match inner.lookup key with
      | none => some (inner ++ [(key, .table .header [])])
      | some (.table .implicit old) => some (replaceEntry key (.table .header old) inner)
      | some _ => none
    changeAt false change false path.dropLast entries

def openItem (path : List (List Char)) (entries : Entries) : Option Entries :=
  match path.getLast? with
  | none => none
  | some key =>
    let change (_ : Bool) (inner : Entries) : Option Entries :=
      match inner.lookup key with
      | none => some (inner ++ [(key, .tables [[]])])
      | some (.tables items) => some (replaceEntry key (.tables (items ++ [[]])) inner)
      | some _ => none
    changeAt false change false path.dropLast entries

def addEntryAt (place path : List (List Char)) (value : Value) (entries : Entries) :
    Option Entries :=
  changeAt false (fun _ inner => addEntry path value inner) false place entries

end TableLint.Toml
