import TableLint.Settings.Basic
import TableLint.Toml.Document

/-!
Settings from TOML. They are a document of their own, or the table `[tool.dj-lint]` of a project
file. Every group of settings is a table, or an array with its values in order; what is missing has
its default, and unknown keys do not matter.
-/
namespace TableLint.Settings

open Toml (Value Entries)

/-- Where settings stand. In a document of their own a date counts as a table of unknown keys and an
array may be longer than its group; in a project file a date counts as its text and an array may
not be longer. -/
inductive Place where
  | document
  | project
deriving DecidableEq, Repr

def bool? : Value → Option Bool
  | .boolean b => some b
  | _ => none

def text? (place : Place) : Value → Option (List Char)
  | .string s => some s
  | .dateTime s => if place == .project then some s else none
  | _ => none

def texts? (place : Place) : Value → Option (List (List Char))
  | .array items => items.mapM (text? place)
  | _ => none

def isEmptyValue : Value → Bool
  | .array items => items.isEmpty
  | .table _ entries => entries.isEmpty
  | _ => false

/-- One of several words: the word itself, or a table with the word as its only key and nothing
below it. -/
def word? : Value → Option (List Char)
  | .string s => some s
  | .table _ [(key, value)] => if isEmptyValue value then some key else none
  | _ => none

def readSeverity? (v : Value) : Option Report.Severity := (word? v).bind Report.Severity.ofWord?

def readMode? (v : Value) : Option NullableMode := do
  match String.ofList (← word? v) with
  | "after-options" => some .afterOptions
  | "per-option" => some .perOption
  | _ => none

def group? (place : Place) (keys : List String) : Value → Option (List (Option Value))
  | .table _ entries => some (keys.map fun key => entries.lookup key.toList)
  | .array items =>
    if place == .project && items.length > keys.length then none
    else some (keys.zipIdx.map fun (_, n) => items[n]?)
  | .tables items =>
    if place == .project && items.length > keys.length then none
    else some (keys.zipIdx.map fun (_, n) => items[n]?.map (.table .header))
  | .dateTime _ => if place == .document then some (keys.map fun _ => none) else none
  | _ => none

def orDefault {α : Type} (default : α) (read? : Value → Option α) : Option Value → Option α
  | none => some default
  | some v => read? v

def readFiles? (place : Place) (v : Value) : Option Files := do
  let keys := ["root", "exclude", "respect_gitignore", "fail_on_parse_error"]
  match ← group? place keys v with
  | [root, exclude, respect, fail] =>
    let base : Files := {}
    return {
      root := ← orDefault base.root (text? place) root
      exclude := ← orDefault base.exclude (texts? place) exclude
      respectGitignore := ← orDefault base.respectGitignore bool? respect
      failOnParseError := ← orDefault base.failOnParseError bool? fail }
  | _ => none

def readRule? (place : Place) (v : Value) : Option RuleSetting := do
  match ← group? place ["enabled", "severity"] v with
  | [enabled, severity] =>
    return {
      enabled := ← orDefault none (fun v => (bool? v).map some) enabled
      severity := ← orDefault none (fun v => (readSeverity? v).map some) severity }
  | _ => none

def readRules? (place : Place) : Value → Option (List (List Char × RuleSetting))
  | .table _ entries => entries.mapM fun (key, v) => (readRule? place v).map fun r => (key, r)
  | _ => none

def readTables? (place : Place) (v : Value) : Option Tables := do
  let keys := ["permit_filepath", "module_aliases", "extension_bases", "null_pk_ref"]
  match ← group? place keys v with
  | [permit, aliases, bases, mode] =>
    let base : Tables := {}
    return {
      permitFilepath := ← orDefault base.permitFilepath bool? permit
      moduleAliases := ← orDefault base.moduleAliases (texts? place) aliases
      extensionBases := ← orDefault base.extensionBases (texts? place) bases
      nullableMode := ← orDefault base.nullableMode readMode? mode }
  | _ => none

def readSettings? (place : Place) (v : Value) : Option Settings := do
  match ← group? place ["analyzer", "rules", "datajoint"] v with
  | [files, rules, tables] =>
    return {
      files := ← orDefault {} (readFiles? place) files
      rules := ← orDefault [] (readRules? place) rules
      tables := ← orDefault {} (readTables? place) tables }
  | _ => none

inductive Problem where
  /-- The file is missing or no text. -/
  | unreadable
  | malformed
  /-- A project file has no table for this tool. -/
  | missingTable
deriving DecidableEq, Repr

def parse (text : List Char) : Except Problem Settings :=
  match (Toml.parse? text).bind fun entries => readSettings? .document (.table .header entries) with
  | some settings => .ok settings
  | none => .error .malformed

/-- The settings in a project file, none if it has no table for this tool. -/
def parseProject (text : List Char) : Except Problem (Option Settings) :=
  match Toml.parse? text with
  | none => .error .malformed
  | some entries =>
    match entries.lookup "tool".toList with
    | none | some (.dateTime _) => .ok none
    | some (.table _ tools) =>
      match tools.lookup "dj-lint".toList with
      | none => .ok none
      | some v =>
        match readSettings? .project v with
        | some settings => .ok (some settings)
        | none => .error .malformed
    | some _ => .error .malformed

end TableLint.Settings
