import TableLint.Report.Violation

/-!
The rules for table classes, each with its message.
-/
namespace TableLint.Rule

open Report

inductive RuleId where
  | definitionError
  | wildcardImport
  | noKey
  | repeatedReference
  | nullableKeyReference
  | badOption
  | filepath
  | noDefinition
deriving DecidableEq, Repr

namespace RuleId

/-- All rules in the order of their codes. -/
def all : List RuleId :=
  [definitionError, wildcardImport, noKey, repeatedReference, nullableKeyReference, badOption,
    filepath, noDefinition]

def message : RuleId → Message
  | definitionError =>
    { code := "DJ001".toList
      name := "definition-error".toList
      template := "`\x7b\x7d` err: \x7b\x7d".toList
      help := "DataJoint was unable to parse the definition of the table.".toList
      severity := .error }
  | wildcardImport =>
    { code := "DJ002".toList
      name := "dj-wildcard-import".toList
      template := "DataJoint linter does not support `*` import".toList
      help := "Names brought in by a `*` import are invisible to foreign key checks.".toList
      severity := .warning }
  | noKey =>
    { code := "DJ003".toList
      name := "no-pk".toList
      template := "`\x7b\x7d` err: Table must have a primary key.".toList
      help := "Declare at least one attribute or reference above the `---` separator.".toList
      severity := .error }
  | repeatedReference =>
    { code := "DJ004".toList
      name := "mult-fk-ref".toList
      template := "`\x7b\x7d` err: Table references the same foreign key multiple times".toList
      help := "Tables should not repeat references.".toList
      severity := .warning }
  | nullableKeyReference =>
    { code := "DJ005".toList
      name := "null-pk-ref".toList
      template := "`\x7b\x7d` err: Primary dependencies cannot be nullable".toList
      help := "Primary key foreign key references cannot be nullable.".toList
      severity := .error }
  | badOption =>
    { code := "DJ006".toList
      name := "bad-opt".toList
      template := "`\x7b\x7d` err: Invalid foreign key option \x7b\x7d".toList
      help := "Supported foreign key options: nullable and unique.".toList
      severity := .error }
  | filepath =>
    { code := "DJ007".toList
      name := "no-fp".toList
      template := "`\x7b\x7d` err: Filepath type not supported".toList
      help := "To disable this check, use --permit-dj-filepath.".toList
      severity := .warning }
  | noDefinition =>
    { code := "DJ008".toList
      name := "no-def".toList
      template := "`\x7b\x7d` err: Table has no definition".toList
      help := "Table classes need a `definition` string attribute.".toList
      severity := .error }

def lookup? (key : List Char) : Option RuleId := all.find? (·.message.answersTo key)

theorem mem_all (r : RuleId) : r ∈ all := by cases r <;> decide

end RuleId

/-- A broken rule, with the arguments of its message. -/
structure Finding where
  rule : RuleId
  args : List (List Char) := []
deriving DecidableEq, Repr

def Finding.violation (file : List Char) (span : Source.Span) (f : Finding) : Violation :=
  Violation.ofMessage f.rule.message (Location.ofSpan file span) f.args

end TableLint.Rule
