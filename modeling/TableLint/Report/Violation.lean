import TableLint.Report.Message
import TableLint.Source.Position
import TableLint.Text.Digit

/-!
Violations: a message with its arguments at a place in a file, and the texts made of it.
-/
namespace TableLint.Report

open Text

/-- A place in a file. The column counts from one. -/
structure Location where
  file : List Char := []
  line : Nat := 0
  column : Nat := 0
  offset : Nat := 0
  length : Nat := 0
deriving DecidableEq, Repr

def Location.ofSpan (file : List Char) (span : Source.Span) : Location :=
  { file, line := span.line, column := span.column + 1, offset := span.offset
    length := span.length }

structure Violation where
  code : List Char
  rule : List Char
  severity : Severity
  location : Location
  message : List Char
  args : List (List Char) := []
  suggestion : Option (List Char) := none
deriving DecidableEq, Repr

namespace Violation

/-- The violation that a message reports. Its help, if it has one, is the suggestion. -/
def ofMessage (m : Message) (location : Location) (args : List (List Char)) : Violation :=
  { code := m.code, rule := m.name, severity := m.severity, location, message := m.render args, args
    suggestion := if m.help.isEmpty then none else some m.help }

def placeText (v : Violation) : List Char :=
  v.location.file ++ [':'] ++ decimal v.location.line ++ [':'] ++ decimal v.location.column

def blockText (v : Violation) : List Char :=
  v.code ++ [' '] ++ v.rule ++ " at ".toList ++ v.placeText ++ "\n  ".toList ++ v.severity.word ++
    ": ".toList ++ v.message ++ ['\n'] ++
    match v.suggestion with
    | some help => "  = help: ".toList ++ help ++ ['\n']
    | none => []

def lineText (v : Violation) : List Char :=
  v.placeText ++ ": ".toList ++ v.severity.word ++ " [".toList ++ v.code ++ "] ".toList ++ v.message

def headline (v : Violation) : List Char := ['['] ++ v.code ++ "] ".toList ++ v.message

end Violation

end TableLint.Report

namespace TableLint

structure Report where
  violations : List Report.Violation := []
  filesChecked : Nat := 0
deriving Repr

namespace Report

def ofSeverity (r : Report) (severity : Severity) : List Violation :=
  r.violations.filter (·.severity == severity)

def count (r : Report) (severity : Severity) : Nat := (r.ofSeverity severity).length

def hasErrors (r : Report) : Bool := r.violations.any (·.severity == .error)

def append (r s : Report) : Report :=
  { violations := r.violations ++ s.violations, filesChecked := r.filesChecked + s.filesChecked }

theorem hasErrors_iff (r : Report) : r.hasErrors = true ↔ 0 < r.count .error := by
  simp [hasErrors, count, ofSeverity, List.length_pos_iff, List.filter_eq_nil_iff]

end Report

end TableLint
