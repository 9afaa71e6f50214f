import TableLint.Text.Letter

/-!
Messages that can be reported. A message has a code, a name, and a template whose places `{}` are
filled with arguments.
-/
namespace TableLint.Report

inductive Severity where
  | info
  | warning
  | error
deriving DecidableEq, Repr

namespace Severity

def word : Severity → List Char
  | info => "info".toList
  | warning => "warning".toList
  | error => "error".toList

def ofWord? (s : List Char) : Option Severity := [info, warning, error].find? (·.word == s)

theorem ofWord?_word (s : Severity) : ofWord? s.word = some s := by
  cases s <;> rfl

end Severity

structure Message where
  code : List Char
  name : List Char
  template : List Char := []
  help : List Char := []
  severity : Severity := .error
deriving DecidableEq, Repr

/-- Fills the places of a template in order. A place without an argument becomes empty; arguments
without a place are left out. -/
def fill : List Char → List (List Char) → List Char
  | '{' :: '}' :: s, [] => fill s []
  | '{' :: '}' :: s, a :: args => a ++ fill s args
  | c :: s, args => c :: fill s args
  | [], _ => []

namespace Message

def render (m : Message) (args : List (List Char)) : List Char := fill m.template args

/-- The key is the name or the code, up to case. -/
def answersTo (m : Message) (key : List Char) : Bool :=
  Text.sameLetters key m.name || Text.sameLetters key m.code

end Message

end TableLint.Report
