import TableLint.Text.Blank
import TableLint.Text.Letter
import TableLint.Text.Split

/-!
Comments that allow a rule to be broken. A directive counts for its own line and the next one. It is
written `# dj-lint: allow(rule, …) reason="…"` or `# pylint: disable=rule,…`; the rule `all` stands
for every rule.
-/
namespace TableLint.Report

open Text

/-- A directive: the rules it allows, in lower case, and why. -/
structure Directive where
  rules : List (List Char)
  reason : Option (List Char)
deriving DecidableEq, Repr

namespace Directive

def ruleNames (s : List Char) : List (List Char) := commaList (fun item => lower (trim item)) s

/-- A directive for at least one rule. -/
def make? (rules : List (List Char)) (reason : Option (List Char)) : Option Directive :=
  if rules.isEmpty then none else some { rules, reason }

def reason? (s : List Char) : Option (List Char) := do
  let quoted ← "reason=".toList.isPrefixOf? (trim s)
  let inner ← ['"'].isPrefixOf? (trim quoted)
  let (reason, _) ← cut? ['"'] inner
  return reason

/-- Reads what stands after the name of this tool. -/
def allow? (s : List Char) : Option Directive := do
  let inner ← "allow(".toList.isPrefixOf? (trim s)
  let (rules, after) ← cut? [')'] (trim inner)
  make? (ruleNames rules) (reason? after)

/-- Reads what stands after the name of the other linter. -/
def disable? (s : List Char) : Option Directive := do
  let after ← "disable".toList.isPrefixOf? (trim s)
  let rules ← ['='].isPrefixOf? (trimStart after)
  make? (ruleNames (upTo ['#'] rules)) none

def ofComment? (comment : List Char) : Option Directive :=
  match "dj-lint:".toList.isPrefixOf? (trim comment) with
  | some rest => allow? rest
  | none => ("pylint:".toList.isPrefixOf? (trim comment)).bind disable?

/-- The directive of a line: of the texts after its hashes, the first that is one. -/
def ofLine? : List Char → Option Directive
  | [] => none
  | c :: s => if c == '#' then (ofComment? s).or (ofLine? s) else ofLine? s

def allows (d : Directive) (rule : List Char) : Bool :=
  d.rules.contains (lower rule) || d.rules.contains "all".toList

end Directive

/-- The directive by which a rule may be broken on a line: one on the line before, or else one on
the line itself. -/
def allowance? (content : List Char) (line : Nat) (rule : List Char) : Option Directive :=
  let directiveOn (n : Nat) : Option Directive :=
    if n == 0 then none
    else ((lines content)[n - 1]?.bind Directive.ofLine?).filter (·.allows rule)
  (directiveOn (line - 1)).or (directiveOn line)

end TableLint.Report
