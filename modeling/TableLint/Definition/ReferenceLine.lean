import TableLint.Text.Blank
import TableLint.Text.Split
import TableLint.Definition.Problem

/-!
Reference lines: `-> [options] table`. The options are words in brackets, separated by commas; if
the bracket is not well formed it belongs to the reference.
-/
namespace TableLint.Definition

open Text

structure ReferenceLine where
  options : List (List Char)
  reference : List Char
deriving DecidableEq, Repr

namespace ReferenceLine

/-- The line counts as a reference line: it has an arrow, with neither quotes nor a hash before
it. -/
def isReference (line : List Char) : Bool :=
  match cut? "->".toList line with
  | some (before, _) => !before.any fun c => c == '"' || c == '#' || c == '\''
  | none => false

/-- The word at the start of the text, blanks before it apart. -/
def leadingWord (s : List Char) : List Char := (trimStart s).takeWhile Char.isAlpha

def afterLeadingWord (s : List Char) : List Char :=
  trimStart ((trimStart s).dropWhile Char.isAlpha)

theorem afterLeadingWord_length_lt {s : List Char} (h : leadingWord s ≠ []) :
    (afterLeadingWord s).length < s.length := by
  have h₁ := trimStart_length_le s
  have h₂ := trimStart_length_le ((trimStart s).dropWhile Char.isAlpha)
  have h₃ : ((trimStart s).dropWhile Char.isAlpha).length < (trimStart s).length := by
    rw [leadingWord] at h
    cases hs : trimStart s with
    | nil => simp [hs] at h
    | cons c t =>
      by_cases hc : c.isAlpha
      · simp only [List.dropWhile_cons, hc, if_true, List.length_cons]
        exact Nat.lt_succ_of_le (List.dropWhile_sublist _).length_le
      · simp [hs, hc] at h
  unfold afterLeadingWord
  omega

/-- The words up to the closing bracket, and the text after it. -/
def takeWords (s : List Char) : Option (List (List Char) × List Char) :=
  if _hw : leadingWord s = [] then none
  else
    match _hr : afterLeadingWord s with
    | ',' :: rest => (takeWords rest).map fun (words, after) => (leadingWord s :: words, after)
    | ']' :: rest => some ([leadingWord s], rest)
    | _ => none
termination_by s.length
decreasing_by
  have h₁ := afterLeadingWord_length_lt _hw
  simp only [_hr, List.length_cons] at h₁
  omega

/-- The options after the arrow, and the text after them. -/
def takeOptions? (s : List Char) : Option (List (List Char) × List Char) :=
  match trimStart s with
  | '[' :: rest => takeWords rest
  | _ => none

def parse (line : List Char) : Except Problem ReferenceLine :=
  match trimStart line with
  | '-' :: '>' :: after =>
    match takeOptions? after with
    | some (options, reference) => .ok { options, reference }
    | none => .ok { options := [], reference := after }
  | rest => .error (.arrowMissing line (line.length - rest.length) rest.head?)

/-- The options of a line, none if it is no reference line. -/
def optionsOf (line : List Char) : List (List Char) :=
  match trimStart line with
  | '-' :: '>' :: after => ((takeOptions? after).map Prod.fst).getD []
  | _ => []

end ReferenceLine

end TableLint.Definition
