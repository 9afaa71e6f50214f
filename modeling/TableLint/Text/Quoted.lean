/-!
Search that steps over quoted text. A quote character opens quoted text only if the same character
occurs again; a quote that is never closed is an ordinary character.
-/
namespace TableLint.Text

def isQuote (c : Char) : Bool := c == '"' || c == '\''

/-- The text split before the first `target` outside quotes. `inside` is the quote that is open. -/
def splitUnquotedFrom (target : Char) : Option Char → List Char → Option (List Char × List Char)
  | _, [] => none
  | some quote, c :: s =>
    (splitUnquotedFrom target (if c == quote then none else some quote) s).map
      fun (before, rest) => (c :: before, rest)
  | none, c :: s =>
    if c == target then some ([], c :: s)
    else
      (splitUnquotedFrom target (if isQuote c && s.contains c then some c else none) s).map
        fun (before, rest) => (c :: before, rest)

def splitUnquoted (target : Char) (s : List Char) : Option (List Char × List Char) :=
  splitUnquotedFrom target none s

end TableLint.Text
