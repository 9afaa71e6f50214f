import TableLint.Text.Digit

/-!
String literals of program text. A literal is a prefix of letters, an opening quote (one or three
equal quote characters), a body and the same quote again. Only constant text has a value: formatted
strings and byte strings have none.
-/
namespace TableLint.Source

open Text

def isPrefixLetter (c : Char) : Bool :=
  c == 'r' || c == 'R' || c == 'b' || c == 'B' || c == 'u' || c == 'U' || c == 'f' || c == 'F'

/-- The character that exactly `width` hexadecimal digits denote, and how many characters the escape
takes after its backslash. -/
def hexEscape? (width : Nat) (s : List Char) : Option (List Char × Nat) :=
  let digits := s.take width
  if digits.length == width then
    ((number? hexDigit? 16 digits).bind charOf?).map fun c => ([c], width + 1)
  else none

/-- The escape that the text after a backslash starts: the text it stands for and how many
characters it takes. -/
def escape? : List Char → Option (List Char × Nat)
  | [] => none
  | c :: s =>
    match c with
    | '\n' => some ([], 1)
    | '\r' => some ([], if s.head? == some '\n' then 2 else 1)
    | '\\' | '\'' | '"' => some ([c], 1)
    | 'a' => some (['\x07'], 1)
    | 'b' => some (['\x08'], 1)
    | 'f' => some (['\x0c'], 1)
    | 'n' => some (['\n'], 1)
    | 'r' => some (['\r'], 1)
    | 't' => some (['\t'], 1)
    | 'v' => some (['\x0b'], 1)
    | 'x' => hexEscape? 2 s
    | 'u' => hexEscape? 4 s
    | 'U' => hexEscape? 8 s
    | _ =>
      let digits := ((c :: s).take 3).takeWhile fun d => (octalDigit? d).isSome
      if digits.isEmpty then none
      else ((number? octalDigit? 8 digits).bind charOf?).map fun d => ([d], digits.length)

/-- The body with its escapes replaced. A backslash that starts no escape stays. -/
def unescape : List Char → List Char
  | [] => []
  | c :: s =>
    if c == '\\' then
      match escape? s with
      | some (text, taken) => text ++ unescape (s.drop taken)
      | none => c :: unescape s
    else c :: unescape s
termination_by s => s.length

/-- The quotes, longest first. -/
def quotes : List (List Char) := [['"', '"', '"'], ['\'', '\'', '\''], ['"'], ['\'']]

def decode? (text : List Char) : Option (List Char) :=
  let letters := text.takeWhile isPrefixLetter
  let quoted := text.dropWhile isPrefixLetter
  if letters.any fun c => c == 'f' || c == 'F' || c == 'b' || c == 'B' then none
  else
    match quotes.find? (·.isPrefixOf quoted) with
    | none => none
    | some quote =>
      if quoted.length < quote.length * 2 || !quote.isSuffixOf quoted then none
      else
        let body := (quoted.drop quote.length).take (quoted.length - quote.length * 2)
        if letters.any fun c => c == 'r' || c == 'R' then some body else some (unescape body)

end TableLint.Source
