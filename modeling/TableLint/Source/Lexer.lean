import TableLint.Source.Literal
import TableLint.Source.Token
import TableLint.Text.Blank
import TableLint.Text.Identifier

/-!
Cutting program text into tokens. Scanning only measures: each scanner answers how many characters a
gap or a token takes, and `tokensFrom` cuts the text there, so nothing is lost or changed.

Inside brackets line ends are blanks. The text of a formatted string is cut at its replacement
fields, whose inside is program text again and may hold further strings.
-/
namespace TableLint.Source

open Text

inductive Enclosure where
  | round
  | square
  | curly
  /-- The text of a formatted string up to its closing quote. -/
  | formatted (quote : List Char) (raw : Bool)
  | field
  /-- The format of a replacement field, after its colon. -/
  | format
deriving DecidableEq, Repr

/-- What was found before a token: how much text, whether a line ended in it, and how far the last
line is indented. -/
structure Gap where
  length : Nat
  newline : Bool
  width : Nat

def Gap.add (gap : Gap) (n : Nat) : Gap := { gap with length := gap.length + n }

/-- Characters between tokens: blanks and the invisible characters that count as such. -/
def isSpace (c : Char) : Bool :=
  isBlank c || c == '\uFEFF' || c == '\u2060' || c == '\u200B'

/-- Measures a gap. A tab is eight columns wide; a backslash joins its line with the next one. -/
def scanGap : (comment newline : Bool) → (width : Nat) → List Char → Gap
  | _, newline, width, [] => ⟨0, newline, width⟩
  | comment, newline, width, c :: s =>
    if c == '\n' then (scanGap false true 0 s).add 1
    else if comment || c == '#' then (scanGap true newline width s).add 1
    else if c == ' ' then (scanGap false newline (width + 1) s).add 1
    else if c == '\t' then (scanGap false newline (width + 8) s).add 1
    else if c == '\r' || c == '\x0c' then (scanGap false newline 0 s).add 1
    else if isSpace c then (scanGap false newline width s).add 1
    else if c == '\\' then
      match s with
      | [] => ⟨1, newline, width⟩
      | '\n' :: s => (scanGap false newline width s).add 2
      | '\r' :: '\n' :: s => (scanGap false newline width s).add 3
      | _ => ⟨0, newline, width⟩
    else ⟨0, newline, width⟩

/-- The length of the rest of a string, its closing quote included. A backslash takes the next
character along; a line end may stand only in a string with triple quotes. -/
def stringLength? (quote : List Char) : List Char → Option Nat
  | [] => none
  | c :: s =>
    if quote.isPrefixOf (c :: s) then some quote.length
    else if c == '\\' then
      match s with
      | [] => none
      | '\r' :: '\n' :: s => (stringLength? quote s).map (· + 3)
      | _ :: s => (stringLength? quote s).map (· + 2)
    else if c == '\n' && quote.length == 1 then none
    else (stringLength? quote s).map (· + 1)

/-- The length of the text of a formatted string up to a replacement field or the closing quote.
Doubled braces are text, and so is the name in a `\N` escape, which `named` says is being read. -/
def formatTextLength? (quote : List Char) (raw : Bool) : (named : Bool) → List Char → Option Nat
  | _, [] => none
  | true, c :: s => (formatTextLength? quote raw (c != '}') s).map (· + 1)
  | false, c :: s =>
    if quote.isPrefixOf (c :: s) then some 0
    else if c == '{' then
      match s with
      | '{' :: s => (formatTextLength? quote raw false s).map (· + 2)
      | _ => some 0
    else if c == '}' then
      match s with
      | '}' :: s => (formatTextLength? quote raw false s).map (· + 2)
      | _ => none
    else if c == '\\' then
      match s with
      | [] => none
      | '\r' :: '\n' :: s => (formatTextLength? quote raw false s).map (· + 3)
      | 'N' :: '{' :: s =>
        if raw then (formatTextLength? quote raw false ('{' :: s)).map (· + 2)
        else (formatTextLength? quote raw true s).map (· + 3)
      | d :: s =>
        if d == '{' || d == '}' then (formatTextLength? quote raw false (d :: s)).map (· + 1)
        else (formatTextLength? quote raw false s).map (· + 2)
    else if c == '\n' && quote.length == 1 then none
    else (formatTextLength? quote raw false s).map (· + 1)

def countWhile (p : Char → Bool) (s : List Char) : Nat := (s.takeWhile p).length

/-- The length of decimal digits. An underscore may follow each run of them; `digit` says that one
comes right before. -/
def digitsLength : (digit : Bool) → List Char → Nat
  | _, [] => 0
  | digit, c :: s =>
    if c.isDigit then 1 + digitsLength true s
    else if c == '_' && digit then 1 + digitsLength false s
    else 0

def exponentLength : List Char → Nat
  | e :: sign :: s =>
    if e == 'e' || e == 'E' then
      if sign.isDigit then 1 + digitsLength false (sign :: s)
      else if (sign == '+' || sign == '-') && (s.head?.any Char.isDigit) then
        2 + digitsLength false s
      else 0
    else 0
  | _ => 0

/-- The property of the digits that a letter after a zero announces. -/
def radixDigit? (letter : Char) : Option (Char → Bool) :=
  if letter == 'x' || letter == 'X' then some fun c => (hexDigit? c).isSome
  else if letter == 'o' || letter == 'O' then some fun c => (octalDigit? c).isSome
  else if letter == 'b' || letter == 'B' then some fun c => c == '0' || c == '1'
  else none

/-- The length of digits with an underscore allowed before each run of them. -/
def radixLength (isDigit : Char → Bool) : List Char → Nat
  | [] => 0
  | c :: s =>
    if isDigit c || (c == '_' && s.head?.any isDigit) then 1 + radixLength isDigit s else 0

def suffixLength (letters s : List Char) : Nat := if s.head?.any letters.contains then 1 else 0

/-- The length of a number. After the letter of a base at least one digit must follow. -/
def numberLength (s : List Char) : Nat :=
  match s with
  | '0' :: letter :: rest =>
    match (radixDigit? letter).map (radixLength · rest) with
    | some (n + 1) => n + 3 + suffixLength ['l', 'L'] (rest.drop (n + 1))
    | _ => decimalLength s
  | _ => decimalLength s
where
  /-- Digits, an optional fraction, an optional exponent and an optional suffix letter. -/
  decimalLength (s : List Char) : Nat :=
    let whole := digitsLength false s
    let fraction :=
      match s.drop whole with
      | '.' :: rest => 1 + digitsLength false rest
      | _ => 0
    let exponent := exponentLength (s.drop (whole + fraction))
    whole + fraction + exponent +
      suffixLength ['j', 'J', 'l', 'L'] (s.drop (whole + fraction + exponent))

/-- Operators and separators, longer ones first. -/
def marks : List String :=
  ["**=", "//=", ">>=", "<<=", "...", "!=", "->", ":=", "==", "<=", ">=", "<>", "+=", "-=", "*=",
    "/=", "%=", "&=", "|=", "^=", "@=", "**", "//", "<<", ">>", "+", "-", "*", "/", "%", "@", "&",
    "|", "^", "~", "<", ">", "=", ",", ":", ";", "."]

/-- A token that the text starts with: its kind, its length, and the enclosures after it. -/
structure Lexeme where
  kind : Kind
  length : Nat
  enclosures : List Enclosure

/-- What can open a string: a quote, or a back-quote, with which the string has no value. -/
def delimiters : List (List Char) := quotes ++ [['\x60']]

/-- The token at the start of text that is not inside a formatted string. -/
def programLexeme? (enclosures : List Enclosure) (s : List Char) : Option Lexeme :=
  let letters := s.takeWhile isPrefixLetter
  match delimiters.find? (·.isPrefixOf (s.drop letters.length)) with
  | some quote =>
    let before := letters.length + quote.length
    if letters.any fun c => c == 'f' || c == 'F' then
      let raw := letters.any fun c => c == 'r' || c == 'R'
      some ⟨.opening, before, .formatted quote raw :: enclosures⟩
    else (stringLength? quote (s.drop before)).map fun n => ⟨.string, before + n, enclosures⟩
  | none =>
    match s with
    | [] => none
    | c :: rest =>
      if startsIdentifier c then some ⟨.word, 1 + countWhile continuesIdentifier rest, enclosures⟩
      else if c.isDigit || (c == '.' && rest.head?.any Char.isDigit) then
        some ⟨.number, numberLength s, enclosures⟩
      else
        match c, enclosures with
        | '(', _ => some ⟨.opening, 1, .round :: enclosures⟩
        | '[', _ => some ⟨.opening, 1, .square :: enclosures⟩
        | '{', _ => some ⟨.opening, 1, .curly :: enclosures⟩
        | ')', .round :: outer => some ⟨.closing, 1, outer⟩
        | ']', .square :: outer => some ⟨.closing, 1, outer⟩
        | '}', .curly :: outer => some ⟨.closing, 1, outer⟩
        | '}', .field :: outer => some ⟨.closing, 1, outer⟩
        | ':', .field :: _ => some ⟨.mark, 1, .format :: enclosures⟩
        | '!', .field :: _ =>
          if rest.head? == some '=' then some ⟨.mark, 2, enclosures⟩
          else some ⟨.mark, 1, enclosures⟩
        | _, _ =>
          (marks.find? (·.toList.isPrefixOf s)).map fun mark => ⟨.mark, mark.length, enclosures⟩

def lexeme? (enclosures : List Enclosure) (s : List Char) : Option Lexeme :=
  match enclosures with
  | .formatted quote raw :: outer =>
    if quote.isPrefixOf s then some ⟨.closing, quote.length, outer⟩
    else
      (formatTextLength? quote raw false s).map fun n =>
        if n == 0 then ⟨.opening, 1, .field :: enclosures⟩ else ⟨.formatText, n, enclosures⟩
  | .format :: outer =>
    match s with
    | '}' :: _ => some ⟨.closing, 1, outer.drop 1⟩
    | '{' :: _ => some ⟨.opening, 1, .field :: enclosures⟩
    | _ =>
      some ⟨.formatText, countWhile (fun c => c != '{' && c != '}' && c != '\n') s, enclosures⟩
  | _ => programLexeme? enclosures s

/-- Text of a formatted string has no gaps. -/
def hasGaps : List Enclosure → Bool
  | .formatted _ _ :: _ => false
  | .format :: _ => false
  | _ => true

/-- The tokens of the text from a place on. `first` says that no token came before. Fails where no
token starts, and at the end if something is still open. -/
def tokensFrom (position : Position) (first : Bool) (enclosures : List Enclosure)
    (s : List Char) : Option (List Token) :=
  let gap := if hasGaps enclosures then scanGap false false 0 s else ⟨0, false, 0⟩
  match _hs : s.drop gap.length with
  | [] => if enclosures.isEmpty then some [] else none
  | c :: rest =>
    match lexeme? enclosures (c :: rest) with
    | none => none
    | some lexeme =>
      if _hl : lexeme.length = 0 then none
      else
        let start := position.advance (s.take gap.length)
        let text := (c :: rest).take lexeme.length
        let token : Token :=
          { kind := lexeme.kind, gap := s.take gap.length, text, start
            indent :=
              if enclosures.isEmpty && (first || gap.newline) then some gap.width else none }
        (tokensFrom (start.advance text) false lexeme.enclosures
          ((c :: rest).drop lexeme.length)).map (token :: ·)
termination_by s.length
decreasing_by
  have h := congrArg List.length _hs
  simp only [List.length_drop, List.length_cons] at h ⊢
  omega

def tokens? (s : List Char) : Option (List Token) := tokensFrom {} true [] s

end TableLint.Source
