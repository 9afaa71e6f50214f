import TableLint.Text.Digit

/-!
Strings of a TOML document: basic and literal, on one line or several. Each reader is given what
stands after the opening quotes and answers the text and what stands after the closing ones.
-/
namespace TableLint.Toml

open Text

/-- Control characters, which no string or comment may hold. The tab is none of them. -/
def isControl (c : Char) : Bool := (c.toNat < 0x20 && c != '\t') || c.toNat == 0x7F

def isSpaceOrTab (c : Char) : Bool := c == ' ' || c == '\t'

def skipSpace (s : List Char) : List Char := s.dropWhile isSpaceOrTab

def afterNewline? : List Char → Option (List Char)
  | '\n' :: s => some s
  | '\r' :: '\n' :: s => some s
  | _ => none

def escaped? (c : Char) : Option Char :=
  match c with
  | 'b' => some '\x08'
  | 't' => some '\t'
  | 'n' => some '\n'
  | 'f' => some '\x0c'
  | 'r' => some '\r'
  | '"' => some '"'
  | '\\' => some '\\'
  | _ => none

def coded? (digits : List Char) : Option Char := (number? hexDigit? 16 digits).bind charOf?

def put (c : Char) (read : List Char × List Char) : List Char × List Char := (c :: read.1, read.2)

def basic? : List Char → Option (List Char × List Char)
  | [] => none
  | '"' :: s => some ([], s)
  | '\\' :: 'u' :: a :: b :: c :: d :: s => do
    let code ← coded? [a, b, c, d]
    return put code (← basic? s)
  | '\\' :: 'U' :: a :: b :: c :: d :: e :: f :: g :: h :: s => do
    let code ← coded? [a, b, c, d, e, f, g, h]
    return put code (← basic? s)
  | '\\' :: c :: s => do
    let char ← escaped? c
    return put char (← basic? s)
  | c :: s => if isControl c || c == '\\' then none else (basic? s).map (put c)

def literal? : List Char → Option (List Char × List Char)
  | [] => none
  | '\'' :: s => some ([], s)
  | c :: s => if isControl c then none else (literal? s).map (put c)

/-- A basic string on several lines. After a backslash at the end of a line blanks and line ends are
skipped, as `skipping` says. -/
def longBasic? : (skipping : Bool) → List Char → Option (List Char × List Char)
  | _, [] => none
  | _, '"' :: '"' :: '"' :: '"' :: '"' :: s => some (['"', '"'], s)
  | _, '"' :: '"' :: '"' :: '"' :: s => some (['"'], s)
  | _, '"' :: '"' :: '"' :: s => some ([], s)
  | skipping, '\r' :: '\n' :: s =>
    if skipping then longBasic? true s else (longBasic? false s).map (put '\n')
  | _, '\\' :: 'u' :: a :: b :: c :: d :: s => do
    let code ← coded? [a, b, c, d]
    return put code (← longBasic? false s)
  | _, '\\' :: 'U' :: a :: b :: c :: d :: e :: f :: g :: h :: s => do
    let code ← coded? [a, b, c, d, e, f, g, h]
    return put code (← longBasic? false s)
  | _, '\\' :: c :: s => do
    match escaped? c with
    | some char => return put char (← longBasic? false s)
    | none => if (afterNewline? (skipSpace (c :: s))).isSome then longBasic? true (c :: s) else none
  | skipping, c :: s =>
    if skipping && (isSpaceOrTab c || c == '\n') then longBasic? true s
    else if (isControl c && c != '\n') || c == '\\' then none
    else (longBasic? false s).map (put c)

def longLiteral? : List Char → Option (List Char × List Char)
  | [] => none
  | '\'' :: '\'' :: '\'' :: '\'' :: '\'' :: s => some (['\'', '\''], s)
  | '\'' :: '\'' :: '\'' :: '\'' :: s => some (['\''], s)
  | '\'' :: '\'' :: '\'' :: s => some ([], s)
  | '\r' :: '\n' :: s => (longLiteral? s).map (put '\n')
  | c :: s => if isControl c && c != '\n' then none else (longLiteral? s).map (put c)

/-- The text without the line end right after opening quotes. -/
def skipFirstNewline (s : List Char) : List Char := (afterNewline? s).getD s

def string? : List Char → Option (List Char × List Char)
  | '"' :: '"' :: '"' :: s => longBasic? false (skipFirstNewline s)
  | '"' :: s => basic? s
  | '\'' :: '\'' :: '\'' :: s => longLiteral? (skipFirstNewline s)
  | '\'' :: s => literal? s
  | _ => none

end TableLint.Toml
