import TableLint.Text.Blank
import TableLint.Tree.Entry

/-!
Ignore files. Each line is a pattern for paths below the directory of the file; the last line that
covers a path decides, and a line that starts with `!` keeps the path. Patterns are compared with
the bytes of the path: `?` and `*` do not cover a slash, `**` as a whole piece covers any pieces,
`{…,…}` are alternatives and a backslash takes the next character literally.
-/
namespace TableLint.Tree

open Text

def bytesOf (s : List Char) : List UInt8 := s.flatMap String.utf8EncodeChar

def slash : UInt8 := 47

inductive IgnoreToken where
  | literal (bytes : List UInt8)
  /-- One byte that is no slash. -/
  | anyByte
  /-- Any bytes but slashes. -/
  | anyBytes
  /-- Nothing, a slash, or anything up to a slash, at the start. -/
  | anyStart
  /-- A slash and anything after it, at the end. -/
  | anyEnd
  /-- A slash, or anything between two slashes. -/
  | anyMiddle
  /-- One byte of a class. -/
  | byteClass (negated : Bool) (ranges : List (UInt8 × UInt8))
  | alternatives (choices : List (List IgnoreToken))
deriving Repr

/-- What is left after some bytes that are no slashes. -/
def endsInPiece : List UInt8 → List (List UInt8)
  | [] => [[]]
  | b :: s => if b == slash then [b :: s] else (b :: s) :: endsInPiece s

/-- What is left after some bytes that end in a slash. -/
def endsAfterSlash : List UInt8 → List (List UInt8)
  | [] => []
  | b :: s => if b == slash then s :: endsAfterSlash s else endsAfterSlash s

def endsOf : List UInt8 → List (List UInt8)
  | [] => [[]]
  | b :: s => (b :: s) :: endsOf s

mutual

/-- What can be left of a path after a token. -/
def IgnoreToken.rest : IgnoreToken → List UInt8 → List (List UInt8)
  | .literal bytes, s => (bytes.isPrefixOf? s).toList
  | .anyByte, s =>
    match s with
    | [] => []
    | b :: s => if b == slash then [] else [s]
  | .anyBytes, s => endsInPiece s
  | .anyStart, s =>
    s :: endsAfterSlash s
  | .anyEnd, s =>
    match s with
    | [] => []
    | b :: s => if b == slash then endsOf s else []
  | .anyMiddle, s =>
    match s with
    | [] => []
    | b :: s => if b == slash then s :: endsAfterSlash s else []
  | .byteClass negated ranges, s =>
    match s with
    | [] => []
    | b :: s => if (ranges.any fun (low, high) => low ≤ b && b ≤ high) != negated then [s] else []
  | .alternatives choices, s => restAny (choices.all List.isEmpty) choices s

def restAll : List IgnoreToken → List UInt8 → List (List UInt8)
  | [], s => [s]
  | t :: ts, s => (t.rest s).flatMap (restAll ts)

/-- What can be left of a path after one of several choices. Empty choices do not count, unless
there are no others. -/
def restAny (onlyEmpty : Bool) : List (List IgnoreToken) → List UInt8 → List (List UInt8)
  | [], s => if onlyEmpty then [s] else []
  | choice :: choices, s =>
    (if choice.isEmpty then [] else restAll choice s) ++ restAny onlyEmpty choices s

end

def coversBytes (tokens : List IgnoreToken) (path : List UInt8) : Bool :=
  match tokens with
  | [.anyStart] => true
  | _ => (restAll tokens path).any List.isEmpty

def byteRanges (low high : Char) : List (UInt8 × UInt8) :=
  if low == high then (bytesOf [low]).map fun b => (b, b)
  else
    match bytesOf [low], bytesOf [high] with
    | [a], [b] => [(a, b)]
    | lows, highs => lows.dropLast.map (fun b => (b, b)) ++
        (match lows.getLast?, highs with
          | some a, b :: more => (a, b) :: more.map fun b => (b, b)
          | _, _ => [])

/-- Reads the characters of a class up to its closing bracket, and what follows. `ranges` holds what
was read, the latest first. -/
def classRanges? (first inRange : Bool) (ranges : List (Char × Char)) :
    List Char → Option (List (Char × Char) × List Char)
  | [] => none
  | c :: s =>
    if c == ']' && !first then
      some ((if inRange then ('-', '-') :: ranges else ranges).reverse, s)
    else if c == '-' && !first && !inRange then classRanges? false true ranges s
    else if inRange then
      match ranges with
      | (low, _) :: older =>
        if c < low then none else classRanges? false false ((low, c) :: older) s
      | [] => none
    else classRanges? false false ((c, c) :: ranges) s

def byteClass? (s : List Char) : Option (IgnoreToken × List Char) :=
  let (negated, inner) := match s with
    | '!' :: inner => (true, inner)
    | '^' :: inner => (true, inner)
    | _ => (false, s)
  (classRanges? true false [] inner).map fun (ranges, rest) =>
    (.byteClass negated (ranges.flatMap fun (low, high) => byteRanges low high), rest)

/-- Alternatives being read: those that are complete and the current one, each with the latest
first. -/
structure Choices where
  done : List (List IgnoreToken) := []
  current : List IgnoreToken := []

def pushToken (t : IgnoreToken) : List Choices → List Choices
  | [] => []
  | c :: outer => { c with current := t :: c.current } :: outer

/-- What a double star in the middle of a pattern becomes, given the tokens before it. It takes the
slash before it along. -/
def doubleStar (atEnd : Bool) : List IgnoreToken → List IgnoreToken
  | .anyStart :: before => .anyStart :: before
  | .anyEnd :: before => .anyEnd :: before
  | _ :: before => (if atEnd then .anyEnd else .anyMiddle) :: before
  | [] => [if atEnd then .anyEnd else .anyMiddle]

/-- Reads a pattern. `previous` is the character before, `stack` the alternatives that are open,
innermost first, with the pattern itself as the last; fuel is the length of the pattern. -/
def ignoreTokens? (previous : Option Char) (stack : List Choices) :
    (fuel : Nat) → List Char → Option (List IgnoreToken)
  | _, [] =>
    match stack with
    | [whole] => some whole.current.reverse
    | _ => none
  | 0, _ => none
  | fuel + 1, c :: s =>
    let inside := stack.length > 1
    let plain (t : IgnoreToken) := ignoreTokens? (some c) (pushToken t stack) fuel s
    match c with
    | '?' => plain .anyByte
    | '*' =>
      match s with
      | '*' :: s =>
        let twice :=
          ignoreTokens? (some '*') (pushToken .anyBytes (pushToken .anyBytes stack)) fuel s
        let current := match stack with
          | [] => []
          | choices :: _ => choices.current
        if current.isEmpty then
          match s with
          | [] => ignoreTokens? (some '*') (pushToken .anyStart stack) fuel []
          | '/' :: s => ignoreTokens? (some '/') (pushToken .anyStart stack) fuel s
          | _ => twice
        else if previous != some '/' &&
            !(inside && (previous == some ',' || previous == some '{')) then twice
        else
          let becomes (atEnd : Bool) : List Choices := match stack with
            | [] => []
            | choices :: outer =>
              { choices with current := doubleStar atEnd choices.current } :: outer
          match s with
          | [] => ignoreTokens? (some '*') (becomes true) fuel []
          | '/' :: s => ignoreTokens? (some '/') (becomes false) fuel s
          | d :: _ =>
            if inside && (d == ',' || d == '}') then ignoreTokens? (some '*') (becomes true) fuel s
            else twice
      | _ => plain .anyBytes
    | '[' =>
      match byteClass? s with
      | some (t, rest) => ignoreTokens? (some ']') (pushToken t stack) fuel rest
      | none => none
    | '{' => ignoreTokens? (some c) ({} :: stack) fuel s
    | '}' =>
      match stack with
      | choices :: outer :: more =>
        let all := (choices.current :: choices.done).reverse.map List.reverse
        ignoreTokens? (some c) (pushToken (.alternatives all) (outer :: more)) fuel s
      | _ => none
    | ',' =>
      if inside then
        match stack with
        | choices :: outer =>
          ignoreTokens? (some c) ({ done := choices.current :: choices.done } :: outer) fuel s
        | [] => none
      else plain (.literal (bytesOf [c]))
    | '\\' =>
      match s with
      | d :: s => ignoreTokens? (some d) (pushToken (.literal (bytesOf [d])) stack) fuel s
      | [] => none
    | _ => plain (.literal (bytesOf [c]))

structure IgnorePattern where
  tokens : List IgnoreToken
  /-- The line keeps what it covers. -/
  keeps : Bool
  onlyDirectories : Bool
deriving Repr

namespace IgnorePattern

/-- The pattern as it is compared: one without a slash counts at any depth, and `/**` at the end
covers what is inside a directory but not the directory. -/
def anchored (fromStart : Bool) (pattern : List Char) : List Char :=
  let pattern :=
    if fromStart || pattern.contains '/' || pattern == "**".toList then pattern
    else "**/".toList ++ pattern
  if "/**".toList.isSuffixOf pattern then pattern ++ "/*".toList else pattern

/-- Reads a line. Comments, blank lines and lines that are no patterns have none. -/
def ofLine? (line : List Char) : Option IgnorePattern := do
  guard (line.head? != some '#')
  let line := if "\\ ".toList.isSuffixOf line then line else trimEnd line
  guard !line.isEmpty
  let escaped := "\\!".toList.isPrefixOf line || "\\#".toList.isPrefixOf line
  let keeps := !escaped && line.head? == some '!'
  let line := if escaped || keeps then line.drop 1 else line
  let fromStart := !escaped && line.head? == some '/'
  let line := if fromStart then line.drop 1 else line
  let onlyDirectories := line.getLast? == some '/'
  let line := if onlyDirectories then line.dropLast else line
  let line := if onlyDirectories && line.getLast? == some '\\' then line.dropLast else line
  let pattern := anchored fromStart line
  let tokens ← ignoreTokens? none [{}] pattern.length pattern
  return { tokens, keeps, onlyDirectories }

def covers (p : IgnorePattern) (path : List UInt8) (isDirectory : Bool) : Bool :=
  (!p.onlyDirectories || isDirectory) && coversBytes p.tokens path

end IgnorePattern

def byteLines : List UInt8 → List (List UInt8)
  | [] => []
  | b :: s =>
    if b == 10 then [] :: byteLines s
    else match s, byteLines s with
      | [], _ => [[b]]
      | 10 :: _, _ :: lines => (if b == 13 then [] else [b]) :: lines
      | _, line :: lines => (b :: line) :: lines
      | _, [] => [[b]]

/-- The patterns of an ignore file. Reading stops at a line that is not UTF-8; a byte order mark at
the start does not count. -/
def patternsOf (content : ByteArray) : List IgnorePattern :=
  let texts := (byteLines content.toList).map fun line => textOf? (ByteArray.mk line.toArray)
  let lines := (texts.takeWhile Option.isSome).filterMap id
  let lines := match lines with
    | first :: more => first.dropWhile (· == '\uFEFF') :: more
    | [] => []
  lines.filterMap IgnorePattern.ofLine?

/-- What the patterns say about a path: whether it is ignored, if any of them covers it. -/
def ignoredBy? (patterns : List IgnorePattern) (path : List UInt8) (isDirectory : Bool) :
    Option Bool :=
  (patterns.reverse.find? (·.covers path isDirectory)).map (!·.keeps)

end TableLint.Tree
