/-!
Cutting text: at a separator, at the first occurrence of a given piece, into lines.
-/
namespace TableLint.Text

/-- The pieces between the separators. There is one more piece than separators. -/
def splitAt (separator : Char) : List Char → List (List Char)
  | [] => [[]]
  | c :: s =>
    if c == separator then [] :: splitAt separator s
    else match splitAt separator s with
      | [] => [[c]]
      | piece :: pieces => (c :: piece) :: pieces

/-- The texts before and after the first occurrence of `piece`. -/
def cut? (piece : List Char) : List Char → Option (List Char × List Char)
  | [] => (piece.isPrefixOf? []).map fun rest => ([], rest)
  | c :: s =>
    match piece.isPrefixOf? (c :: s) with
    | some rest => some ([], rest)
    | none => (cut? piece s).map fun (before, after) => (c :: before, after)

/-- The text up to the first occurrence of `piece`, or all of it. -/
def upTo (piece s : List Char) : List Char :=
  match cut? piece s with
  | some (before, _) => before
  | none => s

def occursIn (piece s : List Char) : Bool := (cut? piece s).isSome

/-- The text after the last occurrence of the character, or all of it. -/
def afterLast (c : Char) (s : List Char) : List Char := (s.reverse.takeWhile (· != c)).reverse

def replaceChar (c : Char) (replacement : List Char) (s : List Char) : List Char :=
  s.flatMap fun d => if d == c then replacement else [d]

/-- The text with all occurrences of `piece` removed, from left to right without overlap. -/
def removeAll (piece : List Char) (s : List Char) : List Char :=
  go 0 s
where
  /-- `skip` characters of the text belong to an occurrence already found. -/
  go : Nat → List Char → List Char
    | _, [] => []
    | skip + 1, _ :: s => go skip s
    | 0, c :: s =>
      if !piece.isEmpty && piece.isPrefixOf (c :: s) then go (piece.length - 1) s
      else c :: go 0 s

/-- The items of a comma-separated list, trimmed by `clean`, without the empty ones. -/
def commaList (clean : List Char → List Char) (s : List Char) : List (List Char) :=
  ((splitAt ',' s).map clean).filter (!·.isEmpty)

def rawLines : List Char → List (List Char)
  | [] => []
  | c :: s =>
    if c == '\n' then [c] :: rawLines s
    else match rawLines s with
      | [] => [[c]]
      | line :: lines => (c :: line) :: lines

/-- A line without its line end, which is a line feed after an optional carriage return. -/
def withoutEnd (line : List Char) : List Char :=
  match line.reverse with
  | '\n' :: '\r' :: front => front.reverse
  | '\n' :: front => front.reverse
  | _ => line

/-- The lines of the text. A final line end starts no further line. -/
def lines (s : List Char) : List (List Char) := (rawLines s).map withoutEnd

def byteLength : List Char → Nat
  | [] => 0
  | c :: s => c.utf8Size + byteLength s

@[simp] theorem byteLength_nil : byteLength [] = 0 := rfl

@[simp] theorem byteLength_cons (c : Char) (s : List Char) :
    byteLength (c :: s) = c.utf8Size + byteLength s := rfl

@[simp] theorem byteLength_append (s t : List Char) :
    byteLength (s ++ t) = byteLength s + byteLength t := by
  induction s with
  | nil => simp
  | cons c s ih => simp [ih, Nat.add_assoc]

end TableLint.Text
