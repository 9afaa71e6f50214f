import TableLint.Text.Digit
import TableLint.Toml.Value

/-!
Numbers, dates and times of a TOML document. Each reader answers what it read and the rest of the
text.
-/
namespace TableLint.Toml

open Text

/-- Digits with single underscores between them. -/
def digits? (isDigit : Char → Bool) (s : List Char) : Option (List Char × List Char) :=
  let read := s.takeWhile fun c => isDigit c || c == '_'
  let pieces := splitUnderscores read
  if pieces.all (!·.isEmpty) then some (pieces.flatten, s.drop read.length) else none
where
  splitUnderscores : List Char → List (List Char)
    | [] => [[]]
    | c :: s =>
      if c == '_' then [] :: splitUnderscores s
      else match splitUnderscores s with
        | [] => [[c]]
        | piece :: pieces => (c :: piece) :: pieces

/-- An optional sign: whether it is a minus, and the rest. -/
def sign : List Char → Bool × List Char
  | '-' :: s => (true, s)
  | '+' :: s => (false, s)
  | s => (false, s)

/-- The digits of a decimal integer, which has no leading zero. -/
def decimalDigits? (s : List Char) : Option (List Char × List Char) :=
  match s with
  | '0' :: rest => some (['0'], rest)
  | _ => digits? Char.isDigit s

def inRange (n : Int) : Bool := Int64.minValue.toInt ≤ n && n ≤ Int64.maxValue.toInt

def basedInteger? (digit? : Char → Option Nat) (base : Nat) (s : List Char) :
    Option (Value × List Char) := do
  let (digits, rest) ← digits? (fun c => (digit? c).isSome) s
  let n ← number? digit? base digits
  if inRange n then some (.integer n, rest) else none

def binaryDigit? (c : Char) : Option Nat :=
  if c == '0' then some 0 else if c == '1' then some 1 else none

def integer? (s : List Char) : Option (Value × List Char) :=
  match s with
  | '0' :: 'x' :: rest => basedInteger? hexDigit? 16 rest
  | '0' :: 'o' :: rest => basedInteger? octalDigit? 8 rest
  | '0' :: 'b' :: rest => basedInteger? binaryDigit? 2 rest
  | _ => do
    let (negative, unsigned) := sign s
    let (digits, rest) ← decimalDigits? unsigned
    let n ← number? decimalDigit? 10 digits
    let n : Int := if negative then -n else n
    if inRange n then some (.integer n, rest) else none

def exponent? : List Char → Option (Int × List Char)
  | e :: s =>
    if e == 'e' || e == 'E' then do
      let (negative, unsigned) := sign s
      let (digits, rest) ← digits? Char.isDigit unsigned
      let n ← number? decimalDigit? 10 digits
      return (if negative then -n else n, rest)
    else none
  | [] => none

def fraction? : List Char → Option (List Char × List Char)
  | '.' :: s => digits? Char.isDigit s
  | _ => none

/-- The decimal `m · 10^e` is too large for a double: it rounds to infinity. -/
def overflows (m : Nat) (e : Int) : Bool :=
  let size : Int := (decimal m).length + e
  if m == 0 || size < 300 then false
  else if size > 320 then true
  else
    Nat.pow 2 1024 - Nat.pow 2 970 ≤
      if e < 0 then m / Nat.pow 10 e.natAbs else m * Nat.pow 10 e.natAbs

/-- A floating-point number with a fraction or an exponent. One that is too large is refused unless
it is negative. -/
def decimalFloat? (s : List Char) : Option (Value × List Char) := do
  let (negative, unsigned) := sign s
  let (whole, afterWhole) ← decimalDigits? unsigned
  let (fraction, afterFraction) := (fraction? afterWhole).getD ([], afterWhole)
  let (exponent, rest) := (exponent? afterFraction).getD (0, afterFraction)
  if rest.length == afterWhole.length then none
  else
    let m ← number? decimalDigit? 10 (whole ++ fraction)
    if overflows m (exponent - fraction.length) && !negative then none
    else some (.float (s.take (s.length - rest.length)), rest)

def specialFloat? (s : List Char) : Option (Value × List Char) :=
  match (sign s).2 with
  | 'i' :: 'n' :: 'f' :: rest => some (.float (s.take (s.length - rest.length)), rest)
  | 'n' :: 'a' :: 'n' :: rest => some (.float (s.take (s.length - rest.length)), rest)
  | _ => none

def twoDigits? (low high : Nat) : List Char → Option (Nat × List Char)
  | a :: b :: s => do
    let n ← number? decimalDigit? 10 [a, b]
    if low ≤ n && n ≤ high then some (n, s) else none
  | _ => none

def daysIn (year month : Nat) : Nat :=
  if month == 2 then
    if year % 4 == 0 && (year % 100 != 0 || year % 400 == 0) then 29 else 28
  else if month == 4 || month == 6 || month == 9 || month == 11 then 30
  else 31

def after? (c : Char) : List Char → Option (List Char)
  | d :: s => if d == c then some s else none
  | [] => none

def date? : List Char → Option (List Char × List Char)
  | a :: b :: c :: d :: s => do
    let year ← number? decimalDigit? 10 [a, b, c, d]
    let (month, s) ← twoDigits? 1 12 (← after? '-' s)
    let (day, s) ← twoDigits? 1 (daysIn year month) (← after? '-' s)
    return (padded 4 year ++ ['-'] ++ padded 2 month ++ ['-'] ++ padded 2 day, s)
  | _ => none

/-- The fraction of a second in normal form: nine digits count, zeros at the end do not. -/
def secondFraction (s : List Char) : List Char × List Char :=
  match s with
  | '.' :: rest =>
    let digits := rest.takeWhile Char.isDigit
    if digits.isEmpty then ([], s)
    else
      let kept := ((digits.take 9).reverse.dropWhile (· == '0')).reverse
      (if kept.isEmpty then [] else '.' :: kept, rest.drop digits.length)
  | _ => ([], s)

def time? (s : List Char) : Option (List Char × List Char) := do
  let (hour, s) ← twoDigits? 0 23 s
  let (minute, s) ← twoDigits? 0 59 (← after? ':' s)
  let (second, s) ← twoDigits? 0 60 (← after? ':' s)
  let (fraction, s) := secondFraction s
  return (padded 2 hour ++ [':'] ++ padded 2 minute ++ [':'] ++ padded 2 second ++ fraction, s)

/-- The offset of a time in normal form, empty if there is none. -/
def offset (s : List Char) : Option (List Char × List Char) :=
  match s with
  | 'Z' :: rest | 'z' :: rest => some (['Z'], rest)
  | c :: rest =>
    if c == '+' || c == '-' then do
      let (hour, s) ← twoDigits? 0 23 rest
      let (minute, s) ← twoDigits? 0 59 (← after? ':' s)
      let mark := if hour == 0 && minute == 0 then '+' else c
      return (mark :: padded 2 hour ++ [':'] ++ padded 2 minute, s)
    else some ([], s)
  | [] => some ([], [])

def dateWithTime? (s : List Char) : Option (List Char × List Char) := do
  let (date, rest) ← date? s
  match rest with
  | c :: afterMark =>
    if c == 'T' || c == 't' || c == ' ' then
      match time? afterMark with
      | some (time, s) => do
        let (offset, s) ← offset s
        return (date ++ ['T'] ++ time ++ offset, s)
      | none => return (date, rest)
    else return (date, rest)
  | [] => return (date, rest)

def dateTime? (s : List Char) : Option (Value × List Char) :=
  ((dateWithTime? s).or (time? s)).map fun (text, rest) => (.dateTime text, rest)

def numeric? (s : List Char) : Option (Value × List Char) :=
  (((dateTime? s).or (specialFloat? s)).or (decimalFloat? s)).or (integer? s)

end TableLint.Toml
