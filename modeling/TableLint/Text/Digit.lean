/-!
Digits: numbers in decimal, the values of digits, and the characters that codes stand for.
-/
namespace TableLint.Text

def decimal (n : Nat) : List Char := Nat.toDigits 10 n

/-- A number in at least `width` decimal digits. -/
def padded (width n : Nat) : List Char :=
  List.replicate (width - (decimal n).length) '0' ++ decimal n

def hexDigit? (c : Char) : Option Nat :=
  if c.isDigit then some (c.toNat - '0'.toNat)
  else if 'a' ≤ c && c ≤ 'f' then some (c.toNat - 'a'.toNat + 10)
  else if 'A' ≤ c && c ≤ 'F' then some (c.toNat - 'A'.toNat + 10)
  else none

def octalDigit? (c : Char) : Option Nat :=
  if '0' ≤ c && c ≤ '7' then some (c.toNat - '0'.toNat) else none

/-- The number that digits denote, if all of them are digits. -/
def number? (digit? : Char → Option Nat) (base : Nat) (s : List Char) : Option Nat :=
  s.foldlM (fun n c => (digit? c).map (n * base + ·)) 0

/-- The character with the given code, if the code is a scalar value. -/
def charOf? (code : Nat) : Option Char :=
  if code.isValidChar then some (Char.ofNat code) else none

def decimalDigit? (c : Char) : Option Nat :=
  if c.isDigit then some (c.toNat - '0'.toNat) else none

end TableLint.Text
