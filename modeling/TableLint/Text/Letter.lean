/-!
Letter case. Keywords of definitions are compared by simple case folding, under which `ſ` is an `s`
and the Kelvin sign a `k`; names of rules are compared by ASCII case only.
-/
namespace TableLint.Text

/-- Simple case folding, on the characters that fold to an ASCII letter. -/
def foldCase (c : Char) : Char :=
  if c == 'ſ' then 's' else if c == 'K' then 'k' else c.toLower

def lower (s : List Char) : List Char := s.map Char.toLower

def upper (s : List Char) : List Char := s.map Char.toUpper

/-- Equality up to ASCII case. -/
def sameLetters (s t : List Char) : Bool := lower s == lower t

/-- What follows `word` at the start of the text, `word` being written in lower case and compared
by case folding. -/
def afterWord? : List Char → List Char → Option (List Char)
  | [], s => some s
  | _ :: _, [] => none
  | w :: word, c :: s => if foldCase c == w then afterWord? word s else none

theorem toNat_toLower (c : Char) :
    c.toLower.toNat = if 65 ≤ c.toNat ∧ c.toNat ≤ 90 then c.toNat + 32 else c.toNat := by
  unfold Char.toLower
  split
  · next h =>
    have h : 65 ≤ c.toNat ∧ c.toNat ≤ 90 := by simpa [UInt32.le_iff_toNat_le] using h
    have hlt : c.toNat + 32 < 2 ^ 32 := by omega
    rw [if_pos h, ← Char.toNat_val, UInt32.toNat_add, Char.toNat_val]
    exact Nat.mod_eq_of_lt hlt
  · next h =>
    have h : ¬(65 ≤ c.toNat ∧ c.toNat ≤ 90) := by simpa [UInt32.le_iff_toNat_le] using h
    rw [if_neg h]

theorem toNat_toUpper (c : Char) :
    c.toUpper.toNat = if 97 ≤ c.toNat ∧ c.toNat ≤ 122 then c.toNat - 32 else c.toNat := by
  unfold Char.toUpper
  split
  · next h =>
    have h : 97 ≤ c.toNat ∧ c.toNat ≤ 122 := by simpa [UInt32.le_iff_toNat_le] using h
    -- the difference of the letters is negative, so adding it wraps around
    have hdiff : ('A'.val - 'a'.val).toNat = 2 ^ 32 - 32 := rfl
    rw [if_pos h, ← Char.toNat_val, UInt32.toNat_add, Char.toNat_val, hdiff]
    omega
  · next h =>
    have h : ¬(97 ≤ c.toNat ∧ c.toNat ≤ 122) := by simpa [UInt32.le_iff_toNat_le] using h
    rw [if_neg h]

end TableLint.Text
