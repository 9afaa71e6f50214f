/-!
Blank characters and trimming. Text is a `List Char` throughout the library, so that scanning is
recursion on the text itself. Blank means the Unicode property White_Space: 25 characters, neither
more (no byte order mark, no zero-width space) nor fewer (the no-break space counts).
-/
namespace TableLint.Text

/-- The characters with the property White_Space. -/
def isBlank (c : Char) : Bool :=
  let n := c.toNat
  (9 ≤ n && n ≤ 13) || n == 0x20 || n == 0x85 || n == 0xA0 || n == 0x1680 ||
    (0x2000 ≤ n && n ≤ 0x200A) || n == 0x2028 || n == 0x2029 || n == 0x202F || n == 0x205F ||
    n == 0x3000

def trimStart (s : List Char) : List Char := s.dropWhile isBlank

def trimEnd (s : List Char) : List Char := (s.reverse.dropWhile isBlank).reverse

def trim (s : List Char) : List Char := trimEnd (trimStart s)

theorem trimStart_length_le (s : List Char) : (trimStart s).length ≤ s.length :=
  (List.dropWhile_sublist _).length_le

@[simp] theorem trimStart_nil : trimStart [] = [] := rfl

end TableLint.Text
