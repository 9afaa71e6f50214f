import Mathlib.Tactic.IntervalCases
import Mathlib.Tactic.Ring
import TableLint.Proofs.Cutting
import TableLint.Source.Literal

/-!
The ways to write a text as a literal. Each character may be written in several ways, and lines may
be continued between any two of them. An escape ends where its own digits end, so what a character
is written as never depends on its neighbours, and reading the literal gives the text back.
-/
namespace TableLint.Text

variable {digit : Nat → Nat → Char} {digit? : Char → Option Nat} {base : Nat}

/-- The last `width` digits of a number, the digit of each place being written by `digit`. -/
def digitsOf (digit : Nat → Nat → Char) (base : Nat) : Nat → Nat → List Char
  | 0, _ => []
  | width + 1, n => digit width (n / base ^ width % base) :: digitsOf digit base width n

@[simp] theorem length_digitsOf (width n : Nat) :
    (digitsOf digit base width n).length = width := by
  induction width with
  | zero => rfl
  | succ width ih => simp [digitsOf, ih]

/-- Digits are read from left to right into the number that was read before them. -/
theorem foldlM_digitsOf (hb : 0 < base)
    (hd : ∀ place d, d < base → digit? (digit place d) = some d) (width n start : Nat) :
    (digitsOf digit base width n).foldlM (fun m c => (digit? c).map (m * base + ·)) start =
      some (start * base ^ width + n % base ^ width) := by
  induction width generalizing start with
  | zero => simp [digitsOf, Nat.mod_one]
  | succ width ih =>
    have hfirst := hd width (n / base ^ width % base) (Nat.mod_lt _ hb)
    rw [digitsOf, List.foldlM_cons, hfirst, Option.map_some, Option.bind_eq_bind, Option.bind_some,
      ih, Nat.mod_pow_succ]
    ring_nf

theorem number?_digitsOf (hb : 0 < base)
    (hd : ∀ place d, d < base → digit? (digit place d) = some d) {width n : Nat}
    (hn : n < base ^ width) : number? digit? base (digitsOf digit base width n) = some n := by
  rw [number?, foldlM_digitsOf hb hd, Nat.mod_eq_of_lt hn, Nat.zero_mul, Nat.zero_add]

theorem isSome_of_mem_digitsOf (hb : 0 < base)
    (hd : ∀ place d, d < base → digit? (digit place d) = some d) {width n : Nat} {c : Char}
    (h : c ∈ digitsOf digit base width n) : (digit? c).isSome = true := by
  induction width with
  | zero => cases h
  | succ width ih =>
    rcases List.mem_cons.mp h with rfl | hm
    · rw [hd _ _ (Nat.mod_lt _ hb)]
      rfl
    · exact ih hm

/-- A hexadecimal digit in upper or lower case. -/
def hexDigit (upper : Bool) (d : Nat) : Char :=
  if upper then (Nat.digitChar d).toUpper else Nat.digitChar d

theorem hexDigit?_hexDigit (upper : Bool) : ∀ d < 16, hexDigit? (hexDigit upper d) = some d := by
  cases upper <;> decide

theorem octalDigit?_digitChar : ∀ d < 8, octalDigit? (Nat.digitChar d) = some d := by decide

theorem charOf?_toNat (c : Char) : charOf? c.toNat = some c := by
  have hv : c.toNat.isValidChar := c.valid
  rw [charOf?, if_pos hv, Char.ofNat_toNat]

end TableLint.Text

namespace TableLint.Source

open Text

variable {c : Char} {s t x : List Char}

/-! ### Writing -/

/-- The characters with an escape of one letter, and the letters. -/
def letterEscapes : List (Char × Char) :=
  [('\x07', 'a'), ('\x08', 'b'), ('\x0c', 'f'), ('\n', 'n'), ('\r', 'r'), ('\t', 't'),
    ('\x0b', 'v')]

/-- The marks of hexadecimal escapes, and how many digits follow them. -/
def hexMarks : List (Char × Nat) := [('x', 2), ('u', 4), ('U', 8)]

/-- The text is a way to write the character. -/
inductive SpellsChar (c : Char) : List Char → Prop where
  | verbatim (h : c ∉ ['\\', '"', '\'']) : SpellsChar c [c]
  | backslash (h : c ∈ ['\\', '"', '\'']) : SpellsChar c ['\\', c]
  | letter (l : Char) (h : (c, l) ∈ letterEscapes) : SpellsChar c ['\\', l]
  | octal (h : c.toNat ≤ 0o777) :
      SpellsChar c ('\\' :: digitsOf (fun _ => Nat.digitChar) 8 3 c.toNat)
  /-- `upper` chooses the case of the digit at each place. -/
  | hex (mark : Char) (width : Nat) (upper : Nat → Bool) (hm : (mark, width) ∈ hexMarks)
      (h : c.toNat < 16 ^ width) :
      SpellsChar c ('\\' :: mark :: digitsOf (fun place => hexDigit (upper place)) 16 width c.toNat)

/-- The text `t` is a way to write `s` between quotes. -/
inductive Spells : List Char → List Char → Prop where
  | nil : Spells [] []
  | continued {s t : List Char} (h : Spells s t) : Spells s ('\\' :: '\n' :: t)
  | char {c : Char} {x s t : List Char} (hc : SpellsChar c x) (h : Spells s t) :
      Spells (c :: s) (x ++ t)

/-! ### Reading -/

theorem unescape_cons_of_ne (h : c ≠ '\\') (t : List Char) :
    unescape (c :: t) = c :: unescape t := by
  rw [unescape]
  simp [h]

theorem unescape_of_escape? {text : List Char} {taken : Nat}
    (h : escape? t = some (text, taken)) :
    unescape ('\\' :: t) = text ++ unescape (t.drop taken) := by
  rw [unescape]
  simp [h]

/-- An escape that takes all of `x` leaves what follows alone. -/
theorem unescape_escape_append {text : List Char} {taken : Nat}
    (h : escape? (x ++ t) = some (text, taken)) (hx : x.length = taken) :
    unescape ('\\' :: (x ++ t)) = text ++ unescape t := by
  rw [unescape_of_escape? h, List.drop_left' hx]

theorem escape?_self (h : c ∈ ['\\', '"', '\'']) (t : List Char) :
    escape? (c :: t) = some ([c], 1) := by
  simp only [List.mem_cons, List.not_mem_nil, or_false] at h
  rcases h with rfl | rfl | rfl <;> rfl

theorem escape?_letter {l : Char} (h : (c, l) ∈ letterEscapes) (t : List Char) :
    escape? (l :: t) = some ([c], 1) := by
  simp only [letterEscapes, List.mem_cons, Prod.mk.injEq, List.not_mem_nil, or_false] at h
  rcases h with h | h | h | h | h | h | h <;> obtain ⟨rfl, rfl⟩ := h <;> rfl

/-- An octal digit starts an escape of at most three of them. -/
theorem escape?_of_octalDigit {d : Nat} (hd : d < 8) (h : t.head? = some (Nat.digitChar d)) :
    escape? t =
      (let digits := (t.take 3).takeWhile fun c => (octalDigit? c).isSome
       if digits.isEmpty then none
       else ((number? octalDigit? 8 digits).bind charOf?).map fun c => ([c], digits.length)) := by
  obtain ⟨rest, rfl⟩ := List.head?_eq_some_iff.mp h
  interval_cases d <;> rfl

/-- Three octal digits are all that their escape takes, even if another digit follows. -/
theorem escape?_octal (h : c.toNat ≤ 0o777) (t : List Char) :
    escape? (digitsOf (fun _ => Nat.digitChar) 8 3 c.toNat ++ t) = some ([c], 3) := by
  have hn : number? octalDigit? 8 (digitsOf (fun _ => Nat.digitChar) 8 3 c.toNat) =
      some c.toNat :=
    number?_digitsOf (by decide) (fun _ => octalDigit?_digitChar) (by omega)
  have hlen : (digitsOf (fun _ => Nat.digitChar) 8 3 c.toNat).length = 3 := length_digitsOf 3 _
  have hoctal : ∀ x ∈ digitsOf (fun _ => Nat.digitChar) 8 3 c.toNat,
      (octalDigit? x).isSome = true := fun x hx =>
    isSome_of_mem_digitsOf (by decide) (fun _ => octalDigit?_digitChar) hx
  rw [escape?_of_octalDigit (Nat.mod_lt (c.toNat / 8 ^ 2) (by decide)) rfl,
    List.take_left' hlen, List.takeWhile_eq_self_iff.mpr hoctal]
  simp [hn, hlen, charOf?_toNat, ← List.length_eq_zero_iff]

theorem hexEscape?_digitsOf (upper : Nat → Bool) {width : Nat} (h : c.toNat < 16 ^ width)
    (t : List Char) :
    hexEscape? width (digitsOf (fun place => hexDigit (upper place)) 16 width c.toNat ++ t) =
      some ([c], width + 1) := by
  have hn : number? hexDigit? 16 (digitsOf (fun place => hexDigit (upper place)) 16 width c.toNat) =
      some c.toNat :=
    number?_digitsOf (by decide) (fun place => hexDigit?_hexDigit (upper place)) h
  rw [hexEscape?, List.take_left' (length_digitsOf width _), hn]
  simp [charOf?_toNat]

theorem escape?_hex {mark : Char} {width : Nat} (h : (mark, width) ∈ hexMarks) (t : List Char) :
    escape? (mark :: t) = hexEscape? width t := by
  simp only [hexMarks, List.mem_cons, Prod.mk.injEq, List.not_mem_nil, or_false] at h
  rcases h with h | h | h <;> obtain ⟨rfl, rfl⟩ := h <;> rfl

/-- However a character is written, it is read, and what follows is read as if it stood alone. -/
theorem unescape_append_of_spellsChar (h : SpellsChar c x) (t : List Char) :
    unescape (x ++ t) = c :: unescape t := by
  cases h with
  | verbatim h =>
    have hne : c ≠ '\\' := by
      rintro rfl
      exact h List.mem_cons_self
    exact unescape_cons_of_ne hne t
  | backslash h => exact unescape_escape_append (x := [c]) (escape?_self h t) rfl
  | letter l h => exact unescape_escape_append (x := [l]) (escape?_letter h t) rfl
  | octal h => exact unescape_escape_append (escape?_octal h t) (length_digitsOf 3 _)
  | hex mark width upper hm h =>
    have he := hexEscape?_digitsOf upper h t
    rw [← escape?_hex hm] at he
    exact unescape_escape_append (x := mark :: _) he (by simp)

theorem unescape_of_spells (h : Spells s t) : unescape t = s := by
  induction h with
  | nil => rw [unescape]
  | continued _ ih =>
    have he : ∀ t, escape? ('\n' :: t) = some ([], 1) := fun _ => rfl
    rw [unescape_of_escape? (he _)]
    exact ih
  | char hc _ ih => rw [unescape_append_of_spellsChar hc, ih]

/-! ### Quotes -/

theorem head?_of_spellsChar (h : SpellsChar c x) :
    ∃ d, x.head? = some d ∧ d ≠ '"' ∧ d ≠ '\'' := by
  cases h with
  | verbatim h =>
    refine ⟨c, rfl, ?_, ?_⟩ <;>
    · rintro rfl
      simp at h
  | backslash | letter | octal | hex => exact ⟨'\\', rfl, by decide, by decide⟩

/-- The text between the quotes starts with no quote, so it cannot make the opening one longer. -/
theorem head?_of_spells (h : Spells s t) : t.head? ≠ some '"' ∧ t.head? ≠ some '\'' := by
  cases h with
  | nil => simp
  | continued => simp
  | char hc _ =>
    obtain ⟨d, hd, hq, hq'⟩ := head?_of_spellsChar hc
    rw [List.head?_append, hd]
    simp [hq, hq']

/-- The opening quote is recognised. -/
theorem find?_quotes {quote : List Char} (hq : quote ∈ quotes) (h : Spells s t) :
    quotes.find? (·.isPrefixOf (quote ++ (t ++ quote))) = some quote := by
  obtain ⟨hdouble, hsingle⟩ := head?_of_spells h
  simp only [quotes, List.mem_cons, List.not_mem_nil, or_false] at hq
  cases t with
  | nil => rcases hq with rfl | rfl | rfl | rfl <;> rfl
  | cons d t =>
    have hd : '"' ≠ d := fun he => hdouble (by rw [he]; rfl)
    have hd' : '\'' ≠ d := fun he => hsingle (by rw [he]; rfl)
    rcases hq with rfl | rfl | rfl | rfl <;> simp [quotes, hd, hd']

/-- The letters in front of the opening quote are told from what they stand before. -/
theorem span_letters {letters quote : List Char} (hl : ∀ d ∈ letters, isPrefixLetter d = true)
    (hq : quote ∈ quotes) (t : List Char) :
    (letters ++ (quote ++ t)).takeWhile isPrefixLetter = letters ∧
      (letters ++ (quote ++ t)).dropWhile isPrefixLetter = quote ++ t := by
  apply span_append hl
  simp only [quotes, List.mem_cons, List.not_mem_nil, or_false] at hq
  rcases hq with rfl | rfl | rfl | rfl <;>
  · intro d hd
    obtain rfl := Option.some.inj hd
    decide

/-- The letters that literals of constant text may have in front of them. -/
def textLetters : List Char := ['r', 'R', 'u', 'U']

theorem isPrefixLetter_of_mem (h : c ∈ textLetters) : isPrefixLetter c = true := by
  simp only [textLetters, List.mem_cons, List.not_mem_nil, or_false] at h
  rcases h with rfl | rfl | rfl | rfl <;> decide

/-- What a body stands for: itself after an `r`, and else the text with its escapes replaced. -/
def bodyValue (letters body : List Char) : List Char :=
  if letters.any fun c => c == 'r' || c == 'R' then body else unescape body

/-- What stands between two equal quotes is the body. -/
theorem decode?_between {letters quote : List Char} (hl : ∀ d ∈ letters, d ∈ textLetters)
    (hq : quote ∈ quotes) (hf : quotes.find? (·.isPrefixOf (quote ++ (t ++ quote))) = some quote) :
    decode? (letters ++ (quote ++ (t ++ quote))) = some (bodyValue letters t) := by
  obtain ⟨htake, hdrop⟩ :=
    span_letters (fun d hd => isPrefixLetter_of_mem (hl d hd)) hq (t ++ quote)
  have hplain : (letters.any fun c => c == 'f' || c == 'F' || c == 'b' || c == 'B') = false := by
    rw [List.any_eq_false]
    intro d hd
    have hd' := hl d hd
    simp only [textLetters, List.mem_cons, List.not_mem_nil, or_false] at hd'
    rcases hd' with rfl | rfl | rfl | rfl <;> decide
  have hlen : ¬(quote ++ (t ++ quote)).length < quote.length * 2 := by
    simp only [List.length_append]
    omega
  have hbody : ((quote ++ (t ++ quote)).drop quote.length).take
      ((quote ++ (t ++ quote)).length - quote.length * 2) = t := by
    have hsize : (quote ++ (t ++ quote)).length - quote.length * 2 = t.length := by
      simp only [List.length_append]
      omega
    rw [hsize, List.drop_left, List.take_left]
  have hend : quote.isSuffixOf (quote ++ (t ++ quote)) = true := by
    rw [List.isSuffixOf_iff_suffix, ← List.append_assoc]
    exact List.suffix_append _ _
  simp only [decode?, htake, hdrop, hplain, hf, hbody, hend, hlen, Bool.false_eq_true, if_false,
    decide_false, Bool.not_true, Bool.or_self, bodyValue]
  split <;> rfl

/-- Without an `r` in front, the escapes of the body are replaced. -/
theorem decode?_quoted {letters quote : List Char} (hl : letters ∈ [[], ['u'], ['U']])
    (hq : quote ∈ quotes) (hf : quotes.find? (·.isPrefixOf (quote ++ (t ++ quote))) = some quote) :
    decode? (letters ++ (quote ++ (t ++ quote))) = some (unescape t) := by
  simp only [List.mem_cons, List.not_mem_nil, or_false] at hl
  rcases hl with rfl | rfl | rfl <;>
    exact decode?_between (by simp [textLetters]) hq hf

/-- A text written between equal quotes, one or three, after no letter or a `u`, is read back, for
each choice of a way to write each of its characters and for continued lines anywhere. -/
theorem decode?_spelled (s t letters quote : List Char) (h : Spells s t)
    (hl : letters ∈ ["".toList, "u".toList, "U".toList])
    (hq : quote ∈ ["\"".toList, "'".toList, "\"\"\"".toList, "'''".toList]) :
    decode? (letters ++ (quote ++ (t ++ quote))) = some s := by
  have hquotes : quote ∈ quotes := by
    simp only [List.mem_cons, List.not_mem_nil, or_false] at hq
    rcases hq with rfl | rfl | rfl | rfl <;> decide
  rw [decode?_quoted hl hquotes (find?_quotes hquotes h), unescape_of_spells h]

/-- A digit after an octal escape, a continued line and two cases in one escape. -/
theorem decode?_spelled_mixed :
    Spells "ÿA7\n\"é".toList "\\xfF\\1017\\\n\\n\\\"\\u00E9".toList ∧
      decode? "u'''\\xfF\\1017\\\n\\n\\\"\\u00E9'''".toList = some "ÿA7\n\"é".toList := by
  have h : Spells "ÿA7\n\"é".toList "\\xfF\\1017\\\n\\n\\\"\\u00E9".toList :=
    .char (.hex 'x' 2 (· == 0) (by decide) (by decide)) <|
    .char (.octal (by decide)) <|
    .char (.verbatim (by decide)) <|
    .continued <|
    .char (.letter 'n' (by decide)) <|
    .char (.backslash (by decide)) <|
    .char (.hex 'u' 4 (fun _ => true) (by decide) (by decide)) .nil
  exact ⟨h, decode?_spelled _ _ "u".toList "'''".toList h (by decide) (by decide)⟩

end TableLint.Source
