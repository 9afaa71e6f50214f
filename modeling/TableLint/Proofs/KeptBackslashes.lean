import TableLint.Proofs.LiteralSpelling

/-!
Backslashes that start no escape. Such a backslash stays with what follows it, however many digits
of an escape that breaks off come after it. An escape is longer than what it stands for, so a body
stays as it is exactly if none of its backslashes starts one, and no body gets longer.
-/
namespace TableLint.Text

variable {digit? : Char → Option Nat} {base n start : Nat} {s : List Char}

theorem foldlM_digits_isSome_iff (start : Nat) :
    (s.foldlM (fun n c => (digit? c).map (n * base + ·)) start).isSome = true ↔
      ∀ c ∈ s, (digit? c).isSome = true := by
  induction s generalizing start with
  | nil => simp
  | cons c s ih =>
    rw [List.foldlM_cons, List.forall_mem_cons]
    cases hc : digit? c with
    | none => simp
    | some d => simpa using ih (start * base + d)

/-- A number is read exactly if there are digits only. -/
theorem number?_isSome_iff :
    (number? digit? base s).isSome = true ↔ ∀ c ∈ s, (digit? c).isSome = true :=
  foldlM_digits_isSome_iff 0

/-- Each further digit multiplies what a number stays below by the base. -/
theorem foldlM_digits_lt (hd : ∀ c d, digit? c = some d → d < base)
    (h : s.foldlM (fun n c => (digit? c).map (n * base + ·)) start = some n) :
    n < (start + 1) * base ^ s.length := by
  induction s generalizing start with
  | nil =>
    obtain rfl : start = n := Option.some.inj h
    simp
  | cons c s ih =>
    rw [List.foldlM_cons] at h
    obtain ⟨next, hnext, h⟩ := Option.bind_eq_some_iff.mp h
    obtain ⟨d, hc, rfl⟩ := Option.map_eq_some_iff.mp hnext
    have hstep : start * base + d + 1 ≤ (start + 1) * base := by
      have := hd c d hc
      rw [Nat.add_mul, Nat.one_mul]
      omega
    calc n < (start * base + d + 1) * base ^ s.length := ih h
      _ ≤ (start + 1) * base * base ^ s.length := Nat.mul_le_mul_right _ hstep
      _ = (start + 1) * base ^ (c :: s).length := by
        rw [List.length_cons, Nat.pow_succ, Nat.mul_assoc, Nat.mul_comm base]

theorem number?_lt (hd : ∀ c d, digit? c = some d → d < base) (h : number? digit? base s = some n) :
    n < base ^ s.length := by
  have := foldlM_digits_lt hd h
  simpa using this

theorem toNat_le_of_le {a c : Char} (h : a ≤ c) : a.toNat ≤ c.toNat := UInt32.le_iff_toNat_le.mp h

theorem octalDigit?_lt (c : Char) (d : Nat) (h : octalDigit? c = some d) : d < 8 := by
  rw [octalDigit?] at h
  split at h
  · next hc =>
    simp only [Bool.and_eq_true, decide_eq_true_eq] at hc
    have hle : c.toNat ≤ 55 := toNat_le_of_le hc.2
    obtain rfl := Option.some.inj h
    change c.toNat - 48 < 8
    omega
  · cases h

theorem hexDigit?_lt (c : Char) (d : Nat) (h : hexDigit? c = some d) : d < 16 := by
  rw [hexDigit?] at h
  split at h
  · next hc =>
    simp only [Char.isDigit, Bool.and_eq_true, decide_eq_true_eq] at hc
    have hle : c.toNat ≤ 57 := UInt32.le_iff_toNat_le.mp hc.2
    obtain rfl := Option.some.inj h
    change c.toNat - 48 < 16
    omega
  · split at h
    · next hc =>
      simp only [Bool.and_eq_true, decide_eq_true_eq] at hc
      have hle : c.toNat ≤ 102 := toNat_le_of_le hc.2
      obtain rfl := Option.some.inj h
      change c.toNat - 97 + 10 < 16
      omega
    · split at h
      · next hc =>
        simp only [Bool.and_eq_true, decide_eq_true_eq] at hc
        have hle : c.toNat ≤ 70 := toNat_le_of_le hc.2
        obtain rfl := Option.some.inj h
        change c.toNat - 65 + 10 < 16
        omega
      · cases h

/-- Small numbers are codes of characters: the codes that are not start at 0xD800. -/
theorem charOf?_isSome (h : n < 0xD800) : (charOf? n).isSome = true := by
  have hv : n.isValidChar := .inl h
  rw [charOf?, if_pos hv]
  rfl

theorem le_length_takeWhile_iff {p : Char → Bool} {width : Nat} :
    width ≤ (s.takeWhile p).length ↔
      (s.take width).length = width ∧ ∀ c ∈ s.take width, p c = true := by
  constructor
  · intro h
    have hp : s.take width <+: s.takeWhile p :=
      List.prefix_of_prefix_length_le (List.take_prefix _ _) (List.takeWhile_prefix p)
        ((List.length_take_le _ _).trans h)
    have hle := (List.takeWhile_prefix p (l := s)).length_le
    refine ⟨List.length_take_of_le (h.trans hle), ?_⟩
    exact fun c hc => List.mem_takeWhile_imp (hp.subset hc)
  · rintro ⟨hlen, hall⟩
    calc width = (s.take width).length := hlen.symm
      _ ≤ (s.takeWhile p).length := by
        rw [← List.take_append_drop width s, List.takeWhile_append_of_pos hall]
        simp

end TableLint.Text

namespace TableLint.Source

open Text

variable {c : Char} {s body text : List Char} {taken width : Nat}

/-! ### Where an escape starts -/

/-- The characters that make an escape on their own. -/
def soleEscapes : List Char := ['\n', '\r', '\\', '\'', '"', 'a', 'b', 'f', 'n', 'r', 't', 'v']

def octalDigits : List Char := ['0', '1', '2', '3', '4', '5', '6', '7']

/-- The characters that start an escape after a backslash. -/
def escapeStarts : List Char := soleEscapes ++ (octalDigits ++ hexMarks.map Prod.fst)

/-- The text, which stands after a backslash, starts no complete escape. -/
inductive StartsNoEscape : List Char → Prop where
  | nil : StartsNoEscape []
  | char (c : Char) (s : List Char) (h : c ∉ escapeStarts) : StartsNoEscape (c :: s)
  /-- Too few digits follow the mark. -/
  | short (mark : Char) (width : Nat) (s : List Char) (hm : (mark, width) ∈ hexMarks)
      (h : (s.takeWhile fun c => (hexDigit? c).isSome).length < width) : StartsNoEscape (mark :: s)
  /-- The digits denote no scalar value. -/
  | noScalar (mark : Char) (n : Nat) (digits s : List Char)
      (hm : (mark, digits.length) ∈ [('u', 4), ('U', 8)])
      (hd : number? hexDigit? 16 digits = some n) (hn : ¬n.isValidChar) :
      StartsNoEscape (mark :: (digits ++ s))

theorem hexEscape?_of_digits {n : Nat} {digits : List Char}
    (hd : number? hexDigit? 16 digits = some n) (s : List Char) :
    hexEscape? digits.length (digits ++ s) =
      (charOf? n).map fun c => ([c], digits.length + 1) := by
  simp [hexEscape?, hd]

theorem hexEscape?_of_short (h : (s.takeWhile fun c => (hexDigit? c).isSome).length < width) :
    hexEscape? width s = none := by
  rw [← not_le, le_length_takeWhile_iff, not_and] at h
  rw [hexEscape?]
  split
  · next hlen =>
    rw [beq_iff_eq] at hlen
    rw [← @number?_isSome_iff _ 16, Bool.not_eq_true, Option.isSome_eq_false_iff,
      Option.isNone_iff_eq_none] at h
    rw [h hlen]
    rfl
  · rfl

theorem exists_hexDigits (h : width ≤ (s.takeWhile fun c => (hexDigit? c).isSome).length) :
    ∃ n digits rest, s = digits ++ rest ∧ digits.length = width ∧
      number? hexDigit? 16 digits = some n := by
  obtain ⟨hlen, hall⟩ := le_length_takeWhile_iff.mp h
  obtain ⟨n, hn⟩ := Option.isSome_iff_exists.mp ((@number?_isSome_iff _ 16 _).mpr hall)
  exact ⟨n, s.take width, s.drop width, (List.take_append_drop width s).symm, hlen, hn⟩

theorem mem_octalDigits (h : (octalDigit? c).isSome = true) : c ∈ octalDigits := by
  rw [octalDigit?] at h
  split at h
  · next hc =>
    simp only [Bool.and_eq_true, decide_eq_true_eq] at hc
    have hlow : 48 ≤ c.toNat := toNat_le_of_le hc.1
    have hhigh : c.toNat ≤ 55 := toNat_le_of_le hc.2
    rw [← Char.ofNat_toNat c]
    generalize c.toNat = n at hlow hhigh
    interval_cases n <;> decide
  · cases h

theorem escape?_of_not_mem (h : c ∉ escapeStarts) (s : List Char) : escape? (c :: s) = none := by
  have hoctal : octalDigit? c = none := by
    by_contra hsome
    have hm := mem_octalDigits (Option.isSome_iff_ne_none.mpr hsome)
    exact h (List.mem_append_right _ (List.mem_append_left _ hm))
  simp only [escapeStarts, soleEscapes, hexMarks, List.mem_append, List.map_cons, List.map_nil,
    List.mem_cons, List.not_mem_nil, or_false, not_or] at h
  unfold escape?
  split <;> simp_all

/-- The text starts an escape, which takes at least as much of it as it stands for. -/
def StartsEscape (s : List Char) : Prop :=
  ∃ text taken, escape? s = some (text, taken) ∧ text.length ≤ taken ∧ taken ≤ s.length

theorem startsEscape_of_soleEscape (h : c ∈ soleEscapes) (s : List Char) :
    StartsEscape (c :: s) := by
  have hone : ∀ text, text.length ≤ 1 → escape? (c :: s) = some (text, 1) →
      StartsEscape (c :: s) := fun text ht he => ⟨text, 1, he, ht, by simp⟩
  simp only [soleEscapes, List.mem_cons, List.not_mem_nil, or_false] at h
  rcases h with rfl | rfl | rfl | rfl | rfl | rfl | rfl | rfl | rfl | rfl | rfl | rfl
  case inr.inl =>
    -- A line feed after the carriage return is taken along.
    refine ⟨[], if s.head? == some '\n' then 2 else 1, rfl, Nat.zero_le _, ?_⟩
    cases s with
    | nil => simp
    | cons d s => split <;> simp
  case inl => exact hone [] (Nat.zero_le _) rfl
  all_goals exact hone _ (by simp) rfl

/-- The code that at most three octal digits denote is below 512, so it always is a character. -/
theorem charOf?_octal {digits : List Char} (hlen : digits.length ≤ 3)
    (hall : ∀ c ∈ digits, (octalDigit? c).isSome = true) :
    ((number? octalDigit? 8 digits).bind charOf?).isSome = true := by
  obtain ⟨n, hn⟩ := Option.isSome_iff_exists.mp ((@number?_isSome_iff _ 8 _).mpr hall)
  have hlt := number?_lt octalDigit?_lt hn
  have hpow : 8 ^ digits.length ≤ 8 ^ 3 := Nat.pow_le_pow_right (by decide) hlen
  rw [hn]
  exact charOf?_isSome (by omega)

theorem startsEscape_of_octalDigit (h : c ∈ octalDigits) (s : List Char) :
    StartsEscape (c :: s) := by
  obtain ⟨d, hd, rfl⟩ : ∃ d, d < 8 ∧ c = Nat.digitChar d := by
    simp only [octalDigits, List.mem_cons, List.not_mem_nil, or_false] at h
    rcases h with rfl | rfl | rfl | rfl | rfl | rfl | rfl | rfl
    exacts [⟨0, by decide⟩, ⟨1, by decide⟩, ⟨2, by decide⟩, ⟨3, by decide⟩, ⟨4, by decide⟩,
      ⟨5, by decide⟩, ⟨6, by decide⟩, ⟨7, by decide⟩]
  have he := escape?_of_octalDigit (t := Nat.digitChar d :: s) hd rfl
  generalize hdigits :
    ((Nat.digitChar d :: s).take 3).takeWhile (fun c => (octalDigit? c).isSome) = digits at he
  have hne : digits ≠ [] := by
    rw [← hdigits, List.take_succ_cons, List.takeWhile_cons, octalDigit?_digitChar d hd]
    exact List.cons_ne_nil _ _
  have hstart : digits <+: (Nat.digitChar d :: s).take 3 := hdigits ▸ List.takeWhile_prefix _
  have hall : ∀ e ∈ digits, (octalDigit? e).isSome = true := by
    subst hdigits
    exact fun e hm => List.mem_takeWhile_imp (p := fun c => (octalDigit? c).isSome) hm
  obtain ⟨e, hsome⟩ := Option.isSome_iff_exists.mp
    (charOf?_octal (hstart.length_le.trans (List.length_take_le _ _)) hall)
  refine ⟨[e], digits.length, ?_, List.length_pos_of_ne_nil hne, ?_⟩
  · simpa [hne, hsome] using he
  · exact hstart.length_le.trans (List.length_take_le' _ _)

/-- With all its digits a mark starts an escape, unless they denote no scalar value. Two digits
always do. -/
theorem startsEscape_or_of_digits {mark : Char} {n : Nat} {digits : List Char}
    (hm : (mark, digits.length) ∈ hexMarks) (hd : number? hexDigit? 16 digits = some n)
    (s : List Char) :
    StartsEscape (mark :: (digits ++ s)) ∨ StartsNoEscape (mark :: (digits ++ s)) := by
  by_cases hv : n.isValidChar
  · refine .inl ⟨[Char.ofNat n], digits.length + 1, ?_, ?_, ?_⟩
    · rw [escape?_hex hm, hexEscape?_of_digits hd, charOf?, if_pos hv]
      rfl
    · simp
    · simp
  · right
    rcases List.mem_cons.mp hm with hx | hm
    · obtain ⟨-, hlen⟩ := Prod.mk.inj hx
      have hlt := number?_lt hexDigit?_lt hd
      rw [hlen] at hlt
      exact absurd (Or.inl (by omega)) hv
    · exact .noScalar mark n digits s hm hd hv

theorem startsEscape_or_startsNoEscape (s : List Char) : StartsEscape s ∨ StartsNoEscape s := by
  cases s with
  | nil => exact .inr .nil
  | cons c s =>
    by_cases hc : c ∈ escapeStarts
    · rcases List.mem_append.mp hc with hsole | hc
      · exact .inl (startsEscape_of_soleEscape hsole s)
      · rcases List.mem_append.mp hc with hoctal | hmark
        · exact .inl (startsEscape_of_octalDigit hoctal s)
        · obtain ⟨⟨mark, width⟩, hm, rfl⟩ := List.mem_map.mp hmark
          by_cases hshort : (s.takeWhile fun c => (hexDigit? c).isSome).length < width
          · exact .inr (.short mark width s hm hshort)
          · obtain ⟨n, digits, rest, rfl, rfl, hn⟩ := exists_hexDigits (not_lt.mp hshort)
            exact startsEscape_or_of_digits hm hn rest
    · exact .inr (.char c s hc)

theorem escape?_of_startsNoEscape (h : StartsNoEscape s) : escape? s = none := by
  cases h with
  | nil => rfl
  | char c s h => exact escape?_of_not_mem h s
  | short mark width s hm h => rw [escape?_hex hm, hexEscape?_of_short h]
  | noScalar mark n digits s hm hd hn =>
    have hm' : (mark, digits.length) ∈ hexMarks := List.mem_cons_of_mem _ hm
    rw [escape?_hex hm', hexEscape?_of_digits hd, charOf?, if_neg hn]
    rfl

theorem escape?_eq_none_iff (s : List Char) : escape? s = none ↔ StartsNoEscape s := by
  refine ⟨fun h => ?_, escape?_of_startsNoEscape⟩
  rcases startsEscape_or_startsNoEscape s with ⟨text, taken, he, -⟩ | hs
  · rw [h] at he
    cases he
  · exact hs

instance : DecidablePred StartsNoEscape := fun s => decidable_of_iff _ (escape?_eq_none_iff s)

theorem length_le_of_escape? (h : escape? s = some (text, taken)) :
    text.length ≤ taken ∧ taken ≤ s.length := by
  rcases startsEscape_or_startsNoEscape s with ⟨text', taken', he, hle⟩ | hs
  · obtain ⟨rfl, rfl⟩ := Prod.mk.inj (Option.some.inj (he.symm.trans h))
    exact hle
  · rw [escape?_of_startsNoEscape hs] at h
    cases h

/-! ### Bodies -/

theorem unescape_of_startsNoEscape (h : StartsNoEscape s) :
    unescape ('\\' :: s) = '\\' :: unescape s := by
  rw [unescape, (escape?_eq_none_iff s).mpr h]
  rfl

theorem length_unescape_le (body : List Char) : (unescape body).length ≤ body.length := by
  fun_induction unescape body with
  | case1 => exact le_rfl
  | case2 c s hc text taken he ih =>
    obtain ⟨htext, htaken⟩ := length_le_of_escape? he
    rw [List.length_drop] at ih
    rw [List.length_append, List.length_cons]
    omega
  | case3 c s hc he ih => exact Nat.succ_le_succ ih
  | case4 c s hc ih => exact Nat.succ_le_succ ih

/-- An escape is longer than what it stands for by its backslash at least. -/
theorem length_unescape_lt (h : escape? s = some (text, taken)) :
    (unescape ('\\' :: s)).length < ('\\' :: s).length := by
  obtain ⟨htext, htaken⟩ := length_le_of_escape? h
  have hrest := length_unescape_le (s.drop taken)
  rw [List.length_drop] at hrest
  rw [unescape_of_escape? h, List.length_append, List.length_cons]
  omega

/-- No backslash of the body starts an escape. -/
def HasNoEscape (body : List Char) : Prop :=
  ∀ before after, body = before ++ '\\' :: after → StartsNoEscape after

theorem hasNoEscape_nil : HasNoEscape [] := by
  intro before after h
  cases before <;> cases h

theorem hasNoEscape_cons_iff :
    HasNoEscape (c :: s) ↔ (c = '\\' → StartsNoEscape s) ∧ HasNoEscape s := by
  constructor
  · intro h
    refine ⟨?_, fun before after hs => h (c :: before) after (by rw [hs, List.cons_append])⟩
    rintro rfl
    exact h [] s rfl
  · rintro ⟨hc, hs⟩ before after h
    cases before with
    | nil =>
      obtain ⟨rfl, rfl⟩ := List.cons.inj h
      exact hc rfl
    | cons d before => exact hs before after (List.cons.inj h).2

instance decidableHasNoEscape : (body : List Char) → Decidable (HasNoEscape body)
  | [] => isTrue hasNoEscape_nil
  | c :: s =>
    have := decidableHasNoEscape s
    decidable_of_iff ((c = '\\' → StartsNoEscape s) ∧ HasNoEscape s) hasNoEscape_cons_iff.symm

/-- A body stays as it is exactly if no backslash of it starts an escape, and no body gets longer by
the replacement of its escapes. -/
theorem unescape_eq_self_iff_hasNoEscape (body : List Char) :
    (unescape body = body ↔ HasNoEscape body) ∧ (unescape body).length ≤ body.length := by
  refine ⟨?_, length_unescape_le body⟩
  induction body with
  | nil => simp [unescape, hasNoEscape_nil]
  | cons c s ih =>
    rw [hasNoEscape_cons_iff]
    by_cases hc : c = '\\'
    · subst hc
      cases he : escape? s with
      | none =>
        have hs := (escape?_eq_none_iff s).mp he
        simp [unescape_of_startsNoEscape hs, ih, hs]
      | some escape =>
        obtain ⟨text, taken⟩ := escape
        have hs : ¬StartsNoEscape s := by
          rw [← escape?_eq_none_iff, he]
          exact Option.some_ne_none _
        have hlt := length_unescape_lt he
        constructor
        · intro h
          rw [h] at hlt
          exact absurd hlt (lt_irrefl _)
        · exact fun h => absurd (h.1 rfl) hs
    · rw [unescape_cons_of_ne hc]
      simp [ih, hc]

/-- Escapes that break off, one of them before the next backslash, a code that no character has, and
a backslash at the end. -/
theorem unescape_eq_self_iff_hasNoEscape_malformed :
    HasNoEscape "\\x4\\d\\uD800\\".toList ∧
      unescape "\\x4\\d\\uD800\\".toList = "\\x4\\d\\uD800\\".toList := by
  have h : HasNoEscape "\\x4\\d\\uD800\\".toList := by decide +kernel
  exact ⟨h, (unescape_eq_self_iff_hasNoEscape _).1.mpr h⟩

end TableLint.Source
