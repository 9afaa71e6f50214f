import TableLint.Proofs.LiteralSpelling

/-!
Which texts are decoded, and which of them are literals. Decoding looks at the two ends of a text
only: any number of letters, a quote, and the same quote at the end. A literal has at most one
letter, and its closing quote is the first one after the opening quote that no backslash takes away.
-/
namespace TableLint.Source

open Text

variable {letters quote body s text : List Char}

/-! ### Literals -/

/-- The body of a literal. A backslash takes the next character with it, so it is not the last one,
and the quote stands nowhere else than inside such pairs. -/
inductive IsBody (quote : List Char) : List Char → Prop where
  | nil : IsBody quote []
  | escape (c : Char) {s : List Char} (h : IsBody quote s) : IsBody quote ('\\' :: c :: s)
  | char {c : Char} {s : List Char} (hc : c ≠ '\\') (hq : ¬quote <+: c :: s) (h : IsBody quote s) :
      IsBody quote (c :: s)

theorem isBody_escape_iff (c : Char) : IsBody quote ('\\' :: c :: s) ↔ IsBody quote s := by
  constructor
  · intro h
    cases h with
    | escape _ h => exact h
    | char hc => exact absurd rfl hc
  · exact .escape c

theorem not_isBody_backslash : ¬IsBody quote ['\\'] := by
  intro h
  cases h with
  | char hc => exact absurd rfl hc

theorem isBody_cons_iff {c : Char} (hc : c ≠ '\\') :
    IsBody quote (c :: s) ↔ ¬quote <+: c :: s ∧ IsBody quote s := by
  constructor
  · intro h
    cases h with
    | escape _ h => exact absurd rfl hc
    | char _ hq h => exact ⟨hq, h⟩
  · rintro ⟨hq, h⟩
    exact .char hc hq h

instance decidableIsBody (quote : List Char) : (s : List Char) → Decidable (IsBody quote s)
  | [] => isTrue .nil
  | c :: s =>
    if hc : c = '\\' then
      match s with
      | [] => isFalse (hc ▸ not_isBody_backslash)
      | d :: s =>
        have := decidableIsBody quote s
        decidable_of_iff (IsBody quote s) (hc ▸ (isBody_escape_iff d).symm)
    else
      have := decidableIsBody quote s
      decidable_of_iff (¬quote.isPrefixOf (c :: s) = true ∧ IsBody quote s)
        (by rw [isBody_cons_iff hc, List.isPrefixOf_iff_prefix])

/-- The text is a literal of constant text: at most one letter, a quote, a body, and the same quote
again. -/
def IsLiteral (text : List Char) : Prop :=
  ∃ letters quote body, text = letters ++ (quote ++ (body ++ quote)) ∧ letters.length ≤ 1 ∧
    (∀ c ∈ letters, c ∈ textLetters) ∧ quote ∈ quotes ∧ IsBody quote body

/-! ### Quotes at both ends -/

/-- The quote opens the text: it stands at the start, and no longer one does. -/
structure Opens (quote text : List Char) : Prop where
  mem : quote ∈ quotes
  isPrefix : quote <+: text
  longest : ∀ other ∈ quotes, other <+: text → other.length ≤ quote.length

theorem quotes_pairwise : quotes.Pairwise fun a b => b.length ≤ a.length := by decide

/-- The quotes are tried from the longest to the shortest. -/
theorem opens_of_find? (h : quotes.find? (·.isPrefixOf text) = some quote) : Opens quote text := by
  obtain ⟨hp, front, back, hquotes, hfront⟩ := List.find?_eq_some_iff_append.mp h
  have hmem : quote ∈ quotes := List.mem_of_find?_eq_some h
  refine ⟨hmem, List.isPrefixOf_iff_prefix.mp hp, ?_⟩
  intro other ho hother
  have hpair := quotes_pairwise
  rw [hquotes] at ho hpair
  rcases List.mem_append.mp ho with hm | hm
  · have hn := hfront other hm
    rw [List.isPrefixOf_iff_prefix.mpr hother] at hn
    cases hn
  · rcases List.mem_cons.mp hm with rfl | hm
    · exact le_rfl
    · exact (List.pairwise_cons.mp (List.pairwise_append.mp hpair).2.1).1 other hm

/-- A text is opened by one quote. -/
theorem Opens.unique {other : List Char} (h : Opens quote text) (h' : Opens other text) :
    quote = other := by
  have hlen : quote.length = other.length :=
    le_antisymm (h'.longest quote h.mem h.isPrefix) (h.longest other h'.mem h'.isPrefix)
  exact (List.prefix_of_prefix_length_le h.isPrefix h'.isPrefix hlen.le).eq_of_length hlen

theorem find?_of_opens (h : Opens quote text) :
    quotes.find? (·.isPrefixOf text) = some quote := by
  cases hf : quotes.find? (·.isPrefixOf text) with
  | none =>
    have hn := List.find?_eq_none.mp hf quote h.mem
    exact absurd (List.isPrefixOf_iff_prefix.mpr h.isPrefix) hn
  | some other => rw [h.unique (opens_of_find? hf)]

/-- The text begins with letters and an opening quote and ends with the same quote. -/
structure Framed (text letters quote body : List Char) : Prop where
  text_eq : text = letters ++ (quote ++ (body ++ quote))
  mem_letters : ∀ c ∈ letters, c ∈ textLetters
  opens : Opens quote (quote ++ (body ++ quote))

theorem Framed.decode?_eq (h : Framed text letters quote body) :
    decode? text = some (bodyValue letters body) := by
  rw [h.text_eq]
  exact decode?_between h.mem_letters h.opens.mem (find?_of_opens h.opens)

/-- A text is framed in one way. -/
theorem Framed.unique {letters' quote' body' : List Char} (h : Framed text letters quote body)
    (h' : Framed text letters' quote' body') :
    letters = letters' ∧ quote = quote' ∧ body = body' := by
  have hspan := span_letters (fun c hc => isPrefixLetter_of_mem (h.mem_letters c hc)) h.opens.mem
    (body ++ quote)
  have hspan' := span_letters (fun c hc => isPrefixLetter_of_mem (h'.mem_letters c hc))
    h'.opens.mem (body' ++ quote')
  rw [← h.text_eq] at hspan
  rw [← h'.text_eq] at hspan'
  have hquoted : quote ++ (body ++ quote) = quote' ++ (body' ++ quote') := by
    rw [← hspan.2, hspan'.2]
  have hquote : quote = quote' := by
    apply h.opens.unique
    rw [hquoted]
    exact h'.opens
  subst hquote
  exact ⟨by rw [← hspan.1, hspan'.1], rfl,
    List.append_cancel_right (List.append_cancel_left hquoted)⟩

/-- A text that starts and ends with a quote, without the two sharing a character, has a body. -/
theorem exists_body (hp : quote <+: s) (hs : quote <:+ s) (hlen : quote.length * 2 ≤ s.length) :
    ∃ body, s = quote ++ (body ++ quote) := by
  obtain ⟨rest, rfl⟩ := hp
  have hrest : quote <:+ rest := by
    refine List.suffix_of_suffix_length_le hs (List.suffix_append quote rest) ?_
    rw [List.length_append] at hlen
    omega
  obtain ⟨body, rfl⟩ := hrest
  exact ⟨body, rfl⟩

theorem mem_textLetters {c : Char} (hc : isPrefixLetter c = true)
    (h : ¬(c == 'f' || c == 'F' || c == 'b' || c == 'B') = true) : c ∈ textLetters := by
  simp only [isPrefixLetter, Bool.or_eq_true, beq_iff_eq] at hc h
  simp only [textLetters, List.mem_cons, List.not_mem_nil, or_false]
  tauto

/-- Only framed texts are decoded. -/
theorem exists_framed_of_decode? {value : List Char} (h : decode? text = some value) :
    ∃ letters quote body, Framed text letters quote body := by
  rw [decode?] at h
  split at h
  · cases h
  · next hplain =>
    split at h
    · cases h
    · next quote hf =>
      split at h
      · cases h
      · next hends =>
        have hopens := opens_of_find? hf
        simp only [Bool.or_eq_true, decide_eq_true_eq, Bool.not_eq_true', not_or, not_lt,
          Bool.not_eq_false, List.isSuffixOf_iff_suffix] at hends
        obtain ⟨body, hbody⟩ := exists_body hopens.isPrefix hends.2 hends.1
        refine ⟨text.takeWhile isPrefixLetter, quote, body, ?_, ?_, hbody ▸ hopens⟩
        · rw [← hbody, List.takeWhile_append_dropWhile]
        · intro c hc
          refine mem_textLetters (List.mem_takeWhile_imp hc) fun hb => hplain ?_
          exact List.any_eq_true.mpr ⟨c, hc, hb⟩

/-! ### Framed texts that are literals -/

theorem not_isPrefix_of_isBody (hq : quote ∈ quotes) (h : IsBody quote body) :
    ¬quote <+: body := by
  intro hp
  cases h with
  | nil =>
    obtain rfl := List.prefix_nil.mp hp
    revert hq
    decide
  | escape c _ =>
    simp only [quotes, List.mem_cons, List.not_mem_nil, or_false] at hq
    rcases hq with rfl | rfl | rfl | rfl <;> simp at hp
  | char _ hn _ => exact hn hp

/-- A quote that starts with a shorter one is that one, of one character, three times. -/
theorem tripled_of_isPrefix : ∀ quote ∈ quotes, ∀ other ∈ quotes, quote <+: other →
    quote.length < other.length → quote.length = 1 ∧ other = quote ++ (quote ++ quote) := by
  decide +kernel

/-- A body does not start with its quote, so it cannot make the opening quote longer. -/
theorem opens_of_isBody (hq : quote ∈ quotes) (h : IsBody quote body) :
    Opens quote (quote ++ (body ++ quote)) := by
  refine ⟨hq, List.prefix_append _ _, ?_⟩
  intro other ho hp
  by_contra hlen
  rw [not_le] at hlen
  have hqo : quote <+: other :=
    List.prefix_of_prefix_length_le (List.prefix_append _ _) hp hlen.le
  obtain ⟨hone, rfl⟩ := tripled_of_isPrefix quote hq other ho hqo hlen
  have hrest : quote ++ quote <+: body ++ quote := (List.prefix_append_right_inj quote).mp hp
  have hbody : quote.length ≤ body.length := by
    have := hrest.length_le
    simp only [List.length_append] at this
    omega
  have hstart : quote <+: body := List.prefix_of_prefix_length_le
    ((List.prefix_append quote quote).trans hrest) (List.prefix_append body quote) hbody
  exact not_isPrefix_of_isBody hq h hstart

theorem exists_framed_of_isLiteral (h : IsLiteral text) :
    ∃ letters quote body, Framed text letters quote body ∧ letters.length ≤ 1 ∧
      IsBody quote body := by
  obtain ⟨letters, quote, body, htext, hone, hletters, hq, hbody⟩ := h
  exact ⟨letters, quote, body, ⟨htext, hletters, opens_of_isBody hq hbody⟩, hone, hbody⟩

theorem isLiteral_iff_of_framed (h : Framed text letters quote body) :
    IsLiteral text ↔ letters.length ≤ 1 ∧ IsBody quote body := by
  constructor
  · intro hl
    obtain ⟨letters', quote', body', hf, hone, hbody⟩ := exists_framed_of_isLiteral hl
    obtain ⟨rfl, rfl, rfl⟩ := h.unique hf
    exact ⟨hone, hbody⟩
  · rintro ⟨hone, hbody⟩
    exact ⟨letters, quote, body, h.text_eq, hone, h.mem_letters, h.opens.mem, hbody⟩

/-- The texts that are decoded are those with a quote at both ends and letters in front that allow
constant text. All literals are among them. The others have several letters, or the quote in the
middle of their body, or a closing quote that belongs to a backslash. -/
theorem decode?_eq_some_iff_framed (text : List Char) :
    (∀ value, decode? text = some value ↔
      ∃ letters quote body, Framed text letters quote body ∧ value = bodyValue letters body) ∧
      (IsLiteral text → (decode? text).isSome = true) ∧
      ∀ letters quote body, Framed text letters quote body →
        (IsLiteral text ↔ letters.length ≤ 1 ∧ IsBody quote body) := by
  refine ⟨?_, ?_, fun _ _ _ => isLiteral_iff_of_framed⟩
  · intro value
    constructor
    · intro h
      obtain ⟨letters, quote, body, hf⟩ := exists_framed_of_decode? h
      rw [hf.decode?_eq] at h
      exact ⟨letters, quote, body, hf, (Option.some.inj h).symm⟩
    · rintro ⟨letters, quote, body, hf, rfl⟩
      exact hf.decode?_eq
  · intro h
    obtain ⟨letters, quote, body, hf, -⟩ := exists_framed_of_isLiteral h
    rw [hf.decode?_eq]
    rfl

/-- A raw literal with an escaped quote in its body. -/
theorem decode?_eq_some_iff_framed_raw :
    Framed "r'it\\'s'".toList ['r'] ['\''] "it\\'s".toList ∧ IsLiteral "r'it\\'s'".toList ∧
      (decode? "r'it\\'s'".toList).isSome = true := by
  have hbody : IsBody ['\''] "it\\'s".toList := by decide
  have hf : Framed "r'it\\'s'".toList ['r'] ['\''] "it\\'s".toList :=
    ⟨rfl, by simp [textLetters], opens_of_isBody (by decide) hbody⟩
  have hl : IsLiteral "r'it\\'s'".toList :=
    ((decode?_eq_some_iff_framed "r'it\\'s'".toList).2.2 _ _ _ hf).mpr ⟨le_rfl, hbody⟩
  exact ⟨hf, hl, (decode?_eq_some_iff_framed "r'it\\'s'".toList).2.1 hl⟩

/-- Texts that are decoded and are no literals: a quote in the middle, a closing quote that is
escaped, and two letters. -/
theorem malformedLiterals_decoded :
    (decode? "\"a\"b\"".toList = some "a\"b".toList ∧ ¬IsLiteral "\"a\"b\"".toList) ∧
      (decode? "\"\\\"".toList = some "\\".toList ∧ ¬IsLiteral "\"\\\"".toList) ∧
      decode? "rr\"a\"".toList = some "a".toList ∧ ¬IsLiteral "rr\"a\"".toList := by
  have hinner : Framed "\"a\"b\"".toList [] ['"'] "a\"b".toList :=
    ⟨rfl, by simp, opens_of_find? (by decide)⟩
  have hescaped : Framed "\"\\\"".toList [] ['"'] ['\\'] :=
    ⟨rfl, by simp, opens_of_find? (by decide)⟩
  have hletters : Framed "rr\"a\"".toList ['r', 'r'] ['"'] ['a'] :=
    ⟨rfl, by simp [textLetters], opens_of_find? (by decide)⟩
  rw [isLiteral_iff_of_framed hinner, isLiteral_iff_of_framed hescaped,
    isLiteral_iff_of_framed hletters, hinner.decode?_eq, hescaped.decode?_eq,
    hletters.decode?_eq]
  decide +kernel

end TableLint.Source
