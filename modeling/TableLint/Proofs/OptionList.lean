import TableLint.Proofs.Lines
import TableLint.Proofs.ReferenceGrammar

/-!
The options of a reference line. An option list is a bracket around words of letters that are
separated by commas, with blanks wherever a word begins or ends; it is read word by word, and what
stands after it is the reference. Without one the reference is all that follows the arrow.
-/
namespace TableLint.Definition.ReferenceLine

open Text

variable {s t x y word rest line text : List Char} {words : List (List Char)}

/-- A word of an option list. -/
def IsOptionWord (word : List Char) : Prop := word ≠ [] ∧ ∀ c ∈ word, c.isAlpha = true

instance (word : List Char) : Decidable (IsOptionWord word) :=
  decidable_of_iff (word ≠ [] ∧ word.all Char.isAlpha = true) (and_congr_right' List.all_eq_true)

/-- The text between the brackets of an option list, with its words. -/
inductive WordList : List Char → List (List Char) → Prop where
  | last (x word y : List Char) (hx : AllBlank x) (hw : IsOptionWord word) (hy : AllBlank y) :
      WordList (x ++ (word ++ y)) [word]
  | more (x word y inner : List Char) (words : List (List Char)) (hx : AllBlank x)
      (hw : IsOptionWord word) (hy : AllBlank y) (hi : WordList inner words) :
      WordList (x ++ (word ++ (y ++ ',' :: inner))) (word :: words)

/-- The text is an option list with these words; blanks may stand in front of the bracket. -/
def OptionList (text : List Char) (words : List (List Char)) : Prop :=
  ∃ x inner, AllBlank x ∧ WordList inner words ∧ text = x ++ '[' :: (inner ++ [']'])

/-- A word stands as it is after the blanks in front of it. -/
theorem trimStart_append_word (hx : AllBlank x) (hw : IsOptionWord word) :
    trimStart (x ++ (word ++ t)) = word ++ t := by
  obtain ⟨c, w, rfl⟩ := List.exists_cons_of_ne_nil hw.1
  have hc : isBlank c = false := isBlank_of_isAlpha (hw.2 c List.mem_cons_self)
  rw [trimStart_append hx, List.cons_append, trimStart_cons hc]

/-- Neither blanks nor the sign after them continue a word. -/
theorem not_isAlpha_blank_append (hy : AllBlank y) (ht : ∀ c ∈ t.head?, c.isAlpha = false) :
    ∀ c ∈ (y ++ t).head?, c.isAlpha = false :=
  head?_blank_append (fun _ => eq_false_of_isBlank (by decide)) hy ht

theorem takeWhile_word (hw : IsOptionWord word) (ht : ∀ c ∈ t.head?, c.isAlpha = false) :
    (word ++ t).takeWhile Char.isAlpha = word ∧ (word ++ t).dropWhile Char.isAlpha = t :=
  span_append hw.2 ht

theorem leadingWord_append (hx : AllBlank x) (hw : IsOptionWord word) (hy : AllBlank y)
    (ht : ∀ c ∈ t.head?, c.isAlpha = false) :
    leadingWord (x ++ (word ++ (y ++ t))) = word := by
  rw [leadingWord, trimStart_append_word hx hw,
    (takeWhile_word hw (not_isAlpha_blank_append hy ht)).1]

theorem afterLeadingWord_append {c : Char} (hx : AllBlank x) (hw : IsOptionWord word)
    (hy : AllBlank y) (ha : c.isAlpha = false) (hb : isBlank c = false) :
    afterLeadingWord (x ++ (word ++ (y ++ c :: t))) = c :: t := by
  have ht : ∀ d ∈ (c :: t).head?, d.isAlpha = false := by
    intro d hd
    obtain rfl := Option.some.inj hd
    exact ha
  rw [afterLeadingWord, trimStart_append_word hx hw,
    (takeWhile_word hw (not_isAlpha_blank_append hy ht)).2, trimStart_append hy, trimStart_cons hb]

theorem takeWords_of_comma {after : List Char} (hw : leadingWord s ≠ [])
    (ha : afterLeadingWord s = ',' :: after) :
    takeWords s =
      (takeWords after).map fun (words, rest) => (leadingWord s :: words, rest) := by
  rw [takeWords, dif_neg hw]
  split
  · next hr =>
    rw [ha] at hr
    cases hr
    rfl
  · next hr =>
    rw [ha] at hr
    cases hr
  · next hc _ => exact absurd ha (hc after)

theorem takeWords_of_bracket (hw : leadingWord s ≠ []) (ha : afterLeadingWord s = ']' :: rest) :
    takeWords s = some ([leadingWord s], rest) := by
  rw [takeWords, dif_neg hw]
  split
  · next hr =>
    rw [ha] at hr
    cases hr
  · next hr =>
    rw [ha] at hr
    cases hr
    rfl
  · next hb => exact absurd ha (hb rest)

/-- The words are read up to the closing bracket. -/
theorem takeWords_of_wordList {inner : List Char} (h : WordList inner words) (rest : List Char) :
    takeWords (inner ++ ']' :: rest) = some (words, rest) := by
  induction h with
  | last x word y hx hw hy =>
    have hl : leadingWord (x ++ (word ++ (y ++ ']' :: rest))) = word :=
      leadingWord_append hx hw hy (by simp)
    have ha : afterLeadingWord (x ++ (word ++ (y ++ ']' :: rest))) = ']' :: rest :=
      afterLeadingWord_append hx hw hy (by decide) (by decide)
    have hr := takeWords_of_bracket (hl.symm ▸ hw.1) ha
    rw [hl] at hr
    simpa only [List.append_assoc] using hr
  | more x word y inner words hx hw hy hi ih =>
    have hl : leadingWord (x ++ (word ++ (y ++ ',' :: (inner ++ ']' :: rest)))) = word :=
      leadingWord_append hx hw hy (by simp)
    have ha : afterLeadingWord (x ++ (word ++ (y ++ ',' :: (inner ++ ']' :: rest)))) =
        ',' :: (inner ++ ']' :: rest) :=
      afterLeadingWord_append hx hw hy (by decide) (by decide)
    have hr := takeWords_of_comma (hl.symm ▸ hw.1) ha
    rw [hl, ih] at hr
    simpa only [List.append_assoc, List.cons_append, Option.map_some] using hr

theorem takeOptions?_of_optionList (h : OptionList text words) (rest : List Char) :
    takeOptions? (text ++ rest) = some (words, rest) := by
  obtain ⟨x, inner, hx, hi, rfl⟩ := h
  have ht : trimStart (x ++ '[' :: (inner ++ [']']) ++ rest) = '[' :: (inner ++ ']' :: rest) := by
    rw [List.append_assoc, trimStart_append hx, List.cons_append, trimStart_cons (by decide)]
    simp
  rw [takeOptions?, ht]
  exact takeWords_of_wordList hi rest

/-! ### What is read as options -/

/-- A text is its leading word between blanks, and what stands after it. -/
theorem exists_eq_append_leadingWord (s : List Char) :
    ∃ x y, AllBlank x ∧ AllBlank y ∧ s = x ++ (leadingWord s ++ (y ++ afterLeadingWord s)) := by
  obtain ⟨x, hx, hs⟩ := exists_eq_append_trimStart s
  obtain ⟨y, hy, hd⟩ := exists_eq_append_trimStart ((trimStart s).dropWhile Char.isAlpha)
  refine ⟨x, y, hx, hy, ?_⟩
  rw [afterLeadingWord, ← hd, leadingWord, List.takeWhile_append_dropWhile]
  exact hs

theorem isOptionWord_leadingWord (h : leadingWord s ≠ []) : IsOptionWord (leadingWord s) :=
  ⟨h, fun _ hc => List.mem_takeWhile_imp hc⟩

/-- Only word lists are read as words. -/
theorem wordList_of_takeWords (h : takeWords s = some (words, rest)) :
    ∃ inner, WordList inner words ∧ s = inner ++ ']' :: rest := by
  induction s using takeWords.induct generalizing words with
  | case1 s hs =>
    rw [takeWords, dif_pos hs] at h
    cases h
  | case2 s hs after ha ih =>
    rw [takeWords_of_comma hs ha] at h
    obtain ⟨⟨more, rest'⟩, hm, he⟩ := Option.map_eq_some_iff.mp h
    cases he
    obtain ⟨inner, hi, rfl⟩ := ih hm
    obtain ⟨x, y, hx, hy, hsplit⟩ := exists_eq_append_leadingWord s
    refine ⟨_, .more x _ y inner more hx (isOptionWord_leadingWord hs) hy hi, ?_⟩
    rw [ha] at hsplit
    simpa only [List.append_assoc, List.cons_append] using hsplit
  | case3 s hs after ha =>
    rw [takeWords_of_bracket hs ha] at h
    cases h
    obtain ⟨x, y, hx, hy, hsplit⟩ := exists_eq_append_leadingWord s
    refine ⟨_, .last x _ y hx (isOptionWord_leadingWord hs) hy, ?_⟩
    rw [ha] at hsplit
    simpa only [List.append_assoc] using hsplit
  | case4 s hs hc hb =>
    rw [takeWords, dif_neg hs] at h
    split at h
    · next after ha => exact absurd ha (hc after)
    · next after ha => exact absurd ha (hb after)
    · cases h

/-- Options are read where an option list stands, and only there. -/
theorem takeOptions?_eq_some_iff :
    takeOptions? s = some (words, rest) ↔ ∃ text, OptionList text words ∧ s = text ++ rest := by
  constructor
  · intro h
    rw [takeOptions?] at h
    split at h
    · next after ht =>
      obtain ⟨inner, hi, rfl⟩ := wordList_of_takeWords h
      obtain ⟨x, hx, hs⟩ := exists_eq_append_trimStart s
      refine ⟨_, ⟨x, inner, hx, hi, rfl⟩, ?_⟩
      rw [ht] at hs
      simpa using hs
    · cases h
  · rintro ⟨text, ht, rfl⟩
    exact takeOptions?_of_optionList ht rest

/-- Blanks at the end of a line are no part of its options. -/
theorem takeOptions?_append_blank (hy : AllBlank y) :
    (takeOptions? (s ++ y)).map Prod.fst = (takeOptions? s).map Prod.fst := by
  cases hs : takeOptions? s with
  | some parts =>
    obtain ⟨words, rest⟩ := parts
    obtain ⟨text, ht, rfl⟩ := takeOptions?_eq_some_iff.mp hs
    rw [List.append_assoc, takeOptions?_of_optionList ht]
    rfl
  | none =>
    rw [Option.map_none, Option.map_eq_none_iff, Option.eq_none_iff_forall_ne_some]
    rintro ⟨words, rest⟩ h
    obtain ⟨text, ht, he⟩ := takeOptions?_eq_some_iff.mp h
    -- The list ends with a bracket, which is none of the blanks; so it ends within the text.
    obtain ⟨w, hw, rfl⟩ | ⟨w, rfl, -⟩ := List.append_eq_append_iff.mp he
    · have hn : w = [] := by
        obtain ⟨x, inner, -, -, rfl⟩ := ht
        have hl : (x ++ '[' :: (inner ++ [']'])).getLast? = some ']' := by
          rw [← List.cons_append, ← List.append_assoc, List.getLast?_concat]
        rw [hw, List.getLast?_append] at hl
        cases hlast : w.getLast? with
        | none => exact List.getLast?_eq_none_iff.mp hlast
        | some c =>
          rw [hlast] at hl
          obtain rfl : c = ']' := Option.some.inj hl
          exact absurd (List.mem_append_left rest (List.mem_of_getLast? hlast))
            (hy.not_mem (by decide))
      subst hn
      rw [List.append_nil] at hw
      subst hw
      rw [← List.append_nil text, takeOptions?_of_optionList ht] at hs
      cases hs
    · rw [takeOptions?_of_optionList ht] at hs
      cases hs

/-- The reference is the end of its line. -/
theorem reference_isSuffix {parsed : ReferenceLine} (h : parse line = .ok parsed) :
    parsed.reference <:+ line := by
  rw [parse] at h
  split at h
  · next after ht =>
    have hs : '-' :: '>' :: after <:+ line := ht ▸ List.dropWhile_suffix isBlank
    have ha : after <:+ line := (List.suffix_append ['-', '>'] after).trans hs
    split at h
    · next options reference ho =>
      cases h
      obtain ⟨text, -, rfl⟩ := takeOptions?_eq_some_iff.mp ho
      exact (List.suffix_append text _).trans ha
    · cases h
      exact ha
  · cases h

/-! ### Lines that start with an arrow -/

theorem trimStart_arrow (after : List Char) :
    trimStart ("->".toList ++ after) = '-' :: '>' :: after := trimStart_cons (by decide)

theorem parse_of_options {after reference : List Char} {options : List (List Char)}
    (h : takeOptions? after = some (options, reference)) :
    parse ("->".toList ++ after) = .ok { options, reference } := by
  rw [parse, trimStart_arrow]
  simp only [h]

/-- A reference to a table has no options in front of the name. -/
theorem takeOptions?_of_name {blank name : List Char} (hb : AllBlank blank)
    (hn : isTableName name = true) (rest : List Char) :
    takeOptions? (blank ++ (name ++ rest)) = none := by
  obtain ⟨c, t, rfl⟩ := List.exists_cons_of_ne_nil (ne_nil_of_isTableName hn)
  have hc : isBlank c = false := isBlank_of_mem_name hn List.mem_cons_self
  have hne : c ≠ '[' := by
    rintro rfl
    exact not_mem_name hn (by decide +kernel) List.mem_cons_self
  rw [takeOptions?, trimStart_append hb, List.cons_append, trimStart_cons hc]
  simp [hne]

theorem parse_of_noOptions {after : List Char} (h : takeOptions? after = none) :
    parse ("->".toList ++ after) = .ok { options := [], reference := after } := by
  rw [parse, trimStart_arrow]
  simp only [h]

/-- Only blanks stand in front of the arrow. -/
theorem arrow_isPrefix_of_parse {parsed : ReferenceLine} (h : parse line = .ok parsed) :
    "->".toList <+: trimStart line := by
  rw [parse] at h
  split at h
  · next after ht =>
    rw [ht]
    exact List.prefix_append ['-', '>'] after
  · cases h

theorem optionsOf_of_arrow {after : List Char} (h : trimStart line = "->".toList ++ after) :
    optionsOf line = ((takeOptions? after).map Prod.fst).getD [] := by
  rw [optionsOf, h]
  rfl

/-- The options of a line that can be read are the options that were read. -/
theorem optionsOf_of_parse {parsed : ReferenceLine} (h : parse line = .ok parsed) :
    optionsOf line = parsed.options := by
  rw [parse] at h
  rw [optionsOf]
  split at h
  · split at h
    · next ho =>
      cases h
      simp [ho]
    · next ho =>
      cases h
      simp [ho]
  · cases h

/-- Blanks around a line are no part of its options. -/
theorem optionsOf_of_parse_trim {parsed : ReferenceLine} (h : parse (trim line) = .ok parsed) :
    optionsOf line = parsed.options := by
  obtain ⟨after, ha⟩ := arrow_isPrefix_of_parse h
  obtain ⟨y, hy, hs⟩ := exists_eq_trimEnd_append (trimStart line)
  rw [← trim, ← trimStart_trim, ← ha, List.append_assoc] at hs
  rw [← optionsOf_of_parse h, optionsOf_of_arrow hs, takeOptions?_append_blank hy,
    optionsOf_of_arrow ha.symm]

end TableLint.Definition.ReferenceLine
