import TableLint.Proofs.FailingLine
import TableLint.Proofs.OptionList

/-!
The grammar of reference lines. A line can be split exactly when an arrow is the first thing on it,
blanks apart. After the arrow come an option list and the reference, or the reference alone; a
bracket that is no option list belongs to the reference, with all that was read of it. The two ways
of asking a line for its options agree.
-/
namespace TableLint.Definition.ReferenceLine

open Text

variable {s line after : List Char} {parsed : ReferenceLine}

/-- The parts of the text after an arrow. -/
inductive AfterArrow (after : List Char) : ReferenceLine → Prop where
  | withOptions (text reference : List Char) (words : List (List Char))
      (ht : OptionList text words) (ha : after = text ++ reference) :
      AfterArrow after ⟨words, reference⟩
  | withoutOptions (hn : ∀ text words, OptionList text words → ¬text <+: after) :
      AfterArrow after ⟨[], after⟩

theorem takeOptions?_eq_none_iff :
    takeOptions? s = none ↔ ∀ text words, OptionList text words → ¬text <+: s := by
  constructor
  · rintro h text words ht ⟨rest, rfl⟩
    rw [takeOptions?_of_optionList ht] at h
    cases h
  · intro h
    rw [Option.eq_none_iff_forall_ne_some]
    rintro ⟨words, rest⟩ hs
    obtain ⟨text, ht, he⟩ := takeOptions?_eq_some_iff.mp hs
    exact h text words ht ⟨rest, he.symm⟩

theorem parse_eq_of_arrow (h : trimStart line = "->".toList ++ after) :
    parse line = parse ("->".toList ++ after) := by
  rw [parse, parse, h, trimStart_arrow]
  rfl

/-- The text after an arrow has one reading, and that is what is read. -/
theorem parse_arrow_iff : parse ("->".toList ++ after) = .ok parsed ↔ AfterArrow after parsed := by
  cases ho : takeOptions? after with
  | some parts =>
    obtain ⟨words, reference⟩ := parts
    obtain ⟨text, ht, ha⟩ := takeOptions?_eq_some_iff.mp ho
    rw [parse_of_options ho]
    constructor
    · rintro ⟨⟩
      exact .withOptions text reference words ht ha
    · rintro (⟨other, rest, more, hother, he⟩ | hn)
      · rw [he, takeOptions?_of_optionList hother] at ho
        cases ho
        rfl
      · exact absurd ⟨reference, ha.symm⟩ (hn text words ht)
  | none =>
    rw [parse_of_noOptions ho]
    rw [takeOptions?_eq_none_iff] at ho
    constructor
    · rintro ⟨⟩
      exact .withoutOptions ho
    · rintro (⟨text, reference, words, ht, ha⟩ | hn)
      · exact absurd ⟨reference, ha.symm⟩ (ho text words ht)
      · rfl

/-- An arrow comes first on a line if the line is blanks, the arrow and the rest. -/
theorem trimStart_eq_arrow_iff :
    trimStart line = "->".toList ++ after ↔
      ∃ blank, AllBlank blank ∧ line = blank ++ ("->".toList ++ after) := by
  constructor
  · intro h
    obtain ⟨blank, hb, he⟩ := exists_eq_append_trimStart line
    rw [h] at he
    exact ⟨blank, hb, he⟩
  · rintro ⟨blank, hb, rfl⟩
    rw [trimStart_append hb]
    exact trimStart_arrow after

theorem parse_eq_ok_iff :
    parse line = .ok parsed ↔
      ∃ after, trimStart line = "->".toList ++ after ∧ AfterArrow after parsed := by
  constructor
  · intro h
    obtain ⟨after, ha⟩ := arrow_isPrefix_of_parse h
    rw [parse_eq_of_arrow ha.symm] at h
    exact ⟨after, ha.symm, parse_arrow_iff.mp h⟩
  · rintro ⟨after, ha, hr⟩
    rw [parse_eq_of_arrow ha]
    exact parse_arrow_iff.mpr hr

theorem exists_parse_iff :
    (∃ parsed, parse line = .ok parsed) ↔ "->".toList <+: trimStart line := by
  constructor
  · rintro ⟨parsed, h⟩
    exact arrow_isPrefix_of_parse h
  · rintro ⟨after, ha⟩
    rw [parse_eq_of_arrow ha.symm]
    cases ho : takeOptions? after with
    | some parts => exact ⟨_, parse_of_options ho⟩
    | none => exact ⟨_, parse_of_noOptions ho⟩

/-- A line that does not start with an arrow has no options. -/
theorem optionsOf_of_error {problem : Problem} (h : parse line = .error problem) :
    optionsOf line = [] := by
  rw [parse] at h
  rw [optionsOf]
  split at h
  · split at h <;> cases h
  · rfl

theorem isReference_of_parse (h : parse line = .ok parsed) : isReference line = true := by
  obtain ⟨after, ha⟩ := arrow_isPrefix_of_parse h
  obtain ⟨blank, hb, rfl⟩ := trimStart_eq_arrow_iff.mp ha.symm
  exact isReference_of_arrow hb after

/-- A line can be split exactly when it starts with an arrow, blanks apart. Its parts are those of
the text after the arrow: the words of an option list and the text after that list, or no words and
the whole text if it does not start with an option list. The options of any line are the words that
are read, none if it cannot be split; and a line that can be split counts as a reference line. -/
theorem parse_grammar (line : List Char) :
    ((∃ parsed, parse line = .ok parsed) ↔ "->".toList <+: trimStart line) ∧
      (∀ parsed, parse line = .ok parsed ↔
        ∃ blank after, AllBlank blank ∧ line = blank ++ ("->".toList ++ after) ∧
          AfterArrow after parsed) ∧
      optionsOf line = ((parse line).toOption.map ReferenceLine.options).getD [] ∧
      ∀ parsed, parse line = .ok parsed → isReference line = true := by
  refine ⟨exists_parse_iff, ?_, ?_, fun _ => isReference_of_parse⟩
  · intro parsed
    rw [parse_eq_ok_iff]
    constructor
    · rintro ⟨after, ha, hr⟩
      obtain ⟨blank, hb, he⟩ := trimStart_eq_arrow_iff.mp ha
      exact ⟨blank, after, hb, he, hr⟩
    · rintro ⟨blank, after, hb, he, hr⟩
      exact ⟨after, trimStart_eq_arrow_iff.mpr ⟨blank, hb, he⟩, hr⟩
  · cases hp : parse line with
    | error problem => exact optionsOf_of_error hp
    | ok parsed => exact optionsOf_of_parse hp

/-- Two options with blanks around them, and no blank in front of the reference. -/
theorem optionList_shared :
    OptionList " [ unique ,\tNullable]".toList ["unique".toList, "Nullable".toList] := by
  have hlast : WordList "\tNullable".toList ["Nullable".toList] :=
    .last ['\t'] "Nullable".toList [] (by decide) (by decide) (by decide)
  have hmore : WordList " unique ,\tNullable".toList ["unique".toList, "Nullable".toList] :=
    .more [' '] "unique".toList [' '] _ _ (by decide) (by decide) (by decide) hlast
  exact ⟨[' '], _, by decide, hmore, rfl⟩

theorem parse_grammar_shared :
    parse "  -> [ unique ,\tNullable]Subject".toList =
        .ok ⟨["unique".toList, "Nullable".toList], "Subject".toList⟩ ∧
      optionsOf "  -> [ unique ,\tNullable]Subject".toList =
        ["unique".toList, "Nullable".toList] ∧
      isReference "  -> [ unique ,\tNullable]Subject".toList = true := by
  obtain ⟨-, hparse, hoptions, hreference⟩ :=
    parse_grammar "  -> [ unique ,\tNullable]Subject".toList
  have h := (hparse _).mpr
    ⟨[' ', ' '], _, by decide, rfl, .withOptions _ "Subject".toList _ optionList_shared rfl⟩
  rw [h] at hoptions
  exact ⟨h, hoptions, hreference _ h⟩

end TableLint.Definition.ReferenceLine
