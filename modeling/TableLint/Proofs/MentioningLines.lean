import TableLint.Proofs.KeyLines
import TableLint.Proofs.ReviewFindings
import TableLint.Proofs.Suppression

/-!
The lines that a review finds by a name. A problem does not say on which line it arose, so the
review looks for the lines that mention the name after a space. It takes the options from the first
of them, and it takes a name for repeated that is not mentioned on exactly one line. Both are right
as far as the lines that mention the name are those that refer to its table: a comment with the
name, or a name directly after the arrow, leads the review to another line or to none.
-/
namespace TableLint.Text

variable {s t : List Char}

theorem toUpper_eq_iff_toLower_eq (c d : Char) :
    c.toUpper = d.toUpper ↔ c.toLower = d.toLower := by
  rw [← Char.toNat_inj, ← Char.toNat_inj, toNat_toLower, toNat_toLower, toNat_toUpper,
    toNat_toUpper]
  grind

/-- It makes no difference in which case two texts are compared. -/
theorem upper_eq_iff_lower_eq : upper s = upper t ↔ lower s = lower t := by
  induction s generalizing t with
  | nil => cases t <;> simp [upper, lower]
  | cons c s ih =>
    cases t with
    | nil => simp [upper, lower]
    | cons d t =>
      simp only [upper, lower] at ih
      simp only [upper, lower, List.map_cons, List.cons.injEq, toUpper_eq_iff_toLower_eq, ih]

end TableLint.Text

namespace TableLint.Definition

open Text

variable {definition line : List Char} {failing : FailingLine}

/-! ### Options -/

/-- The words that are options, in whatever case they are written. -/
def isKnownOption (word : List Char) : Bool :=
  sameLetters "nullable".toList word || sameLetters "unique".toList word

theorem isValidOption_upper (word : List Char) :
    isValidOption (upper word) = isKnownOption word := by
  have hs : ∀ option : List Char, upper (lower option) = option →
      (upper word == option) = sameLetters (lower option) word := by
    intro option ho
    rw [Bool.eq_iff_iff, beq_iff_eq, sameLetters, beq_iff_eq, ← upper_eq_iff_lower_eq, ho]
    exact eq_comm
  exact congrArg₂ or (hs "NULLABLE".toList rfl) (hs "UNIQUE".toList rfl)

/-- A line with options is a reference line, also without the blanks around it. -/
theorem ReferenceLine.exists_parse_of_optionsOf (h : optionsOf line ≠ []) :
    ∃ parsed, ReferenceLine.parse (trim line) = .ok parsed := by
  rw [optionsOf] at h
  split at h
  · next after ht =>
    have ha : ∃ rest, trim line = "->".toList ++ rest := by
      rw [trim, ht]
      by_cases hb : AllBlank after
      · exact ⟨[], trimEnd_append (s := ['-', '>']) hb⟩
      · exact ⟨_, trimEnd_append_of_not_allBlank (s := ['-', '>']) hb⟩
    obtain ⟨rest, ha⟩ := ha
    rw [ha]
    cases ho : takeOptions? rest with
    | some parts => exact ⟨_, parse_of_options ho⟩
    | none => exact ⟨_, parse_of_noOptions ho⟩
  · exact absurd rfl h

/-! ### Lines as they are written -/

/-- The lines above the given one, with the blanks around them. -/
def writtenAbove (definition line : List Char) : List (List Char) :=
  (splitAt '\n' definition).takeWhile (trim · != line)

/-- The failing line as it is written. No line above it has options: it would have failed. -/
theorem exists_written_of_failingLine? (h : failingLine? {} definition = some failing) :
    ∃ above written below, splitAt '\n' definition = above ++ written :: below ∧
      trim written = failing.line ∧ ∀ other ∈ above, ReferenceLine.optionsOf other = [] := by
  obtain ⟨above, below, hs, -, hr⟩ := exists_append_of_failingLine? h
  obtain ⟨preceding, written, following, hw, hline, hover⟩ := Rule.exists_written hs
  refine ⟨preceding, written, following, hw, hline, ?_⟩
  intro other ho
  by_contra hne
  obtain ⟨parsed, hp⟩ := ReferenceLine.exists_parse_of_optionsOf hne
  rcases hover other ho with hb | hm
  · rw [hb] at hp
    cases hp
  · obtain ⟨k, hn⟩ := hr _ hm
    rw [lineProblem?_of_unresolved hp (resolveReference_empty _)] at hn
    cases hn

end TableLint.Definition

namespace TableLint.Rule

open Text Definition

variable {names : VisibleNames} {settings : Settings.Tables} {table : Table}
  {definition name line : List Char} {failing : FailingLine} {parsed : ReferenceLine}

/-! ### The first line that mentions a name -/

/-- The line has the name after a space. -/
def Mentions (name line : List Char) : Prop := ' ' :: name <:+: line

instance (name line : List Char) : Decidable (Mentions name line) :=
  inferInstanceAs (Decidable (_ <:+: _))

/-- The line mentions the name, and no line above it does. -/
def FirstToMention (definition name line : List Char) : Prop :=
  Mentions name line ∧ ∃ above below, splitAt '\n' definition = above ++ line :: below ∧
    ∀ other ∈ above, ¬Mentions name other

theorem head?_referenceLines_iff :
    (referenceLines name definition).head? = some line ↔ FirstToMention definition name line := by
  rw [referenceLines, List.head?_filter, List.find?_eq_some_iff_append, occursIn_iff]
  simp [FirstToMention, Mentions, ← occursIn_iff]

instance (definition name line : List Char) : Decidable (FirstToMention definition name line) :=
  decidable_of_iff _ head?_referenceLines_iff

/-- The findings about the words among the options that are none, in upper case. -/
def unknownOptions (table : Table) (options : List (List Char)) : List Finding :=
  (options.filter (!isKnownOption ·)).map fun option => ⟨.badOption, [table.name, upper option]⟩

theorem badFindings_upper (table : Table) (options : List (List Char)) :
    badFindings table.name (options.map upper) = unknownOptions table options := by
  simp only [badFindings, unknownOptions, List.filter_map, List.map_map, Function.comp_def,
    isValidOption_upper]

theorem reviewedOptions_of_first (h : FirstToMention definition name line) :
    reviewedOptions name definition = (ReferenceLine.optionsOf line).map upper := by
  rw [reviewedOptions, head?_referenceLines_iff.mpr h]
  rfl

theorem reviewedOptions_of_none (h : ∀ line ∈ splitAt '\n' definition, ¬Mentions name line) :
    reviewedOptions name definition = [] := by
  have hl : referenceLines name definition = [] := by
    rw [referenceLines, List.filter_eq_nil_iff]
    intro line hm ho
    exact h line hm (occursIn_iff.mp ho)
  rw [reviewedOptions, hl]
  rfl

/-- The first line that mentions the name stands above the failing line if any line does so there;
then it has no options. -/
theorem optionsOf_first_of_above (hf : failingLine? {} definition = some failing)
    (ha : ∃ other ∈ writtenAbove definition failing.line, Mentions name other) :
    ∃ line, FirstToMention definition name line ∧ ReferenceLine.optionsOf line = [] := by
  obtain ⟨above, written, below, hs, hw, ho⟩ := exists_written_of_failingLine? hf
  have hsub : ∀ other ∈ writtenAbove definition failing.line, other ∈ above := by
    intro other hm
    rw [writtenAbove, hs] at hm
    rcases mem_takeWhile_append hm with hm | hm
    · exact (List.takeWhile_prefix _).subset hm
    · simp [hw] at hm
  obtain ⟨other, hm, hmen⟩ := ha
  -- The search stops at or before that line, hence among the lines without options.
  obtain ⟨line, hl⟩ : ∃ line, above.find? (occursIn (' ' :: name)) = some line := by
    rw [← Option.isSome_iff_exists, List.find?_isSome]
    exact ⟨other, hsub other hm, occursIn_iff.mpr hmen⟩
  refine ⟨line, head?_referenceLines_iff.mp ?_, ho line (List.mem_of_find?_eq_some hl)⟩
  rw [referenceLines, List.head?_filter, hs, List.find?_append, hl]
  rfl

/-- Where the first failing line is a reference line, the findings about bad options are about the
first line that mentions the name, and there are none if no line does. That line may be the failing
line; it may also stand above it, and then it has no options. -/
theorem badOptions_reported (names : VisibleNames) (settings : Settings.Tables) (table : Table)
    (definition : List Char) (failing : FailingLine) (parsed : ReferenceLine)
    (hd : table.definition = some (.literal definition))
    (hf : failingLine? {} definition = some failing)
    (hp : ReferenceLine.parse failing.line = .ok parsed) :
    (∀ line, FirstToMention definition (reviewedName parsed.reference) line →
      ofRule .badOption (judge names settings table) =
        unknownOptions table (ReferenceLine.optionsOf line)) ∧
    ((∀ line ∈ splitAt '\n' definition, ¬Mentions (reviewedName parsed.reference) line) →
      ofRule .badOption (judge names settings table) = []) ∧
    (∀ line, FirstToMention definition (reviewedName parsed.reference) line →
      trim line = failing.line →
        ofRule .badOption (judge names settings table) = unknownOptions table parsed.options) ∧
    ((∃ line ∈ writtenAbove definition failing.line,
        Mentions (reviewedName parsed.reference) line) →
      ofRule .badOption (judge names settings table) = []) := by
  have hj : ofRule .badOption (judge names settings table) = _ := ofRule_badOption_judge hd hf hp
  have hfirst : ∀ line, FirstToMention definition (reviewedName parsed.reference) line →
      ofRule .badOption (judge names settings table) =
        unknownOptions table (ReferenceLine.optionsOf line) := by
    intro line hl
    rw [hj, reviewedOptions_of_first hl, badFindings_upper]
  refine ⟨hfirst, ?_, ?_, ?_⟩
  · intro h
    rw [hj, reviewedOptions_of_none h]
    rfl
  · intro line hl ht
    rw [hfirst line hl, ReferenceLine.optionsOf_of_parse_trim (ht ▸ hp)]
  · intro h
    obtain ⟨line, hl, ho⟩ := optionsOf_first_of_above hf h
    rw [hfirst line hl, ho]
    rfl

/-- A definition with words among its options that are none. -/
def sharedSession : List Char :=
  "day : date  # of the run\n---\n  -> [Shared, UNIQUE, weak] Subject\n-> Rig".toList

/-- They are reported. -/
theorem badOptions_reported_shared :
    FirstToMention sharedSession "Subject".toList "  -> [Shared, UNIQUE, weak] Subject".toList ∧
      ofRule .badOption (judge subjectKnown {} (sessionWith sharedSession)) =
        [⟨.badOption, ["Session".toList, "SHARED".toList]⟩,
          ⟨.badOption, ["Session".toList, "WEAK".toList]⟩] := by
  have hfirst : FirstToMention sharedSession "Subject".toList
      "  -> [Shared, UNIQUE, weak] Subject".toList := by decide +kernel
  obtain ⟨-, -, hoptions, -⟩ := badOptions_reported subjectKnown {} (sessionWith sharedSession)
    sharedSession
    ⟨false, "-> [Shared, UNIQUE, weak] Subject".toList, .unresolvedReference " Subject".toList⟩
    ⟨["Shared".toList, "UNIQUE".toList, "weak".toList], " Subject".toList⟩ rfl
    (by decide +kernel) (by decide +kernel)
  exact ⟨hfirst, hoptions _ hfirst (by decide +kernel)⟩

/-- They are not reported below a comment that mentions the name, whether or not their own line
mentions it. -/
theorem badOption_unreported :
    failingLine? {} "id : int  # of the Subject\n-> [shared] Subject".toList =
        some ⟨true, "-> [shared] Subject".toList, .unresolvedReference " Subject".toList⟩ ∧
      judge subjectKnown {} (sessionWith "id : int  # of the Subject\n-> [shared] Subject".toList) =
        [⟨.repeatedReference, ["Session".toList]⟩] ∧
      failingLine? {} "id : int  # of the Subject\n-> [shared]Subject".toList =
        some ⟨true, "-> [shared]Subject".toList, .unresolvedReference "Subject".toList⟩ ∧
      judge subjectKnown {} (sessionWith "id : int  # of the Subject\n-> [shared]Subject".toList) =
        [] := by
  decide +kernel

/-! ### Lines that refer to a table -/

/-- The line refers to the table. -/
def refersTo (name line : List Char) : Bool :=
  match ReferenceLine.parse line with
  | .ok parsed => (readReference parsed.reference).any (·.1 == name)
  | .error _ => false

/-- The lines of a definition that refer to the table. -/
def referencesTo (name definition : List Char) : List (List Char) :=
  (splitLines definition).filter (refersTo name)

/-- The blank lines that are no lines of the definition refer to no table. -/
theorem length_referencesTo (name definition : List Char) :
    (referencesTo name definition).length =
      (splitAt '\n' definition).countP fun line => refersTo name (trim line) := by
  have hblank : ∀ lines : List (List Char), (∀ line ∈ lines, line = []) →
      lines.countP (refersTo name) = 0 := by
    intro lines h
    rw [List.countP_eq_zero]
    intro line hm
    rw [h line hm]
    exact Bool.false_ne_true
  obtain ⟨x, y, hx, hy, hmap⟩ := exists_map_trim_splitAt definition
  have hc : ((splitAt '\n' definition).map trim).countP (refersTo name) =
      (splitLines definition).countP (refersTo name) := by
    rw [hmap, List.countP_append, List.countP_append, hblank x hx, hblank y hy]
    omega
  rw [List.countP_map] at hc
  rw [referencesTo, ← List.countP_eq_length_filter, ← hc]
  rfl

theorem length_referenceLines (name definition : List Char) :
    (referenceLines name definition).length =
      (splitAt '\n' definition).countP fun line => Mentions name line := by
  rw [referenceLines, ← List.countP_eq_length_filter]
  refine List.countP_congr fun line _ => ?_
  rw [occursIn_iff, decide_eq_true_iff]
  rfl

theorem refersTo_failingLine {renames : Renames}
    (hp : ReferenceLine.parse failing.line = .ok parsed)
    (hr : readReference parsed.reference = some (name, renames)) :
    refersTo name failing.line = true := by
  simp [refersTo, hp, hr]

theorem repeatedReference_mem_iff (hd : table.definition = some (.literal definition))
    (hf : failingLine? {} definition = some failing)
    (hp : ReferenceLine.parse failing.line = .ok parsed) :
    (∃ finding ∈ judge names settings table, finding.rule = .repeatedReference) ↔
      (referenceLines (reviewedName parsed.reference) definition).length ≠ 1 := by
  rw [← ofRule_ne_nil_iff, ofRule_repeated_judge hd hf hp, repeatedFindings]
  simp

/-- Where the first failing line is a reference line, a repeated reference is reported if the name
is not mentioned on exactly one line. If all lines that refer to the table mention the name, no
repeated reference is missed; and if no other lines do so, nothing else is reported as one. -/
theorem repeatedReference_reported (names : VisibleNames) (settings : Settings.Tables)
    (table : Table) (definition : List Char) (failing : FailingLine) (parsed : ReferenceLine)
    (hd : table.definition = some (.literal definition))
    (hf : failingLine? {} definition = some failing)
    (hp : ReferenceLine.parse failing.line = .ok parsed) :
    ((∃ finding ∈ judge names settings table, finding.rule = .repeatedReference) ↔
      (referenceLines (reviewedName parsed.reference) definition).length ≠ 1) ∧
    ∀ name renames, readReference parsed.reference = some (name, renames) →
      (∀ line ∈ splitAt '\n' definition,
        refersTo name (trim line) = true → Mentions (reviewedName parsed.reference) line) →
      (2 ≤ (referencesTo name definition).length →
        ∃ finding ∈ judge names settings table, finding.rule = .repeatedReference) ∧
      ((∀ line ∈ splitAt '\n' definition,
          Mentions (reviewedName parsed.reference) line → refersTo name (trim line) = true) →
        (∃ finding ∈ judge names settings table, finding.rule = .repeatedReference) →
          2 ≤ (referencesTo name definition).length) := by
  have hrep : (∃ finding ∈ judge names settings table, finding.rule = .repeatedReference) ↔ _ :=
    repeatedReference_mem_iff hd hf hp
  refine ⟨hrep, ?_⟩
  intro name renames hr hall
  rw [hrep, length_referencesTo, length_referenceLines]
  constructor
  · intro htwo
    have hle := List.countP_mono_left fun line hm h => decide_eq_true (hall line hm h)
    omega
  · intro honly hne
    -- The failing line itself mentions the name, so it is mentioned more than once.
    have hle := List.countP_mono_left fun line hm h => honly line hm (of_decide_eq_true h)
    obtain ⟨above, written, below, hs, hw, -⟩ := exists_written_of_failingLine? hf
    have hm : written ∈ splitAt '\n' definition := by simp [hs]
    have hmentions : Mentions (reviewedName parsed.reference) written :=
      hall written hm (hw ▸ refersTo_failingLine hp hr)
    have hpos : 0 < (splitAt '\n' definition).countP
        fun line => Mentions (reviewedName parsed.reference) line :=
      List.countP_pos_iff.mpr ⟨written, hm, decide_eq_true hmentions⟩
    omega

/-- A definition that refers to a table twice. -/
def twiceSession : List Char :=
  "-> Subject\nday : date\n---\n  -> [nullable] Subject.proj(partner='subject_id')".toList

/-- It is reported, and for this reason. -/
theorem repeatedReference_reported_twice :
    (referencesTo "Subject".toList twiceSession).length = 2 ∧
      ((∃ finding ∈ judge subjectKnown {} (sessionWith twiceSession),
          finding.rule = .repeatedReference) ↔
        2 ≤ (referencesTo "Subject".toList twiceSession).length) := by
  obtain ⟨-, h⟩ := repeatedReference_reported subjectKnown {} (sessionWith twiceSession)
    twiceSession ⟨true, "-> Subject".toList, .unresolvedReference " Subject".toList⟩
    ⟨[], " Subject".toList⟩ rfl (by decide +kernel) (by decide +kernel)
  obtain ⟨hmissed, honly⟩ := h "Subject".toList [] (by decide +kernel) (by decide +kernel)
  exact ⟨by decide +kernel, honly (by decide +kernel), hmissed⟩

/-- A reference is reported as repeated that is not, for a name directly after its arrow or for a
comment with the name; and one is not reported that is. -/
theorem repeatedReference_mistaken :
    ((referencesTo "Subject".toList "->Subject".toList).length = 1 ∧
      judge subjectKnown {} (sessionWith "->Subject".toList) =
        [⟨.repeatedReference, ["Session".toList]⟩]) ∧
    ((referencesTo "Subject".toList "id : int  # of the Subject\n-> Subject".toList).length = 1 ∧
      judge subjectKnown {} (sessionWith "id : int  # of the Subject\n-> Subject".toList) =
        [⟨.repeatedReference, ["Session".toList]⟩]) ∧
    (referencesTo "Subject".toList "-> Subject\n->Subject".toList).length = 2 ∧
      judge subjectKnown {} (sessionWith "-> Subject\n->Subject".toList) = [] := by
  decide +kernel

end TableLint.Rule
