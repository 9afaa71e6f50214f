import TableLint.Proofs.KeyLines
import TableLint.Proofs.ReviewFindings
import TableLint.Proofs.Suppression

/-!
Nullable references in the key. Once its table is known, a reference line in the key is refused for
the option that makes it nullable. The review reports the same without knowing the table, but finds
the line by the name on it: it takes the options from the first line that mentions the name after a
space, and asks whether the name occurs before the first mark of a separator. For a line that is
`Located` by its name this comes to the same.
-/
namespace TableLint.Rule

open Text Definition

variable {names : VisibleNames} {settings : Settings.Tables} {table : Table}
  {definition name line message : List Char} {parsed : ReferenceLine} {known : Context}

/-! ### When the finding is made -/

/-- The options make a reference nullable, in whatever case they are written. -/
def IsNullable (options : List (List Char)) : Prop := "NULLABLE".toList ∈ options.map upper

instance (options : List (List Char)) : Decidable (IsNullable options) :=
  inferInstanceAs (Decidable (_ ∈ _))

/-- The name is found before the mark, and the first line that mentions it is nullable. -/
def FoundNullable (definition name : List Char) : Prop :=
  occursInKey name definition = true ∧
    ∃ line, (referenceLines name definition).head? = some line ∧
      IsNullable (ReferenceLine.optionsOf line)

theorem foundNullable_iff :
    FoundNullable definition name ↔
      occursInKey name definition = true ∧ "NULLABLE".toList ∈ reviewedOptions name definition := by
  rw [FoundNullable, reviewedOptions]
  cases (referenceLines name definition).head? <;> simp [IsNullable]

theorem rejectionFindings_nullable_iff (hm : settings.nullableMode = .afterOptions)
    (reference : List Char) :
    (∃ finding ∈ rejectionFindings names settings table definition
        (Problem.unresolvedReference reference).message,
        finding.rule = .nullableKeyReference) ↔
      FoundNullable definition (reviewedName reference) := by
  rw [rejectionFindings_eq, hm, review_of_some (reviewedReference?_unresolved reference),
    foundNullable_iff, ← optionFindings_nullable_iff]
  constructor
  · rintro ⟨finding, hf, hr⟩
    rcases List.mem_append.mp hf with hv | hj
    · rcases List.mem_append.mp hv with hrep | hopt
      · rw [rule_of_mem_repeatedFindings hrep] at hr
        cases hr
      · exact ⟨finding, hopt, hr⟩
    · split at hj
      · cases hj
      · rcases rule_of_mem_rejection hj with h | h <;> rw [h] at hr <;> cases hr
  · rintro ⟨finding, hf, hr⟩
    exact ⟨finding, List.mem_append_left _ (List.mem_append_right _ hf), hr⟩

/-! ### When the line is refused -/

/-- With its table known, a line is refused as nullable if it is in the key and its options are
valid, `nullable` among them. -/
theorem compileReference_nullable_iff {target : List Char × List (List Char)} {inKey : Bool}
    (hp : ReferenceLine.parse line = .ok parsed)
    (hr : resolveReference known parsed.reference = some target) :
    compileReference known inKey line = .error (.nullableDependency line) ↔
      (IsNullable parsed.options ∧ inKey = true) ∧
        ∀ option ∈ parsed.options, isValidOption (upper option) = true := by
  have hvalid : (∀ option ∈ parsed.options, isValidOption (upper option) = true) ↔
      (parsed.options.map upper).find? (!isValidOption ·) = none := by
    simp [List.find?_eq_none]
  have hnull : (IsNullable parsed.options ∧ inKey = true) ↔
      ((parsed.options.map upper).contains "NULLABLE".toList && inKey) = true := by
    rw [IsNullable, Bool.and_eq_true, List.contains_iff_mem]
  rw [hvalid, hnull, compileReference, hp]
  simp only [bind, Except.bind, hr, throw, throwThe, MonadExceptOf.throw, pure, Except.pure]
  cases (parsed.options.map upper).find? (!isValidOption ·) with
  | some option => simp
  | none =>
    simp only [and_true]
    split
    · next h => exact iff_of_true rfl h
    · next h => exact iff_of_false (by simp) h

/-! ### Lines that are found by their name -/

/-- The lines above the first line with the given text. -/
def linesAbove (definition line : List Char) : List (List Char) :=
  (splitLines definition).takeWhile (· != line)

/-- The name leads to the line, and to the side of the separator on which it stands. -/
structure Located (definition name line : List Char) : Prop where
  /-- No other line is the first to mention the name after a space. -/
  first : (referenceLines name definition).head?.map trim = some line
  /-- In the key, no mark stands in front of the line or on it. -/
  unmarked : line ∈ keyLines definition →
    ¬Marked line ∧ ∀ other ∈ linesAbove definition line, ¬Marked other
  /-- Below the separator, the name does not stand in the key. -/
  unmentioned : line ∉ keyLines definition →
    name ≠ [] ∧ ∀ other ∈ keyLines definition, ¬name <:+: other

theorem exists_append_linesAbove (h : line ∈ splitLines definition) :
    ∃ below, splitLines definition = linesAbove definition line ++ line :: below := by
  obtain ⟨above, below, hs, hn⟩ := List.eq_append_cons_of_mem h
  have ha : ∀ other ∈ above, (other != line) = true := by
    intro other ho
    rw [bne_iff_ne]
    rintro rfl
    exact hn ho
  refine ⟨below, ?_⟩
  rw [linesAbove, hs, List.takeWhile_append_of_pos ha, List.takeWhile_cons_of_neg (by simp),
    List.append_nil]

theorem newline_not_mem_of_mem_splitLines (h : line ∈ splitLines definition) : '\n' ∉ line := by
  obtain ⟨piece, hp, rfl⟩ := List.mem_map.mp h
  exact fun hm => not_mem_of_mem_splitAt hp ((trim_isInfix piece).subset hm)

/-- The name of a located line occurs before the mark if the line stands above the separator. -/
theorem occursInKey_iff_of_located (h : Located definition name line)
    (hl : line ∈ splitLines definition) (hn : name <:+: line) (ht : trim name = name) :
    occursInKey name definition = true ↔ line ∈ keyLines definition := by
  rw [occursInKey_iff]
  constructor
  · intro ho
    by_contra hk
    obtain ⟨hne, hm⟩ := h.unmentioned hk
    have hnl : '\n' ∉ name := fun hc => newline_not_mem_of_mem_splitLines hl (hn.subset hc)
    obtain ⟨other, hother, hi⟩ := exists_keyLine_of_isInfix_keyPart ht hne hnl ho
    exact hm other hother hi
  · intro hk
    obtain ⟨below, hs⟩ := exists_append_linesAbove hl
    obtain ⟨hu, ha⟩ := h.unmarked hk
    exact hn.trans (line_isInfix_of_splitLines hs hu ha)

/-- So the review finds a nullable reference in the key where one stands. -/
theorem foundNullable_iff_of_located (h : Located definition name line)
    (hl : line ∈ splitLines definition) (hn : name <:+: line) (ht : trim name = name)
    (hp : ReferenceLine.parse line = .ok parsed) :
    FoundNullable definition name ↔
      IsNullable parsed.options ∧ line ∈ keyLines definition := by
  obtain ⟨raw, hraw, hline⟩ := Option.map_eq_some_iff.mp h.first
  have ho : ReferenceLine.optionsOf raw = parsed.options :=
    ReferenceLine.optionsOf_of_parse_trim (hline ▸ hp)
  rw [FoundNullable, occursInKey_iff_of_located h hl hn ht, hraw, and_comm, ← ho]
  simp

/-- In the mode that looks at all options first, a judgement on a reference line that fails reports
a nullable reference in the key exactly when the name read from the wording occurs before the first
mark of a separator and the first line that mentions it after a space is nullable. For a line that
is located by its name, this is so exactly when the line itself has the option and stands above the
first separator line; and with valid options, exactly when the line is refused for that by every
context that knows its table. -/
theorem nullableReference_reported_iff (names : VisibleNames) (settings : Settings.Tables)
    (table : Table) (definition : List Char) (failing : FailingLine) (parsed : ReferenceLine)
    (hm : settings.nullableMode = .afterOptions)
    (hd : table.definition = some (.literal definition))
    (hf : failingLine? {} definition = some failing)
    (hp : ReferenceLine.parse failing.line = .ok parsed) :
    ((∃ finding ∈ judge names settings table, finding.rule = .nullableKeyReference) ↔
        FoundNullable definition (reviewedName parsed.reference)) ∧
      (Located definition (reviewedName parsed.reference) failing.line →
        ((∃ finding ∈ judge names settings table, finding.rule = .nullableKeyReference) ↔
          IsNullable parsed.options ∧ failing.line ∈ keyLines definition)) ∧
      ∀ known target, resolveReference known parsed.reference = some target →
        (compileReference known failing.inKey failing.line =
            .error (.nullableDependency failing.line) ↔
          (IsNullable parsed.options ∧ failing.line ∈ keyLines definition) ∧
            ∀ option ∈ parsed.options, isValidOption (upper option) = true) := by
  have hl := mem_splitLines_of_failingLine? hf
  have hn : reviewedName parsed.reference <:+: failing.line :=
    (reviewedName_isInfix _).trans (ReferenceLine.reference_isSuffix hp).isInfix
  have hiff : (∃ finding ∈ judge names settings table, finding.rule = .nullableKeyReference) ↔
      FoundNullable definition (reviewedName parsed.reference) := by
    rw [judge_of_failingLine? hd hf, problem_of_parse hf hp, rejectionFindings_nullable_iff hm]
  refine ⟨hiff, ?_, ?_⟩
  · intro hloc
    rw [hiff, foundNullable_iff_of_located hloc hl hn (trim_trim _) hp]
  · intro known target hr
    rw [compileReference_nullable_iff hp hr, mem_keyLines_iff_inKey hf hp]

/-- A definition with a nullable reference in the key. -/
def keyedSession : List Char :=
  "day : date  # of the run\n-> [NULLable, unique] Subject  \n---".toList

/-- It is reported, and refused with the table known. -/
theorem nullableReference_reported_iff_keyed :
    (∃ finding ∈ judge subjectKnown {} (sessionWith keyedSession),
        finding.rule = .nullableKeyReference) ∧
      compileReference (({} : Context).withTable "Subject".toList ["subject_id".toList]) true
          "-> [NULLable, unique] Subject".toList =
        .error (.nullableDependency "-> [NULLable, unique] Subject".toList) := by
  obtain ⟨-, hloc, hrefused⟩ := nullableReference_reported_iff subjectKnown {}
    (sessionWith keyedSession) keyedSession
    ⟨true, "-> [NULLable, unique] Subject".toList, .unresolvedReference " Subject".toList⟩
    ⟨["NULLable".toList, "unique".toList], " Subject".toList⟩ rfl rfl (by decide +kernel)
    (by decide +kernel)
  have hk : "-> [NULLable, unique] Subject".toList ∈ keyLines keyedSession := by decide +kernel
  have hn : IsNullable ["NULLable".toList, "unique".toList] := by decide +kernel
  refine ⟨(hloc ⟨by decide +kernel, fun _ => by decide +kernel, fun h => absurd hk h⟩).mpr ⟨hn, hk⟩,
    (hrefused _ ("Subject".toList, ["subject_id".toList]) (by decide +kernel)).mpr ⟨⟨hn, hk⟩, ?_⟩⟩
  decide +kernel

/-- A nullable reference below the separator is reported for a comment in the key with its name, and
one in the key is not reported below a comment with dashes. -/
theorem nullableReference_misplaced :
    failingLine? {} "id : int  #Subject\n---\n-> [nullable] Subject".toList =
        some ⟨false, "-> [nullable] Subject".toList, .unresolvedReference " Subject".toList⟩ ∧
      judge subjectKnown {} (sessionWith "id : int  #Subject\n---\n-> [nullable] Subject".toList) =
        [⟨.nullableKeyReference, ["Session".toList]⟩] ∧
      failingLine? {} "id : int  # a---b\n-> [nullable] Subject".toList =
        some ⟨true, "-> [nullable] Subject".toList, .unresolvedReference " Subject".toList⟩ ∧
      judge subjectKnown {} (sessionWith "id : int  # a---b\n-> [nullable] Subject".toList) =
        [] := by
  decide +kernel

end TableLint.Rule
