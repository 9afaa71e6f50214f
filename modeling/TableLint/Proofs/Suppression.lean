import TableLint.Proofs.Findings

/-!
Which rejections of references a judgement drops. A reference to a visible table is good, and its
rejection should be dropped; a line that is no reference to a visible table should stay rejected.
The review works on the wording of the rejection, and both sides hold only as far as the wording can
be read: `knownReference_reported_iff` says when a good reference is reported nevertheless, and
`droppedReference_valid_iff` when a dropped line was a good reference.
-/
namespace TableLint.Rule

open Text Definition

/-- A reference that some context resolves can be read, with the name that it resolves to. -/
theorem readReference_of_resolveReference {context : Context} {reference name : List Char}
    {attributes : List (List Char)}
    (h : resolveReference context reference = some (name, attributes)) :
    ∃ renames, readReference reference = some (name, renames) := by
  rw [resolveReference] at h
  split at h
  · next table renames hr =>
    obtain ⟨key, -, he⟩ := Option.map_eq_some_iff.mp h
    cases he
    exact ⟨renames, hr⟩
  · cases h

/-- A context with the table resolves exactly the references that can be read with its name. -/
theorem resolveReference_withTable_iff (context : Context) (reference name : List Char)
    (primaryKey : List (List Char)) :
    (∃ attributes, resolveReference (context.withTable name primaryKey) reference =
        some (name, attributes)) ↔
      ∃ renames, Names (withoutComment reference) name renames := by
  constructor
  · rintro ⟨attributes, h⟩
    obtain ⟨renames, hr⟩ := readReference_of_resolveReference h
    exact ⟨renames, names_of_readReference hr⟩
  · rintro ⟨renames, h⟩
    have hk : (context.withTable name primaryKey).primaryKey? name = some primaryKey := by
      simp [Context.primaryKey?, Context.withTable]
    simp only [resolveReference, readReference_of_names h, hk]
    exact ⟨_, rfl⟩

/-- A reference that no context resolves is none at all. -/
theorem resolveReference_eq_none_iff (reference : List Char) :
    (∀ context, resolveReference context reference = none) ↔
      ∀ name renames, ¬Names (withoutComment reference) name renames := by
  constructor
  · intro h name renames hn
    obtain ⟨attributes, ha⟩ :=
      (resolveReference_withTable_iff {} reference name []).mpr ⟨renames, hn⟩
    rw [h] at ha
    cases ha
  · intro h context
    cases hr : resolveReference context reference with
    | none => rfl
    | some found =>
      obtain ⟨renames, hread⟩ := readReference_of_resolveReference hr
      exact absurd (names_of_readReference hread) (h _ _)

/-- A class is visible under its own name. -/
theorem isVisible_of_hasClass {names : VisibleNames} {name : List Char}
    (h : names.hasClass name = true) (kind : TableKind) : isVisible names kind name = true := by
  simp [isVisible, h]

/-- A reference to a visible class that a context with this class resolves is reported as an error
exactly when the name read from the wording is not visible, and the text does not mention filepath
data. The name read is that of the class if the reference is legible: nothing but blanks or a
projection follows it, without a closing bracket, and it cannot be mistaken for a projection or
for the end of the sentence. After a closing bracket only the text behind the last one is read. -/
theorem knownReference_reported_iff (names : VisibleNames) (settings : Settings.Tables)
    (table : Table) (definition : List Char) (failing : FailingLine) (parsed : ReferenceLine)
    (known : Context) (name : List Char) (attributes : List (List Char))
    (hd : table.definition = some (.literal definition))
    (hf : failingLine? {} definition = some failing)
    (hp : ReferenceLine.parse failing.line = .ok parsed)
    (hr : resolveReference known parsed.reference = some (name, attributes))
    (hn : names.hasClass name = true) :
    ∃ lead rest, AllBlank lead ∧ FollowsName rest ∧ parsed.reference = lead ++ (name ++ rest) ∧
      ((∃ finding ∈ judge names settings table, finding.rule = .definitionError) ↔
        isVisible names table.kind (reviewedName parsed.reference) = false ∧
          ¬"filepath data".toList <:+: parsed.reference) ∧
      (']' ∉ rest → (reviewedName parsed.reference = name ↔ Legible lead name rest)) ∧
      (']' ∈ rest → reviewedName parsed.reference = reviewedName (afterLast ']' rest)) ∧
      (Legible lead name rest →
        ∀ finding ∈ judge names settings table, finding.rule ≠ .definitionError) := by
  obtain ⟨renames, hread⟩ := readReference_of_resolveReference hr
  obtain ⟨lead, rest, hl, hfol, he⟩ := exists_eq_append_name hread
  have htn : isTableName name = true := (names_of_readReference hread).isTableName
  have hiff : (∃ finding ∈ judge names settings table, finding.rule = .definitionError) ↔
      isVisible names table.kind (reviewedName parsed.reference) = false ∧
        ¬"filepath data".toList <:+: parsed.reference := by
    rw [judge_of_failingLine? hd hf, problem_of_parse hf hp, rejectionFindings_definitionError_iff,
      review_resolved_unresolved, ← filepathMark_in_unresolved_iff, Bool.not_eq_true]
  refine ⟨lead, rest, hl, hfol, he, hiff, ?_, ?_, ?_⟩
  · intro hb
    rw [he]
    exact reviewedName_eq_iff hl htn hfol hb
  · intro hb
    rw [he, ← List.append_assoc]
    exact reviewedName_of_bracket hb
  · intro hleg finding hm hrule
    have hv := (hiff.mp ⟨finding, hm, hrule⟩).1
    rw [he, reviewedName_of_legible hl htn hfol hleg, isVisible_of_hasClass hn] at hv
    cases hv

/-- A table with one reference line, in a file that knows the class `Subject`. -/
def sessionWith (line : List Char) : Table :=
  { name := "Session".toList, kind := .manual, definition := some (.literal line), span := {} }

def subjectKnown : VisibleNames := { classes := ["Subject".toList] }

/-- A comment after the name is read as part of it. -/
theorem knownReference_reported_iff_commented :
    ((∃ finding ∈ judge subjectKnown {} (sessionWith "-> Subject  # the animal".toList),
        finding.rule = .definitionError) ↔
      isVisible subjectKnown .manual (reviewedName " Subject  # the animal".toList) = false ∧
        ¬"filepath data".toList <:+: " Subject  # the animal".toList) := by
  obtain ⟨lead, rest, -, -, -, h, -⟩ := knownReference_reported_iff subjectKnown {}
    (sessionWith "-> Subject  # the animal".toList) "-> Subject  # the animal".toList
    ⟨true, "-> Subject  # the animal".toList, .unresolvedReference " Subject  # the animal".toList⟩
    ⟨[], " Subject  # the animal".toList⟩
    (({} : Context).withTable "Subject".toList ["subject_id".toList]) "Subject".toList
    ["subject_id".toList] rfl (by decide +kernel) (by decide +kernel) (by decide +kernel)
    (by decide)
  exact h

/-- A good reference to a visible class that is reported, for its comment. -/
theorem commentedReference_reported :
    resolveReference (({} : Context).withTable "Subject".toList ["subject_id".toList])
        " Subject  # the animal".toList = some ("Subject".toList, ["subject_id".toList]) ∧
      subjectKnown.hasClass "Subject".toList = true ∧
      judge subjectKnown {} (sessionWith "-> Subject  # the animal".toList) =
        [⟨.definitionError, ["Session".toList,
          "Foreign key reference  Subject  # the animal could not be resolved".toList]⟩] := by
  decide +kernel

/-- A rejection that is dropped belongs to a reference line. The line is a reference to the name
read from the wording exactly when, comment apart, it has that name and at most a well-formed
projection; this is so if the name is a table name and the review had nothing to cut off. The line
is no reference at all exactly when it has no table name in this way. -/
theorem droppedReference_valid_iff (names : VisibleNames) (settings : Settings.Tables)
    (table : Table) (definition name : List Char) (problem : Problem)
    (hd : table.definition = some (.literal definition))
    (he : declare {} definition = .error problem)
    (hr : (review names settings.nullableMode table problem.message definition).resolved = true)
    (hm : namedReference? problem.message = some name) :
    (∀ finding ∈ judge names settings table, finding.rule ≠ .definitionError) ∧
      ∃ failing parsed, failingLine? {} definition = some failing ∧
        ReferenceLine.parse failing.line = .ok parsed ∧ reviewedName parsed.reference = name ∧
        (∀ (context : Context) (primaryKey : List (List Char)),
          (∃ attributes, resolveReference (context.withTable name primaryKey) parsed.reference =
              some (name, attributes)) ↔
            ∃ renames, Names (withoutComment parsed.reference) name renames) ∧
        (isTableName name = true → Uncut parsed.reference →
          ∃ renames, Names (withoutComment parsed.reference) name renames) ∧
        ((∀ context, resolveReference context parsed.reference = none) ↔
          ∀ other renames, ¬Names (withoutComment parsed.reference) other renames) := by
  have hshape : isReferenceProblem problem.message = true := by
    cases hs : isReferenceProblem problem.message with
    | true => rfl
    | false => simp [review, hs] at hr
  obtain ⟨reference, rfl⟩ := (isReferenceProblem_message_iff problem).mp hshape
  obtain ⟨failing, hf, hp⟩ := failingLine?_of_declare he (by simp)
  have hline := failingLine?_lineProblem? hf
  rw [hp] at hline
  obtain ⟨parsed, hparse, rfl, -⟩ := parse_of_unresolved hline
  rw [namedReference?_unresolved] at hm
  obtain rfl : reviewedName parsed.reference = name := Option.some.inj hm
  refine ⟨?_, failing, parsed, hf, hparse, rfl, ?_, ?_, ?_⟩
  · intro finding hmem hrule
    have hjudge : ∃ finding ∈ judge names settings table, finding.rule = .definitionError :=
      ⟨finding, hmem, hrule⟩
    rw [judge_of_failingLine? hd hf, hp, rejectionFindings_definitionError_iff, hr] at hjudge
    cases hjudge.1
  · intro context primaryKey
    exact resolveReference_withTable_iff context parsed.reference _ primaryKey
  · intro hn hu
    exact ⟨[], names_of_uncut hu hn⟩
  · exact resolveReference_eq_none_iff parsed.reference

/-- A line with a malformed option list is dropped, and it is no reference. -/
theorem droppedReference_valid_iff_malformed :
    (∀ finding ∈ judge subjectKnown {} (sessionWith "-> [bad-opt] Subject".toList),
        finding.rule ≠ .definitionError) ∧
      ∃ failing parsed, failingLine? {} "-> [bad-opt] Subject".toList = some failing ∧
        ReferenceLine.parse failing.line = .ok parsed ∧
        ((∀ context, resolveReference context parsed.reference = none) ↔
          ∀ other renames, ¬Names (withoutComment parsed.reference) other renames) := by
  have hf : failingLine? {} "-> [bad-opt] Subject".toList =
      some ⟨true, "-> [bad-opt] Subject".toList,
        .unresolvedReference " [bad-opt] Subject".toList⟩ := by
    decide +kernel
  obtain ⟨hj, failing, parsed, hline, hp, -, -, -, h⟩ := droppedReference_valid_iff subjectKnown {}
    (sessionWith "-> [bad-opt] Subject".toList) "-> [bad-opt] Subject".toList "Subject".toList
    (.unresolvedReference " [bad-opt] Subject".toList) rfl (declare_of_failingLine? hf)
    (by decide +kernel) (by decide +kernel)
  exact ⟨hj, failing, parsed, hline, hp, h⟩

/-- Nothing is reported for a line that no context accepts as a reference. -/
theorem malformedOptions_dropped :
    failingLine? {} "-> [bad-opt] Subject".toList =
        some ⟨true, "-> [bad-opt] Subject".toList,
          .unresolvedReference " [bad-opt] Subject".toList⟩ ∧
      namedReference? (Problem.unresolvedReference " [bad-opt] Subject".toList).message =
        some "Subject".toList ∧
      subjectKnown.hasClass "Subject".toList = true ∧
      judge subjectKnown {} (sessionWith "-> [bad-opt] Subject".toList) = [] ∧
      ∀ context, resolveReference context " [bad-opt] Subject".toList = none := by
  refine ⟨by decide +kernel, by decide +kernel, by decide, by decide +kernel, ?_⟩
  have hr : readReference " [bad-opt] Subject".toList = none := by decide +kernel
  intro context
  rw [resolveReference, hr]

end TableLint.Rule
