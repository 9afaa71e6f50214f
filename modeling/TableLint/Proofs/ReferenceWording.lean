import TableLint.Proofs.Lines
import TableLint.Proofs.OptionList
import TableLint.Proofs.FailingLine
import TableLint.Proofs.ReviewedName

/-!
The wording of a problem as the one thing that a review knows of it. Only the wording of an
unresolved reference is taken for a problem with a reference, and a name can be taken from it in
every case. For a reference in its usual form the name is that of the table; the one exception is a
table called `could`, which the review takes for the end of the sentence.
-/
namespace TableLint.Definition

open Text

/-- A name none of whose later segments starts with the word has no projection in it. -/
theorem not_isInfix_of_segments {name : List Char}
    (h : ∀ segment ∈ (splitAt '.' name).tail, ¬"proj".toList <+: segment) :
    ¬".proj".toList <:+: name := by
  rintro ⟨u, t, rfl⟩
  obtain ⟨front, last, first, others, hl, -, hp⟩ := exists_splitAt_append '.' "proj".toList t
  obtain ⟨rfl, rfl⟩ : front = [] ∧ last = "proj".toList := by
    have he : [] ++ ["proj".toList] = front ++ [last] := hl
    obtain ⟨hf, hs⟩ := List.append_inj' he rfl
    exact ⟨hf.symm, (List.singleton_inj.mp hs).symm⟩
  have hs : splitAt '.' (u ++ ".proj".toList ++ t) =
      splitAt '.' u ++ ("proj".toList ++ first) :: others := by
    have hu := splitAt_append_cons '.' u ("proj".toList ++ t)
    rw [hp] at hu
    rw [List.append_assoc]
    exact hu
  refine h ("proj".toList ++ first) ?_ (List.prefix_append _ first)
  rw [hs, List.tail_append_of_ne_nil (splitAt_ne_nil '.' u)]
  simp

end TableLint.Definition

namespace TableLint.Rule

open Text Definition

variable {context : Context} {definition line options blank name projection : List Char}
  {problem : Problem}

/-- The usual form of a reference line: the arrow, options, blanks, the name of a table and a
projection. There may be no options and no projection, and nothing in the name reads as a
projection. -/
structure WrittenReference (line options blank name projection : List Char) : Prop where
  line_eq : line = "->".toList ++ (options ++ (blank ++ (name ++ projection)))
  options_list : options = [] ∨ ∃ words, ReferenceLine.OptionList options words
  allBlank : AllBlank blank
  isTableName : isTableName name = true
  segments : ∀ segment ∈ (splitAt '.' name).tail, ¬"proj".toList <+: segment
  projection_form : projection = [] ∨
    ∃ arguments, projection = ".proj(".toList ++ (arguments ++ [')']) ∧ ']' ∉ arguments

/-- What follows the options of such a line is its reference. -/
theorem WrittenReference.parse (h : WrittenReference line options blank name projection) :
    ∃ words, ReferenceLine.parse line = .ok ⟨words, blank ++ (name ++ projection)⟩ := by
  rw [h.line_eq]
  rcases h.options_list with rfl | ⟨words, hw⟩
  · exact ⟨[], ReferenceLine.parse_of_noOptions
      (ReferenceLine.takeOptions?_of_name h.allBlank h.isTableName projection)⟩
  · exact ⟨words, ReferenceLine.parse_of_options
      (ReferenceLine.takeOptions?_of_optionList hw _)⟩

theorem WrittenReference.followsName (h : WrittenReference line options blank name projection) :
    FollowsName projection := by
  rcases h.projection_form with rfl | ⟨arguments, rfl, -⟩
  · left
    intro c hc
    cases hc
  · exact .inr (List.prefix_append _ _)

theorem WrittenReference.noBracket (h : WrittenReference line options blank name projection) :
    ']' ∉ projection := by
  rcases h.projection_form with rfl | ⟨arguments, rfl, ha⟩
  · simp
  · simp [ha]

/-- Only a table without projection can be taken for the end of the sentence. -/
theorem WrittenReference.readsAsClosing_iff
    (h : WrittenReference line options blank name projection) :
    ReadsAsClosing blank name projection ↔
      blank.getLast? = some ' ' ∧ name = "could".toList ∧ projection = [] := by
  rw [ReadsAsClosing]
  rcases h.projection_form with rfl | ⟨arguments, rfl, -⟩
  · have hc : ([] ++ closing).head? = some ' ' := rfl
    simp only [hc, and_true]
  · simp

theorem WrittenReference.reviewedName (h : WrittenReference line options blank name projection) :
    reviewedName (blank ++ (name ++ projection)) =
      if blank.getLast? = some ' ' ∧ name = "could".toList ∧ projection = [] then []
      else name := by
  split
  · next hr => exact reviewedName_of_closing h.allBlank h.noBracket (h.readsAsClosing_iff.mpr hr)
  · next hr =>
    have hc : ¬ReadsAsClosing blank name projection := fun hc => hr (h.readsAsClosing_iff.mp hc)
    refine reviewedName_of_legible h.allBlank h.isTableName h.followsName
      ⟨h.noBracket, ?_, not_isInfix_of_segments h.segments, hc⟩
    rcases h.projection_form with rfl | ⟨arguments, rfl, -⟩
    · simp
    · have ht : trimStart (".proj(".toList ++ (arguments ++ [')'])) =
          ".proj(".toList ++ (arguments ++ [')']) := trimStart_cons (by decide)
      rw [ht]
      simp

/-- A definition is refused with the wording of a reference exactly if its first failing line starts
with an arrow and the reference after it is not resolved. -/
theorem isReferenceProblem_iff_failingLine (he : declare context definition = .error problem) :
    isReferenceProblem problem.message = true ↔
      ∃ failing parsed, failingLine? context definition = some failing ∧
        "->".toList <+: failing.line ∧ ReferenceLine.parse failing.line = .ok parsed ∧
        resolveReference context parsed.reference = none := by
  rw [isReferenceProblem_message_iff]
  constructor
  · rintro ⟨reference, rfl⟩
    obtain ⟨failing, parsed, hf, hparse, rfl, hr⟩ := exists_failingLine_of_unresolved he
    refine ⟨failing, parsed, hf, ?_, hparse, hr⟩
    rw [← trimStart_of_mem_splitLines (mem_splitLines_of_failingLine? hf)]
    exact ReferenceLine.arrow_isPrefix_of_parse hparse
  · rintro ⟨failing, parsed, hf, -, hparse, hr⟩
    rw [declare_of_failingLine? hf, problem_of_unresolved hf hparse hr] at he
    cases he
    exact ⟨parsed.reference, rfl⟩

/-- The wording of a refused definition says whether its first failing line starts with an arrow and
has a reference that is not resolved, and a name can then be taken from it. For a reference in its
usual form this is the name of the table, unless the line has nothing but the word `could` after a
space: then no name is left. -/
theorem unresolvedReference_wording (context : Context) (definition : List Char)
    (problem : Problem) (he : declare context definition = .error problem) :
    (isReferenceProblem problem.message = true ↔
        ∃ failing parsed, failingLine? context definition = some failing ∧
          "->".toList <+: failing.line ∧ ReferenceLine.parse failing.line = .ok parsed ∧
          resolveReference context parsed.reference = none) ∧
      (isReferenceProblem problem.message = true →
        (namedReference? problem.message).isSome = true) ∧
      ∀ failing options blank name projection,
        isReferenceProblem problem.message = true →
        failingLine? context definition = some failing →
        WrittenReference failing.line options blank name projection →
        namedReference? problem.message =
          some (if blank.getLast? = some ' ' ∧ name = "could".toList ∧ projection = [] then []
            else name) := by
  refine ⟨isReferenceProblem_iff_failingLine he, ?_, ?_⟩
  · intro hp
    obtain ⟨reference, rfl⟩ := (isReferenceProblem_message_iff problem).mp hp
    rw [namedReference?_unresolved]
    rfl
  · intro failing options blank name projection hp hf hw
    obtain ⟨other, parsed, hother, -, hparse, hr⟩ := (isReferenceProblem_iff_failingLine he).mp hp
    obtain rfl : failing = other := Option.some.inj (hf.symm.trans hother)
    obtain ⟨words, hwords⟩ := hw.parse
    obtain rfl := Except.ok.inj (hwords.symm.trans hparse)
    rw [declare_of_failingLine? hf, problem_of_unresolved hf hparse hr] at he
    cases he
    rw [namedReference?_unresolved, hw.reviewedName]

/-- Options and a projection around the name of a table. -/
theorem unresolvedReference_wording_projection :
    declare {} "id : int\n-> [nullable] lab.Subject.proj(x='y')".toList =
        .error (.unresolvedReference " lab.Subject.proj(x='y')".toList) ∧
      namedReference? (Problem.unresolvedReference " lab.Subject.proj(x='y')".toList).message =
        some "lab.Subject".toList := by
  have hf : failingLine? {} "id : int\n-> [nullable] lab.Subject.proj(x='y')".toList =
      some ⟨true, "-> [nullable] lab.Subject.proj(x='y')".toList,
        .unresolvedReference " lab.Subject.proj(x='y')".toList⟩ := by
    decide +kernel
  have he := declare_of_failingLine? hf
  have hw : WrittenReference "-> [nullable] lab.Subject.proj(x='y')".toList " [nullable]".toList
      " ".toList "lab.Subject".toList ".proj(x='y')".toList := by
    refine ⟨rfl, .inr ⟨["nullable".toList], " ".toList, "nullable".toList, by decide, ?_, rfl⟩,
      by decide, by decide +kernel, by decide, .inr ⟨"x='y'".toList, rfl, by decide⟩⟩
    exact .last [] "nullable".toList [] (by decide) (by decide) (by decide)
  exact ⟨he, (unresolvedReference_wording {} _ _ he).2.2 _ _ _ _ _ (by decide +kernel) hf hw⟩

/-- No name is left of a reference to a table called `could`, although it has the usual form. -/
theorem could_not_named :
    declare {} "-> could".toList = .error (.unresolvedReference " could".toList) ∧
      WrittenReference "-> could".toList [] " ".toList "could".toList [] ∧
      isReferenceProblem (Problem.unresolvedReference " could".toList).message = true ∧
      namedReference? (Problem.unresolvedReference " could".toList).message = some [] := by
  refine ⟨by decide +kernel, ⟨rfl, .inl rfl, by decide, by decide +kernel, by decide, .inl rfl⟩,
    by decide +kernel, by decide +kernel⟩

end TableLint.Rule
