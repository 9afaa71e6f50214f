import TableLint.Proofs.PermittedFilepath
import TableLint.Proofs.ReviewFindings

/-!
The mark by which the problem with filepath attributes is told from others. It is looked for in the
wording of a problem, and the wording of most problems quotes the definition. So the mark is found
in the wording of another problem exactly when it stands in what that problem quotes; then the
problem is reported as one with a filepath attribute, and not at all where these are permitted.
-/
namespace TableLint.Definition

open Text

/-- What the wording of a problem quotes of the definition. -/
def Problem.quoted : Problem → List Char
  | .tableComment => []
  | .attributeLine _ line _ => line
  | .nullableKey line => line
  | .attributeComment comment => comment
  | .unsupportedType type => type
  | .filepathDisabled => []
  | .unknownAdapter adapter => adapter
  | .serializedDefault line => line
  | .arrowMissing line _ _ => line
  | .unresolvedReference reference => reference
  | .invalidOption option => option
  | .nullableDependency line => line
  | .indexLine line => line

end TableLint.Definition

namespace TableLint.Rule

open Text Definition

/-! ### Where the mark is found -/

/-- The mark of the problem with filepath attributes. -/
def filepathMark : List Char := "filepath data".toList

theorem not_mem_decimal (n : Nat) : 'f' ∉ decimal n := by
  intro h
  exact absurd (Nat.isDigit_of_mem_toDigits (by decide) (by decide) h) (by decide)

theorem filepathMark_not_isInfix {s : List Char} (h : 'f' ∉ s) : ¬filepathMark <:+: s :=
  fun hi => h (hi.subset (by decide))

theorem skips_filepathMark {x y : List Char} (h : 'f' ∉ x) : Skips filepathMark x y :=
  skips_of_not_mem h

/-- What the wording of a missing arrow says to be there instead. -/
def foundText : Option Char → List Char
  | some c => ['\'', c, '\'']
  | none => "end of text".toList

/-- The end of that wording. -/
def arrowEnding (position : Nat) (found : List Char) : List Char :=
  "\". Expected \"->\", found ".toList ++ (found ++ ("  (at char ".toList ++ (decimal position ++
    ("), (line:1, col:".toList ++ (decimal (position + 1) ++ ").".toList)))))

theorem message_arrowMissing (line : List Char) (position : Nat) (found : Option Char) :
    (Problem.arrowMissing line position found).message =
      "Parsing error in line \"".toList ++ line ++ arrowEnding position (foundText found) := by
  have h : (Problem.arrowMissing line position found).message =
      "Parsing error in line \"".toList ++ line ++ "\". Expected \"->\", found ".toList ++
        foundText found ++ "  (at char ".toList ++ decimal position ++
          "), (line:1, col:".toList ++ decimal (position + 1) ++ ").".toList := rfl
  rw [h]
  iterate 6 rw [List.append_assoc]
  rfl

/-- A character stands between quotes there, so it is not the start of the mark. -/
theorem skips_foundText (found : Option Char) (y : List Char) :
    Skips filepathMark (foundText found) y := by
  cases found with
  | some c =>
    have hquote : ∀ y, Skips filepathMark ['\''] y := fun y => skips_filepathMark (by decide)
    have hc : Skips filepathMark [c] ('\'' :: y) := by
      intro u v he hv hp
      obtain ⟨rfl, rfl⟩ : u = [] ∧ v = [c] := by
        simpa [hv] using List.append_eq_singleton_iff.mp he.symm
      have hi := (List.cons_prefix_cons.mp (List.cons_prefix_cons.mp hp).2).1
      exact absurd hi (by decide)
    exact skips_append (hquote _) (skips_append hc (hquote y))
  | none => exact skips_of_tails (by decide +kernel)

theorem filepathMark_not_in_arrowEnding (position : Nat) (found : Option Char) :
    ¬filepathMark <:+: arrowEnding position (foundText found) := by
  have ho : ∀ y, Skips filepathMark "\". Expected \"->\", found ".toList y :=
    fun y => skips_of_tails (by decide +kernel)
  refine (isInfix_append_iff_of_skips (ho _)).not.mpr ?_
  refine (isInfix_append_iff_of_skips (skips_foundText found _)).not.mpr ?_
  apply filepathMark_not_isInfix
  simp only [List.mem_append, not_mem_decimal, false_or]
  decide

/-- The mark is in the wording of another problem only if it is in what that quotes. -/
theorem filepathMark_in_message_iff {problem : Problem} (h : problem ≠ .filepathDisabled) :
    occursIn filepathMark problem.message = true ↔ filepathMark <:+: problem.quoted := by
  rw [occursIn_iff]
  -- Few of the fixed words have the first letter of the mark, so most texts in front of what is
  -- quoted are passed over for that alone.
  cases problem with
  | tableComment => exact iff_of_false (by decide) (by decide)
  | attributeLine position line expected =>
    have ho : 'f' ∉ "Declaration error in position ".toList ++ decimal position ++
        " in line:\n  ".toList := by
      simp only [List.mem_append, not_mem_decimal, or_false]
      decide
    have he : (Problem.attributeLine position line expected).message = _ ++ line ++ _ :=
      List.append_assoc _ _ _
    rw [he]
    refine isInfix_framed_iff (skips_filepathMark ho) (not_drop_isPrefix (by decide) _) ?_
    cases expected <;> decide
  | nullableKey line =>
    exact isInfix_framed_iff (skips_filepathMark (by decide)) (by decide) (by decide)
  | attributeComment comment =>
    exact isInfix_framed_iff (skips_filepathMark (by decide)) (by decide) (by decide)
  | unsupportedType type => exact isInfix_append_iff_of_skips (skips_filepathMark (by decide))
  | filepathDisabled => exact absurd rfl h
  | unknownAdapter adapter =>
    exact isInfix_framed_iff (skips_filepathMark (by decide)) (by decide) (by decide)
  | serializedDefault line => exact isInfix_append_iff_of_skips (skips_of_tails (by decide +kernel))
  | arrowMissing line position found =>
    rw [message_arrowMissing]
    exact isInfix_framed_iff (skips_filepathMark (by decide)) (not_drop_isPrefix (by decide) _)
      (filepathMark_not_in_arrowEnding position found)
  | unresolvedReference reference =>
    exact occursIn_iff.symm.trans (filepathMark_in_unresolved_iff reference)
  | invalidOption option =>
    exact isInfix_framed_iff (skips_of_tails (by decide +kernel)) (by decide) (by decide)
  | nullableDependency line =>
    exact isInfix_framed_iff (skips_filepathMark (by decide)) (by decide) (by decide)
  | indexLine line =>
    exact isInfix_framed_iff (skips_filepathMark (by decide)) (by decide) (by decide)

/-! ### What is reported -/

variable {names : VisibleNames} {settings : Settings.Tables} {mode : Settings.NullableMode}
  {table : Table} {definition : List Char} {problem : Problem}

/-- The problem is an unresolved reference to something visible. -/
def Settled (names : VisibleNames) (table : Table) (problem : Problem) : Prop :=
  ∃ reference, problem = .unresolvedReference reference ∧
    isVisible names table.kind (reviewedName reference) = true

theorem review_resolved_iff :
    (review names mode table problem.message definition).resolved = true ↔
      Settled names table problem := by
  by_cases hr : ∃ reference, problem = .unresolvedReference reference
  · obtain ⟨reference, rfl⟩ := hr
    rw [review_resolved_unresolved]
    constructor
    · exact fun hv => ⟨reference, rfl, hv⟩
    · rintro ⟨_, he, hv⟩
      cases he
      exact hv
  · have hn : reviewedReference? problem.message = none := by
      rw [reviewedReference?, if_neg ((isReferenceProblem_message_iff problem).not.mpr hr)]
    rw [review_of_none hn]
    refine iff_of_false Bool.false_ne_true ?_
    rintro ⟨reference, he, -⟩
    exact hr ⟨reference, he⟩

theorem review_not_resolved_iff :
    (review names mode table problem.message definition).resolved = false ↔
      ¬Settled names table problem := by
  rw [← review_resolved_iff, Bool.not_eq_true]

/-- The permission is read only where a problem that is not settled has the mark. -/
theorem rejectionFindings_permit_iff (settings : Settings.Tables) :
    rejectionFindings names { settings with permitFilepath := true } table definition
          problem.message =
        rejectionFindings names { settings with permitFilepath := false } table definition
          problem.message ↔
      Settled names table problem ∨ occursIn filepathMark problem.message = false := by
  rw [rejectionFindings_eq, rejectionFindings_eq, List.append_cancel_left_eq,
    ← review_resolved_iff]
  cases (review names settings.nullableMode table problem.message definition).resolved with
  | true => simp
  | false =>
    have hr : ∀ permit, rejection { settings with permitFilepath := permit } table problem.message =
        if occursIn filepathMark problem.message then
          if permit then [] else [⟨.filepath, [table.name]⟩]
        else [⟨.definitionError, [table.name, problem.message]⟩] := fun _ => rfl
    rw [hr, hr]
    cases occursIn filepathMark problem.message <;> simp

/-- A definition that is refused for a filepath attribute is reported for that alone, if filepath
attributes are not permitted. One that is refused for another problem is also reported so if what
the problem quotes has the mark; then there is no definition error, and with the permission no
report at all. -/
theorem filepath_reported (names : VisibleNames) (settings : Settings.Tables) (table : Table)
    (definition : List Char) (problem : Problem)
    (hd : table.definition = some (.literal definition))
    (he : declare {} definition = .error problem) :
    (problem = .filepathDisabled → judge names settings table =
      if settings.permitFilepath then [] else [⟨.filepath, [table.name]⟩]) ∧
    (problem ≠ .filepathDisabled →
      ((∃ finding ∈ judge names settings table, finding.rule = .filepath) ↔
        ¬Settled names table problem ∧ filepathMark <:+: problem.quoted ∧
          settings.permitFilepath = false) ∧
      ((∃ finding ∈ judge names settings table, finding.rule = .definitionError) ↔
        ¬Settled names table problem ∧ ¬filepathMark <:+: problem.quoted) ∧
      (judge names { settings with permitFilepath := true } table =
          judge names { settings with permitFilepath := false } table ↔
        Settled names table problem ∨ ¬filepathMark <:+: problem.quoted)) := by
  constructor
  · rintro rfl
    rw [judge_of_error hd he, rejectionFindings_filepathDisabled]
  · intro hne
    have hmark := filepathMark_in_message_iff hne
    have hno : occursIn filepathMark problem.message = false ↔
        ¬filepathMark <:+: problem.quoted := by rw [← hmark, Bool.not_eq_true]
    refine ⟨?_, ?_, ?_⟩
    · rw [judge_of_error hd he, rejectionFindings_rule_iff (by simp) (by simp) (by simp),
        review_not_resolved_iff, rejection_filepath_iff, ← hmark]
      rfl
    · rw [judge_of_error hd he, rejectionFindings_definitionError_iff, review_not_resolved_iff,
        ← hno]
      rfl
    · rw [judge_of_error hd he, judge_of_error hd he, rejectionFindings_permit_iff, hno]

/-- A nullable attribute in the key, with a comment. -/
def nullableDay : List Char := "day = null : date  # of the run".toList

/-- Its report does not depend on the permission. -/
theorem filepath_reported_nullable :
    declare {} nullableDay = .error (.nullableKey nullableDay) ∧
      judge {} { permitFilepath := true } (recording nullableDay) =
        judge {} { permitFilepath := false } (recording nullableDay) ∧
      ∃ finding ∈ judge {} {} (recording nullableDay), finding.rule = .definitionError := by
  have hdeclare : declare {} nullableDay = .error (.nullableKey nullableDay) := by decide +kernel
  obtain ⟨-, h⟩ := filepath_reported {} {} (recording nullableDay) nullableDay
    (.nullableKey nullableDay) rfl hdeclare
  obtain ⟨-, herror, hpermit⟩ := h (by simp)
  have hmark : ¬filepathMark <:+: nullableDay := by decide +kernel
  have hsettled : ¬Settled {} (recording nullableDay) (.nullableKey nullableDay) := by
    rintro ⟨reference, he, -⟩
    cases he
  exact ⟨hdeclare, hpermit.mpr (.inr hmark), herror.mpr ⟨hsettled, hmark⟩⟩

/-- With the mark in its comment, it is reported as a filepath attribute, and not at all where these
are permitted. -/
theorem nullableKey_taken_for_filepath :
    declare {} "day = null : date  # of filepath data".toList =
        .error (.nullableKey "day = null : date  # of filepath data".toList) ∧
      judge {} {} (recording "day = null : date  # of filepath data".toList) =
        [⟨.filepath, ["Recording".toList]⟩] ∧
      judge {} permitting (recording "day = null : date  # of filepath data".toList) = [] := by
  decide +kernel

end TableLint.Rule
