import TableLint.Proofs.FailingLine
import TableLint.Proofs.ReviewedName
import TableLint.Rule.Judgement

/-!
What a judgement is made of. The findings of a review are about the reference line alone; the names
visible in the file decide only whether one more finding, the rejection itself, comes after them.
-/
namespace TableLint.Rule

open Text Definition

variable {names : VisibleNames} {mode : Settings.NullableMode} {settings : Settings.Tables}
  {table : Table} {definition message : List Char} {finding : Finding}

theorem mem_optionFindings {name : List Char} {inKey : Bool} {options : List (List Char)}
    (h : finding ∈ optionFindings mode name inKey options) :
    (∃ option ∈ options, finding = ⟨.badOption, [name, option]⟩) ∨
      finding = ⟨.nullableKeyReference, [name]⟩ := by
  cases mode with
  | afterOptions =>
    rcases List.mem_append.mp h with hb | hn
    · obtain ⟨option, hm, rfl⟩ := List.mem_map.mp hb
      exact .inl ⟨option, (List.mem_filter.mp hm).1, rfl⟩
    · split at hn
      · exact .inr (List.mem_singleton.mp hn)
      · cases hn
  | perOption =>
    obtain ⟨option, ho, hm⟩ := List.mem_flatMap.mp h
    split at hm
    · exact .inl ⟨option, ho, List.mem_singleton.mp hm⟩
    · split at hm
      · exact .inr (List.mem_singleton.mp hm)
      · cases hm

/-- A review reports a repeated reference and bad options, nothing else. -/
theorem rule_of_mem_review (h : finding ∈ (review names mode table message definition).findings) :
    finding.rule = .repeatedReference ∨ finding.rule = .badOption ∨
      finding.rule = .nullableKeyReference := by
  rw [review] at h
  split at h
  · cases h
  · rcases List.mem_append.mp h with hr | ho
    · split at hr
      · obtain rfl := List.mem_singleton.mp hr
        exact .inl rfl
      · cases hr
    · rcases mem_optionFindings ho with ⟨option, -, rfl⟩ | rfl
      · exact .inr (.inl rfl)
      · exact .inr (.inr rfl)

/-- The findings of a review do not depend on the visible names. -/
theorem review_findings_eq (names names' : VisibleNames) (mode : Settings.NullableMode)
    (table : Table) (message definition : List Char) :
    (review names mode table message definition).findings =
      (review names' mode table message definition).findings := by
  rw [review, review]
  split <;> rfl

theorem review_resolved_unresolved (reference : List Char) :
    (review names mode table (Problem.unresolvedReference reference).message definition).resolved =
      isVisible names table.kind (reviewedName reference) := by
  have hr : isReferenceProblem (Problem.unresolvedReference reference).message = true :=
    (isReferenceProblem_message_iff _).mpr ⟨reference, rfl⟩
  rw [review, hr, if_pos rfl, namedReference?_unresolved]

/-- The finding that a rejection adds to those of the review. -/
def rejection (settings : Settings.Tables) (table : Table) (message : List Char) : List Finding :=
  if occursIn "filepath data".toList message then
    if settings.permitFilepath then [] else [⟨.filepath, [table.name]⟩]
  else [⟨.definitionError, [table.name, message]⟩]

theorem rejectionFindings_eq (names : VisibleNames) (settings : Settings.Tables) (table : Table)
    (definition message : List Char) :
    rejectionFindings names settings table definition message =
      (review names settings.nullableMode table message definition).findings ++
        if (review names settings.nullableMode table message definition).resolved then []
        else rejection settings table message := rfl

theorem rejection_definitionError_iff :
    (∃ finding ∈ rejection settings table message, finding.rule = .definitionError) ↔
      occursIn "filepath data".toList message = false := by
  rw [rejection]
  cases occursIn "filepath data".toList message with
  | true => cases settings.permitFilepath <;> simp
  | false => simp

theorem rejection_filepath_iff :
    (∃ finding ∈ rejection settings table message, finding.rule = .filepath) ↔
      occursIn "filepath data".toList message = true ∧ settings.permitFilepath = false := by
  rw [rejection]
  cases occursIn "filepath data".toList message with
  | true => cases settings.permitFilepath <;> simp
  | false => simp

/-- A rule that no review is about is reported by the rejection alone. -/
theorem rejectionFindings_rule_iff {rule : RuleId} (hrep : rule ≠ .repeatedReference)
    (hbad : rule ≠ .badOption) (hnull : rule ≠ .nullableKeyReference) :
    (∃ finding ∈ rejectionFindings names settings table definition message,
        finding.rule = rule) ↔
      (review names settings.nullableMode table message definition).resolved = false ∧
        ∃ finding ∈ rejection settings table message, finding.rule = rule := by
  rw [rejectionFindings_eq]
  constructor
  · rintro ⟨finding, hm, rfl⟩
    rcases List.mem_append.mp hm with hv | hj
    · rcases rule_of_mem_review hv with h | h | h
      · exact absurd h hrep
      · exact absurd h hbad
      · exact absurd h hnull
    · split at hj
      · cases hj
      · next hres => exact ⟨by simpa using hres, finding, hj, rfl⟩
  · rintro ⟨hres, finding, hm, hr⟩
    refine ⟨finding, List.mem_append_right _ ?_, hr⟩
    rw [if_neg (by simp [hres])]
    exact hm

/-- A definition error is reported for what is neither resolved nor marked as a filepath. -/
theorem rejectionFindings_definitionError_iff :
    (∃ finding ∈ rejectionFindings names settings table definition message,
        finding.rule = .definitionError) ↔
      (review names settings.nullableMode table message definition).resolved = false ∧
        occursIn "filepath data".toList message = false := by
  rw [rejectionFindings_rule_iff (by simp) (by simp) (by simp), rejection_definitionError_iff]

/-- The judgement on a literal definition that has any text. -/
theorem judgeIn_literal (context : Context) (hd : table.definition = some (.literal definition))
    (ht : trim definition ≠ []) :
    judgeIn context names settings table =
      match declare context definition with
      | .ok declaration =>
        if declaration.primaryKey.isEmpty then [⟨.noKey, [table.name]⟩] else []
      | .error problem =>
        rejectionFindings names settings table definition problem.message := by
  have he : ¬(trim definition).isEmpty = true := by simpa using ht
  rw [judgeIn, hd]
  exact if_neg he

/-- The judgement on a definition that is refused is that on its problem. -/
theorem judge_of_error {problem : Problem} (hd : table.definition = some (.literal definition))
    (he : declare {} definition = .error problem) :
    judge names settings table =
      rejectionFindings names settings table definition problem.message := by
  rw [judge, judgeIn_literal {} hd (trim_ne_nil_of_declare he), he]

theorem judge_of_failingLine? {failing : FailingLine}
    (hd : table.definition = some (.literal definition))
    (hf : failingLine? {} definition = some failing) :
    judge names settings table =
      rejectionFindings names settings table definition failing.problem.message :=
  judge_of_error hd (declare_of_failingLine? hf)

end TableLint.Rule
