import TableLint.Proofs.ReviewFindings

/-!
The two modes of reporting a nullable reference in the key, compared. A review gives the same answer
in both, and the same findings about bad options in the same order. It reports a nullable reference
once, after them, in the one mode, and at each option that says so in the other. So the violations
of a module are the same in both modes, and equally often unless some option list repeats the
option.
-/
namespace TableLint

/-- The same settings in the given mode. -/
def Settings.Tables.inMode (settings : Settings.Tables) (mode : Settings.NullableMode) :
    Settings.Tables :=
  { settings with nullableMode := mode }

namespace Rule

open Text Definition

variable {name definition : List Char} {inKey : Bool} {options : List (List Char)}

/-! ### Options -/

theorem optionFindings_perm (h : nullableCount inKey options ≤ 1) :
    (optionFindings .perOption name inKey options).Perm
      (optionFindings .afterOptions name inKey options) := by
  have hp := optionFindings_perOption_perm name inKey options
  rw [optionFindings_afterOptions]
  rcases Nat.le_one_iff_eq_zero_or_eq_one.mp h with hc | hc
  · rwa [hc] at hp ⊢
  · rwa [hc] at hp ⊢

theorem optionFindings_nil (mode : Settings.NullableMode) (name : List Char) :
    optionFindings mode name false [] = [] := by
  cases mode <;> rfl

/-! ### Reviews -/

/-- What two reviews have in common if they look at the same options, the one in the mode that
reports after the options and the other in the mode that reports at each. -/
structure DifferInOrder (name : List Char) (inKey : Bool) (options : List (List Char))
    (after per : Review) : Prop where
  resolved : per.resolved = after.resolved
  badOption_after : ofRule .badOption after.findings = badFindings name options
  badOption_per : ofRule .badOption per.findings = badFindings name options
  /-- Reported once for each option that makes the reference in the key nullable. -/
  nullable_per : ofRule .nullableKeyReference per.findings =
    List.replicate (nullableCount inKey options) (nullableFinding name)
  /-- Reported once if there is such an option, after all other findings. -/
  nullable_after : ∃ others, ofRule .nullableKeyReference others = [] ∧
    after.findings = others ++
      if nullableCount inKey options = 0 then [] else [nullableFinding name]

/-- The reference is judged to be in the key. -/
def judgedInKey (message definition : List Char) : Bool :=
  (reviewedReference? message).any (occursInKey · definition)

/-- The options that are looked at, none if the message is about no reference. -/
def judgedOptions (message definition : List Char) : List (List Char) :=
  ((reviewedReference? message).map (reviewedOptions · definition)).getD []

theorem differInOrder_review (names : VisibleNames) (table : Table)
    (message definition : List Char) :
    DifferInOrder table.name (judgedInKey message definition) (judgedOptions message definition)
      (review names .afterOptions table message definition)
      (review names .perOption table message definition) := by
  rw [judgedInKey, judgedOptions]
  cases hr : reviewedReference? message with
  | none =>
    rw [review_of_none hr, review_of_none hr]
    exact ⟨rfl, rfl, rfl, rfl, [], rfl, rfl⟩
  | some reference =>
    have hrep : ∀ rule, rule ≠ .repeatedReference →
        ofRule rule (repeatedFindings table reference definition) = [] := fun rule hne =>
      ofRule_eq_nil_of_rule (fun _ => rule_of_mem_repeatedFindings) (Ne.symm hne)
    rw [review_of_some hr, review_of_some hr]
    refine ⟨rfl, ?_, ?_, ?_, repeatedFindings table reference definition ++
      badFindings table.name (reviewedOptions reference definition), ?_, ?_⟩
    · rw [ofRule_append, ofRule_badOption_optionFindings, hrep _ (by simp)]
      rfl
    · rw [ofRule_append, ofRule_badOption_optionFindings, hrep _ (by simp)]
      rfl
    · rw [ofRule_append, ofRule_nullable_perOption, hrep _ (by simp)]
      rfl
    · rw [ofRule_append, hrep _ (by simp),
        ofRule_eq_nil_of_rule (fun _ => rule_of_mem_badFindings) (by simp)]
      rfl
    · rw [optionFindings_afterOptions, List.append_assoc]
      rfl

/-! ### Modules -/

/-- Some option list of the definition has the option `nullable` more than once, in whatever
case. -/
def RepeatsNullable (definition : List Char) : Prop :=
  ∃ line ∈ splitAt '\n' definition,
    1 < ((ReferenceLine.optionsOf line).map upper).count "NULLABLE".toList

instance (definition : List Char) : Decidable (RepeatsNullable definition) :=
  inferInstanceAs (Decidable (∃ line ∈ splitAt '\n' definition, _))

/-- The options that are looked at are those of a line. -/
theorem nullableCount_reviewedOptions_le (h : ¬RepeatsNullable definition) (inKey : Bool)
    (reference : List Char) : nullableCount inKey (reviewedOptions reference definition) ≤ 1 := by
  cases inKey with
  | false => exact Nat.zero_le 1
  | true =>
    rw [reviewedOptions]
    cases hl : (referenceLines reference definition).head? with
    | none => exact Nat.zero_le 1
    | some line =>
      have hm : line ∈ splitAt '\n' definition :=
        List.mem_of_mem_filter (List.mem_of_head? hl)
      by_contra hc
      exact h ⟨line, hm, Nat.lt_of_not_le hc⟩

/-- Findings that depend on the mode in those about options alone; `once` ensures that at most one
of the options makes the reference nullable. -/
def VaryInOptions (name : List Char) (once : Prop)
    (findings : Settings.NullableMode → List Finding) : Prop :=
  ∃ before inKey options after, (once → nullableCount inKey options ≤ 1) ∧
    findings = fun mode => before ++ (optionFindings mode name inKey options ++ after)

variable {once : Prop} {findings : Settings.NullableMode → List Finding}

theorem varyInOptions_const (fixed : List Finding) :
    VaryInOptions name once fun _ => fixed := by
  refine ⟨fixed, false, [], [], fun _ => Nat.zero_le 1, ?_⟩
  funext mode
  rw [optionFindings_nil, List.append_nil, List.append_nil]

theorem VaryInOptions.of_imp {more : Prop} (h : VaryInOptions name once findings)
    (himp : more → once) : VaryInOptions name more findings := by
  obtain ⟨before, inKey, options, after, hc, hj⟩ := h
  exact ⟨before, inKey, options, after, fun hm => hc (himp hm), hj⟩

theorem VaryInOptions.mem_iff (h : VaryInOptions name once findings)
    (mode mode' : Settings.NullableMode) (finding : Finding) :
    finding ∈ findings mode ↔ finding ∈ findings mode' := by
  obtain ⟨before, inKey, options, after, -, rfl⟩ := h
  simp only [List.mem_append, mem_optionFindings_iff]

theorem VaryInOptions.perm (h : VaryInOptions name once findings) (ho : once) :
    (findings .perOption).Perm (findings .afterOptions) := by
  obtain ⟨before, inKey, options, after, hc, rfl⟩ := h
  exact ((optionFindings_perm (hc ho)).append_right after).append_left before

theorem rejectionFindings_varyInOptions (names : VisibleNames) (settings : Settings.Tables)
    (table : Table) (definition message : List Char) :
    VaryInOptions table.name (¬RepeatsNullable definition) fun mode =>
      rejectionFindings names (settings.inMode mode) table definition message := by
  cases hr : reviewedReference? message with
  | none =>
    simp only [rejectionFindings_eq, review_of_none hr]
    exact varyInOptions_const (rejection settings table message)
  | some reference =>
    refine ⟨repeatedFindings table reference definition, occursInKey reference definition,
      reviewedOptions reference definition,
      if isVisible names table.kind reference then [] else rejection settings table message,
      fun h => nullableCount_reviewedOptions_le h _ reference, ?_⟩
    funext mode
    rw [rejectionFindings_eq, review_of_some hr, List.append_assoc]
    rfl

/-- No option list of the table's definition repeats the option. -/
def Table.NullableOnce (table : Table) : Prop :=
  ∀ definition, table.definition = some (.literal definition) → ¬RepeatsNullable definition

theorem judge_varyInOptions (names : VisibleNames) (settings : Settings.Tables) (table : Table) :
    VaryInOptions table.name table.NullableOnce fun mode =>
      judge names (settings.inMode mode) table := by
  -- Only a rejected definition is reviewed; elsewhere the mode is not read.
  cases hd : table.definition with
  | none =>
    simp only [judge, judgeIn, hd]
    exact varyInOptions_const _
  | some value =>
    cases value with
    | nonLiteral =>
      simp only [judge, judgeIn, hd]
      exact varyInOptions_const _
    | literal definition =>
      by_cases ht : trim definition = []
      · simp only [judge, judgeIn, hd, ht, List.isEmpty_nil, if_true]
        exact varyInOptions_const _
      · cases he : declare {} definition with
        | ok declaration =>
          simp only [judge, judgeIn_literal {} hd ht, he]
          exact varyInOptions_const _
        | error problem =>
          simp only [judge_of_error hd he]
          exact (rejectionFindings_varyInOptions names settings table definition
            problem.message).of_imp fun h => h definition hd

/-- Which classes are tables and which names are visible does not depend on the mode. -/
theorem checkModule_inMode (settings : Settings.Tables) (mode : Settings.NullableMode)
    (file : List Char) (outline : Source.Outline) :
    checkModule (settings.inMode mode) file outline =
      outline.imports.filterMap (importViolation? file) ++
        (tablesOf settings outline).flatMap fun table =>
          (judge (visibleIn settings outline) (settings.inMode mode) table).map
            (Finding.violation file table.span) := rfl

/-- A review of any message and definition gives the same answer in the two modes and the same
findings about bad options; they differ in the order and number of the findings about a nullable
reference in the key. So every module has the same violations in both, and each as often in the one
as in the other if no option list of its tables repeats the option. -/
theorem nullableModes_agree (names : VisibleNames) (table : Table)
    (message definition : List Char) :
    DifferInOrder table.name (judgedInKey message definition) (judgedOptions message definition)
        (review names .afterOptions table message definition)
        (review names .perOption table message definition) ∧
      ∀ (settings : Settings.Tables) (file : List Char) (outline : Source.Outline),
        (∀ v, v ∈ checkModule (settings.inMode .perOption) file outline ↔
          v ∈ checkModule (settings.inMode .afterOptions) file outline) ∧
        ((∀ table ∈ tablesOf settings outline, table.NullableOnce) →
          (checkModule (settings.inMode .perOption) file outline).Perm
            (checkModule (settings.inMode .afterOptions) file outline)) := by
  refine ⟨differInOrder_review names table message definition, ?_⟩
  intro settings file outline
  rw [checkModule_inMode, checkModule_inMode]
  constructor
  · intro v
    have hj := fun table => (judge_varyInOptions (visibleIn settings outline) settings
      table).mem_iff .perOption .afterOptions
    simp only [List.mem_append, List.mem_flatMap, List.mem_map, hj]
  · intro h
    refine .append_left _ (List.Perm.flatMap_left _ fun table ht => ?_)
    have hj := judge_varyInOptions (visibleIn settings outline) settings table
    exact (hj.perm (h table ht)).map _

/-- A table with an option that is not valid between two that are. -/
def trialClass : Source.ClassInfo :=
  { name := "Trial".toList, bases := ["dj.Manual".toList]
    definition := some (.literal "-> [Nullable, shared, unique] Subject".toList) }

/-- It has the same violations in the two modes, in another order. -/
theorem nullableModes_agree_trial :
    (∀ table ∈ tablesOf {} { classes := [trialClass] }, table.NullableOnce) ∧
      (checkModule (({} : Settings.Tables).inMode .perOption) [] { classes := [trialClass] }).Perm
        (checkModule (({} : Settings.Tables).inMode .afterOptions) []
          { classes := [trialClass] }) ∧
      checkModule (({} : Settings.Tables).inMode .perOption) [] { classes := [trialClass] } ≠
        checkModule (({} : Settings.Tables).inMode .afterOptions) []
          { classes := [trialClass] } := by
  have honce : ∀ table ∈ tablesOf {} { classes := [trialClass] }, table.NullableOnce := by
    intro table ht definition hd
    obtain rfl : table = _ := List.mem_singleton.mp ht
    cases hd
    decide +kernel
  have htable := nullableModes_agree {}
    { name := "Trial".toList, kind := .manual, definition := none, span := {} } [] []
  exact ⟨honce, (htable.2 {} [] _).2 honce, by decide +kernel⟩

end Rule

end TableLint
