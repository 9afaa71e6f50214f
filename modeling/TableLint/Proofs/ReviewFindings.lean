import Mathlib.Data.List.Perm.Basic
import TableLint.Proofs.Findings

/-!
What a review reports, rule by rule. Both modes report the options that are not valid, in the order
in which they are written. A nullable reference in the key is reported once after them in the one
mode, and in the other at each option that makes it nullable; so the findings of the two modes are
the same up to order and repetition.
-/
namespace TableLint.Rule

open Text Definition

variable {rule : RuleId} {findings : List Finding} {mode : Settings.NullableMode}
  {name : List Char} {inKey : Bool} {options : List (List Char)}

/-! ### The findings of a rule -/

/-- The findings that a rule is broken, in order. -/
def ofRule (rule : RuleId) (findings : List Finding) : List Finding :=
  findings.filter (·.rule == rule)

@[simp] theorem ofRule_nil (rule : RuleId) : ofRule rule [] = [] := rfl

@[simp] theorem ofRule_append (rule : RuleId) (x y : List Finding) :
    ofRule rule (x ++ y) = ofRule rule x ++ ofRule rule y := List.filter_append x y

theorem ofRule_eq_nil (h : ∀ finding ∈ findings, finding.rule ≠ rule) :
    ofRule rule findings = [] := by
  rw [ofRule, List.filter_eq_nil_iff]
  intro finding hm
  simpa using h finding hm

theorem ofRule_eq_nil_of_rule {other : RuleId} (h : ∀ finding ∈ findings, finding.rule = other)
    (hne : other ≠ rule) : ofRule rule findings = [] :=
  ofRule_eq_nil fun finding hm => h finding hm ▸ hne

theorem ofRule_eq_self (h : ∀ finding ∈ findings, finding.rule = rule) :
    ofRule rule findings = findings := by
  rw [ofRule, List.filter_eq_self]
  intro finding hm
  simpa using h finding hm

theorem ofRule_ne_nil_iff :
    ofRule rule findings ≠ [] ↔ ∃ finding ∈ findings, finding.rule = rule := by
  rw [ne_eq, ofRule, List.filter_eq_nil_iff]
  simp

/-! ### Options in the two modes -/

/-- The findings about the options that are not valid. -/
def badFindings (name : List Char) (options : List (List Char)) : List Finding :=
  (options.filter (!isValidOption ·)).map fun option => ⟨.badOption, [name, option]⟩

/-- The finding that a reference in the key is nullable. -/
def nullableFinding (name : List Char) : Finding := ⟨.nullableKeyReference, [name]⟩

/-- How many of the options make a reference in the key nullable. -/
def nullableCount (inKey : Bool) (options : List (List Char)) : Nat :=
  if inKey then options.count "NULLABLE".toList else 0

theorem rule_of_mem_badFindings {finding : Finding} (h : finding ∈ badFindings name options) :
    finding.rule = .badOption := by
  obtain ⟨option, -, rfl⟩ := List.mem_map.mp h
  rfl

theorem badFindings_of_valid {option : List Char} (h : isValidOption option = true) :
    badFindings name [option] = [] := by
  simp only [badFindings, List.filter_cons, h, Bool.not_true, Bool.false_eq_true, if_false,
    List.filter_nil, List.map_nil]

theorem badFindings_of_invalid {option : List Char} (h : isValidOption option = false) :
    badFindings name [option] = [⟨.badOption, [name, option]⟩] := by
  simp only [badFindings, List.filter_cons, h, Bool.not_false, if_true, List.filter_nil,
    List.map_cons, List.map_nil]

theorem optionFindings_perOption_cons (name : List Char) (inKey : Bool) (option : List Char)
    (options : List (List Char)) :
    optionFindings .perOption name inKey (option :: options) =
      optionFindings .perOption name inKey [option] ++
        optionFindings .perOption name inKey options := by
  simp only [optionFindings, List.flatMap_cons, List.flatMap_nil, List.append_nil]

theorem nullableCount_singleton (inKey : Bool) {option : List Char}
    (h : option ≠ "NULLABLE".toList) : nullableCount inKey [option] = 0 := by
  cases inKey with
  | false => rfl
  | true => exact List.count_eq_zero.mpr fun hm => h (List.mem_singleton.mp hm).symm

/-- What the mode that looks at one option after the other reports at one of them. -/
theorem optionFindings_perOption_singleton (name : List Char) (inKey : Bool)
    (option : List Char) :
    optionFindings .perOption name inKey [option] =
      badFindings name [option] ++
        List.replicate (nullableCount inKey [option]) (nullableFinding name) := by
  by_cases hn : option = "NULLABLE".toList
  · subst hn
    cases inKey <;> rfl
  · have hb : (option == "NULLABLE".toList) = false := beq_eq_false_iff_ne.mpr hn
    rw [nullableCount_singleton inKey hn]
    simp only [optionFindings, List.flatMap_singleton, hb, Bool.and_false, Bool.false_eq_true,
      if_false]
    cases hv : isValidOption option with
    | true =>
      rw [badFindings_of_valid hv]
      rfl
    | false =>
      rw [badFindings_of_invalid hv]
      rfl

theorem badFindings_cons (name option : List Char) (options : List (List Char)) :
    badFindings name (option :: options) =
      badFindings name [option] ++ badFindings name options := by
  rw [badFindings, ← List.singleton_append, List.filter_append, List.map_append]
  rfl

theorem nullableCount_cons (inKey : Bool) (option : List Char) (options : List (List Char)) :
    nullableCount inKey (option :: options) =
      nullableCount inKey [option] + nullableCount inKey options := by
  cases inKey with
  | false => rfl
  | true =>
    rw [nullableCount, if_pos rfl, ← List.singleton_append, List.count_append]
    rfl

theorem nullableCount_ne_zero_iff :
    nullableCount inKey options ≠ 0 ↔ inKey = true ∧ "NULLABLE".toList ∈ options := by
  rw [← List.count_pos_iff, Nat.pos_iff_ne_zero]
  cases inKey with
  | false => exact iff_of_false (fun h => h rfl) fun h => Bool.false_ne_true h.1
  | true => exact ⟨fun h => ⟨rfl, h⟩, fun h => h.2⟩

/-- The findings of the mode that looks at one option after the other: those about bad options and
one for each that makes the reference nullable, in some order. -/
theorem optionFindings_perOption_perm (name : List Char) (inKey : Bool)
    (options : List (List Char)) :
    (optionFindings .perOption name inKey options).Perm
      (badFindings name options ++
        List.replicate (nullableCount inKey options) (nullableFinding name)) := by
  induction options with
  | nil => cases inKey <;> exact .refl _
  | cons option options ih =>
    rw [optionFindings_perOption_cons, optionFindings_perOption_singleton,
      badFindings_cons name option options, nullableCount_cons inKey option options,
      List.replicate_add, List.append_assoc, List.append_assoc]
    exact ((ih.append_left _).trans (List.perm_append_comm_assoc _ _ _)).append_left _

/-- The findings of the mode that looks at all options first. -/
theorem optionFindings_afterOptions (name : List Char) (inKey : Bool)
    (options : List (List Char)) :
    optionFindings .afterOptions name inKey options =
      badFindings name options ++
        if nullableCount inKey options = 0 then [] else [nullableFinding name] := by
  refine congrArg (badFindings name options ++ ·) ?_
  cases inKey with
  | false => rfl
  | true =>
    have hany : options.any (· == "NULLABLE".toList) = true ↔ nullableCount true options ≠ 0 := by
      rw [List.any_beq', List.contains_iff_mem, nullableCount_ne_zero_iff]
      exact ⟨fun h => ⟨rfl, h⟩, fun h => h.2⟩
    by_cases hc : nullableCount true options = 0
    · rw [if_pos hc, Bool.eq_false_iff.mpr fun ha => hany.mp ha hc]
      rfl
    · rw [if_neg hc, hany.mpr hc]
      rfl

/-- Up to order and repetition, the modes report the same. -/
theorem mem_optionFindings_iff {finding : Finding} (mode : Settings.NullableMode) :
    finding ∈ optionFindings mode name inKey options ↔
      finding ∈ badFindings name options ∨
        nullableCount inKey options ≠ 0 ∧ finding = nullableFinding name := by
  cases mode with
  | afterOptions =>
    rw [optionFindings_afterOptions, List.mem_append]
    by_cases hc : nullableCount inKey options = 0 <;> simp [hc]
  | perOption =>
    rw [(optionFindings_perOption_perm name inKey options).mem_iff, List.mem_append,
      List.mem_replicate]

/-- Both report a nullable reference if it is in the key and one of its options says so. -/
theorem optionFindings_nullable_iff :
    (∃ finding ∈ optionFindings mode name inKey options, finding.rule = .nullableKeyReference) ↔
      inKey = true ∧ "NULLABLE".toList ∈ options := by
  simp only [mem_optionFindings_iff, ← nullableCount_ne_zero_iff]
  constructor
  · rintro ⟨finding, hb | ⟨hc, -⟩, hr⟩
    · rw [rule_of_mem_badFindings hb] at hr
      cases hr
    · exact hc
  · intro hc
    exact ⟨nullableFinding name, .inr ⟨hc, rfl⟩, rfl⟩

theorem rule_of_mem_nullables {finding : Finding} {k : Nat}
    (h : finding ∈ List.replicate k (nullableFinding name)) :
    finding.rule = .nullableKeyReference := by
  rw [List.eq_of_mem_replicate h]
  rfl

/-- Both modes report the options that are not valid, in the order in which they are written. -/
theorem ofRule_badOption_optionFindings (mode : Settings.NullableMode) (name : List Char)
    (inKey : Bool) (options : List (List Char)) :
    ofRule .badOption (optionFindings mode name inKey options) = badFindings name options := by
  have hself : ∀ some, ofRule .badOption (badFindings name some) = badFindings name some :=
    fun _ => ofRule_eq_self fun _ => rule_of_mem_badFindings
  have hnull : ∀ k, ofRule .badOption (List.replicate k (nullableFinding name)) = [] :=
    fun _ => ofRule_eq_nil_of_rule (fun _ => rule_of_mem_nullables) (by simp)
  cases mode with
  | afterOptions =>
    rw [optionFindings_afterOptions, ofRule_append, hself]
    split
    · rw [ofRule_nil, List.append_nil]
    · rw [← List.replicate_one, hnull, List.append_nil]
  | perOption =>
    -- The order is lost in the permutation, so the options are gone through once more.
    induction options with
    | nil => rfl
    | cons option options ih =>
      rw [optionFindings_perOption_cons, optionFindings_perOption_singleton, ofRule_append,
        ofRule_append, ih, hself, hnull, List.append_nil, ← badFindings_cons]

/-- The one mode reports a nullable reference in the key as often as the options say so. -/
theorem ofRule_nullable_perOption (name : List Char) (inKey : Bool) (options : List (List Char)) :
    ofRule .nullableKeyReference (optionFindings .perOption name inKey options) =
      List.replicate (nullableCount inKey options) (nullableFinding name) := by
  have hp := (optionFindings_perOption_perm name inKey options).filter
    (·.rule == .nullableKeyReference)
  have hr : ofRule .nullableKeyReference (badFindings name options ++
      List.replicate (nullableCount inKey options) (nullableFinding name)) =
        List.replicate (nullableCount inKey options) (nullableFinding name) := by
    rw [ofRule_append, ofRule_eq_nil_of_rule (fun _ => rule_of_mem_badFindings) (by simp),
      List.nil_append, ofRule_eq_self fun _ => rule_of_mem_nullables]
  rw [ofRule] at hr
  rw [hr] at hp
  exact List.perm_replicate.mp hp

/-! ### The findings of a review -/

/-- The reference that a review looks for in the definition. -/
def reviewedReference? (message : List Char) : Option (List Char) :=
  if isReferenceProblem message then namedReference? message else none

/-- The options that a review looks at: those of the first line with the reference, in upper
case. -/
def reviewedOptions (reference definition : List Char) : List (List Char) :=
  ((referenceLines reference definition).head?.map fun line =>
    (ReferenceLine.optionsOf line).map upper).getD []

/-- The finding that a reference does not stand on exactly one line. -/
def repeatedFindings (table : Table) (reference definition : List Char) : List Finding :=
  if (referenceLines reference definition).length != 1 then [⟨.repeatedReference, [table.name]⟩]
  else []

variable {names : VisibleNames} {settings : Settings.Tables} {table : Table}
  {message definition reference : List Char} {failing : FailingLine} {parsed : ReferenceLine}

theorem review_of_none (h : reviewedReference? message = none) :
    review names mode table message definition = {} := by
  rw [reviewedReference?] at h
  rw [review, h]

theorem review_of_some (h : reviewedReference? message = some reference) :
    review names mode table message definition =
      { findings := repeatedFindings table reference definition ++
          optionFindings mode table.name (occursInKey reference definition)
            (reviewedOptions reference definition)
        resolved := isVisible names table.kind reference } := by
  rw [reviewedReference?] at h
  rw [review, h]
  rfl

theorem reviewedReference?_unresolved (reference : List Char) :
    reviewedReference? (Problem.unresolvedReference reference).message =
      some (reviewedName reference) := by
  have hr : isReferenceProblem (Problem.unresolvedReference reference).message = true :=
    (isReferenceProblem_message_iff _).mpr ⟨reference, rfl⟩
  rw [reviewedReference?, hr, if_pos rfl, namedReference?_unresolved]

theorem rule_of_mem_rejection {finding : Finding} (h : finding ∈ rejection settings table message) :
    finding.rule = .definitionError ∨ finding.rule = .filepath := by
  rw [rejection] at h
  split at h
  · split at h
    · cases h
    · rw [List.mem_singleton.mp h]
      exact .inr rfl
  · rw [List.mem_singleton.mp h]
    exact .inl rfl

theorem rule_of_mem_repeatedFindings {finding : Finding}
    (h : finding ∈ repeatedFindings table reference definition) :
    finding.rule = .repeatedReference := by
  rw [repeatedFindings] at h
  split at h
  · rw [List.mem_singleton.mp h]
  · cases h

/-- The judgement on a definition whose first failing line is a reference line: what the review
finds about the name that it takes from the wording, and then at most the rejection. -/
theorem exists_judge_of_parse (names : VisibleNames) (settings : Settings.Tables)
    (hd : table.definition = some (.literal definition))
    (hf : failingLine? {} definition = some failing)
    (hp : ReferenceLine.parse failing.line = .ok parsed) :
    ∃ final, (∀ rule, rule ≠ .definitionError → rule ≠ .filepath → ofRule rule final = []) ∧
      judge names settings table =
        repeatedFindings table (reviewedName parsed.reference) definition ++
          (optionFindings settings.nullableMode table.name
              (occursInKey (reviewedName parsed.reference) definition)
              (reviewedOptions (reviewedName parsed.reference) definition) ++ final) := by
  rw [judge_of_failingLine? hd hf, problem_of_parse hf hp, rejectionFindings_eq,
    review_of_some (reviewedReference?_unresolved _)]
  refine ⟨_, ?_, List.append_assoc _ _ _⟩
  intro rule he hfp
  split
  · rfl
  · apply ofRule_eq_nil
    intro finding hmem
    rcases rule_of_mem_rejection hmem with h | h
    · exact h ▸ Ne.symm he
    · exact h ▸ Ne.symm hfp

theorem ofRule_badOption_judge (hd : table.definition = some (.literal definition))
    (hf : failingLine? {} definition = some failing)
    (hp : ReferenceLine.parse failing.line = .ok parsed) :
    ofRule .badOption (judge names settings table) =
      badFindings table.name (reviewedOptions (reviewedName parsed.reference) definition) := by
  obtain ⟨final, hfinal, hj⟩ := exists_judge_of_parse names settings hd hf hp
  rw [hj, ofRule_append, ofRule_append, ofRule_badOption_optionFindings,
    hfinal .badOption (by simp) (by simp), List.append_nil,
    ofRule_eq_nil_of_rule (fun _ => rule_of_mem_repeatedFindings) (by simp), List.nil_append]

theorem ofRule_repeated_judge (hd : table.definition = some (.literal definition))
    (hf : failingLine? {} definition = some failing)
    (hp : ReferenceLine.parse failing.line = .ok parsed) :
    ofRule .repeatedReference (judge names settings table) =
      repeatedFindings table (reviewedName parsed.reference) definition := by
  obtain ⟨final, hfinal, hj⟩ := exists_judge_of_parse names settings hd hf hp
  have hoptions : ∀ inKey options, ofRule .repeatedReference
      (optionFindings settings.nullableMode table.name inKey options) = [] := by
    intro inKey options
    apply ofRule_eq_nil
    intro finding hm
    rcases mem_optionFindings hm with ⟨option, -, rfl⟩ | rfl <;> simp
  rw [hj, ofRule_append, ofRule_append, hoptions, hfinal .repeatedReference (by simp) (by simp),
    ofRule_eq_self fun _ => rule_of_mem_repeatedFindings, List.append_nil, List.append_nil]

end TableLint.Rule
