import TableLint.Proofs.Findings

/-!
How a judgement depends on the visible names. Only their sets matter, and more names can do no more
than settle a rejected reference: the judgement then loses its last finding and keeps the others.
-/
namespace TableLint.Rule

open Text Definition

/-- Every name of the one is a name of the other. -/
structure VisibleNames.Within (v w : VisibleNames) : Prop where
  classes : v.classes ⊆ w.classes
  modules : v.modules ⊆ w.modules

variable {names more : VisibleNames} {settings : Settings.Tables} {table : Table}

theorem hasClass_of_within (h : names.Within more) {name : List Char}
    (hc : names.hasClass name = true) : more.hasClass name = true := by
  rw [VisibleNames.hasClass, List.contains_iff_mem] at hc ⊢
  exact h.classes hc

theorem hasModule_of_within (h : names.Within more) {name : List Char}
    (hm : names.hasModule name = true) : more.hasModule name = true := by
  rw [VisibleNames.hasModule, List.contains_iff_mem] at hm ⊢
  exact h.modules hm

theorem isVisible_of_within (h : names.Within more) {kind : TableKind} {reference : List Char}
    (hv : isVisible names kind reference = true) : isVisible more kind reference = true := by
  simp only [isVisible, Bool.or_eq_true] at hv ⊢
  rcases hv with (hmaster | hc) | hm
  · exact .inl (.inl hmaster)
  · exact .inl (.inr (hasClass_of_within h hc))
  · exact .inr (hasModule_of_within h hm)

theorem review_resolved_of_within (h : names.Within more) {mode : Settings.NullableMode}
    {message definition : List Char}
    (hr : (review names mode table message definition).resolved = true) :
    (review more mode table message definition).resolved = true := by
  rw [review] at hr ⊢
  split at hr
  · cases hr
  · exact isVisible_of_within h hr

/-- The findings after more names are known: the same, or all but the last, which was that the
definition is rejected or uses filepath data. -/
def LosesRejection (before after : List Finding) : Prop :=
  after = before ∨ ∃ finding, before = after ++ [finding] ∧
    (finding.rule = .definitionError ∨ finding.rule = .filepath)

/-- A rejection is at most one finding. -/
theorem rejection_eq (settings : Settings.Tables) (table : Table) (message : List Char) :
    rejection settings table message = [] ∨
      ∃ finding, rejection settings table message = [finding] ∧
        (finding.rule = .definitionError ∨ finding.rule = .filepath) := by
  rw [rejection]
  split
  · split
    · exact .inl rfl
    · exact .inr ⟨_, rfl, .inr rfl⟩
  · exact .inr ⟨_, rfl, .inl rfl⟩

theorem rejectionFindings_of_within (h : names.Within more) (definition message : List Char) :
    LosesRejection (rejectionFindings names settings table definition message)
      (rejectionFindings more settings table definition message) := by
  rw [rejectionFindings_eq, rejectionFindings_eq, review_findings_eq more names]
  cases hm : (review more settings.nullableMode table message definition).resolved with
  | false =>
    have hn : (review names settings.nullableMode table message definition).resolved = false :=
      Bool.eq_false_iff.mpr fun ht => by simp [review_resolved_of_within h ht] at hm
    rw [hn]
    exact .inl rfl
  | true =>
    cases (review names settings.nullableMode table message definition).resolved with
    | true => exact .inl rfl
    | false =>
      rw [if_pos rfl, if_neg Bool.false_ne_true, List.append_nil]
      rcases rejection_eq settings table message with hr | ⟨finding, hr, hrule⟩
      · rw [hr, List.append_nil]
        exact .inl rfl
      · rw [hr]
        exact .inr ⟨finding, rfl, hrule⟩

/-- More names only settle what was rejected. -/
theorem judge_of_within (h : names.Within more) (settings : Settings.Tables) (table : Table) :
    LosesRejection (judge names settings table) (judge more settings table) := by
  rw [judge, judge, judgeIn, judgeIn]
  -- The names are read in the last case alone.
  split
  · exact .inl rfl
  · exact .inl rfl
  · split
    · exact .inl rfl
    · split
      · exact .inl rfl
      · exact rejectionFindings_of_within h _ _

/-- The same names in another order, or repeated, make the same judgement. -/
theorem judge_of_within_of_within (h : names.Within more) (h' : more.Within names)
    (settings : Settings.Tables) (table : Table) :
    judge more settings table = judge names settings table := by
  rcases judge_of_within h settings table with he | ⟨finding, hl, -⟩
  · exact he
  · -- Losing a finding in both directions is impossible.
    rcases judge_of_within h' settings table with he | ⟨finding', hl', -⟩
    · exact he.symm
    · have hlen := congrArg List.length (hl.trans (congrArg (· ++ [finding]) hl'))
      simp at hlen

end TableLint.Rule
