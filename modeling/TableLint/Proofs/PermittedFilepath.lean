import TableLint.Proofs.Findings

/-!
Permitting filepath attributes. A definition is always read as if they were disabled, and the
permission only keeps silent about the rejection that follows. This comes to the same as reading the
definition with such attributes enabled, unless one of them is the first thing that is refused: then
nothing is reported, although what stands below it was never read and the key may be empty.
-/
namespace TableLint.Definition

variable {context : Context} {inKey : Bool} {d : Declaration} {line definition : List Char}
  {lines : List (List Char)}

/-- The same surroundings, with filepath attributes enabled. -/
def Context.withFilepath (context : Context) : Context := { context with filepath := true }

/-- Enabling filepath attributes makes a difference to those lines alone that declare one. -/
theorem compileAttribute_withFilepath (context : Context) (inKey : Bool) (line : List Char) :
    (compileAttribute context inKey line ≠ .error .filepathDisabled ∧
        compileAttribute context.withFilepath inKey line = compileAttribute context inKey line) ∨
      compileAttribute context inKey line = .error .filepathDisabled ∧
        ∃ a, compileAttribute context.withFilepath inKey line = .ok a ∧
          a.category = some .filepath := by
  rw [compileAttribute, compileAttribute]
  cases hp : AttributeLine.parse line with
  | error problem =>
    obtain ⟨position, expected, rfl⟩ := AttributeLine.parse_error hp
    exact .inl ⟨by rintro ⟨⟩, rfl⟩
  | ok parsed =>
    simp only [bind, Except.bind, pure, Except.pure, throw, throwThe, MonadExceptOf.throw]
    by_cases hn : (isNull parsed.default && inKey) = true
    · simp [hn]
    by_cases hc : ((Text.replaceChar '"' ['\\', '"'] parsed.comment).head? == some ':') = true
    · simp only [if_neg hn, if_pos hc]
      exact .inl ⟨by rintro ⟨⟩, trivial⟩
    simp only [if_neg hn, if_neg hc]
    cases Category.of? parsed.type with
    | none => exact .inl ⟨by rintro ⟨⟩, rfl⟩
    | some category =>
      by_cases hf : category = .filepath ∧ context.filepath = false
      · obtain ⟨rfl, he⟩ := hf
        simp only [he]
        exact .inr ⟨rfl, _, rfl, rfl⟩
      · have he : ¬(category == .filepath && !context.filepath) = true := by simpa using hf
        have hw : ¬(category == .filepath && !context.withFilepath.filepath) = true := by
          simp [Context.withFilepath]
        simp only [if_neg he, if_neg hw]
        exact .inl ⟨by split_ifs <;> rintro ⟨⟩, rfl⟩

theorem addLine_withFilepath (h : addLine context inKey d line ≠ .error .filepathDisabled) :
    addLine context.withFilepath inKey d line = addLine context inKey d line := by
  rw [addLine, addLine] at *
  cases hk : lineKind line with
  | skipped => rfl
  | separator => rfl
  | reference => rfl
  | index => rfl
  | column =>
    rcases compileAttribute_withFilepath context inKey line with ⟨-, he⟩ | ⟨he, -⟩
    · simp only [he]
    · simp only [hk, he] at h
      exact absurd rfl h

/-- As long as no filepath attribute is refused, lines are read alike. -/
theorem addLines_withFilepath (h : addLines context inKey d lines ≠ .error .filepathDisabled) :
    addLines context.withFilepath inKey d lines = addLines context inKey d lines := by
  induction lines generalizing inKey d with
  | nil => rfl
  | cons line lines ih =>
    rw [addLines] at h
    have hline : addLine context inKey d line ≠ .error .filepathDisabled := by
      intro he
      rw [he] at h
      exact h rfl
    rw [addLines, addLines, addLine_withFilepath hline]
    cases ha : addLine context inKey d line with
    | error problem => rfl
    | ok e =>
      rw [ha] at h
      exact ih h

/-- So is a definition. -/
theorem declare_withFilepath (h : declare context definition ≠ .error .filepathDisabled) :
    declare context.withFilepath definition = declare context definition := by
  rw [declare] at h
  rw [declare, declare]
  generalize takeTableComment (splitLines definition) = parts at h ⊢
  obtain ⟨tableComment, lines⟩ := parts
  simp only at h ⊢
  split
  · rfl
  · next hc =>
    rw [if_neg hc] at h
    exact addLines_withFilepath h

/-- A definition that is refused for a filepath attribute has one on its first failing line. -/
theorem exists_filepath_of_declare (h : declare context definition = .error .filepathDisabled) :
    ∃ failing a, failingLine? context definition = some failing ∧
      compileAttribute context.withFilepath failing.inKey failing.line = .ok a ∧
      a.category = some .filepath := by
  obtain ⟨failing, hf, hp⟩ := failingLine?_of_declare h (by simp)
  have hl := failingLine?_lineProblem? hf
  rw [hp] at hl
  have hk : lineKind failing.line = .column := lineKind_of_lineProblem? hl
  rw [lineProblem?, hk, problemOf?_eq_some_iff] at hl
  rcases compileAttribute_withFilepath context failing.inKey failing.line with
    ⟨he, -⟩ | ⟨-, a, ha⟩
  · exact absurd hl he
  · exact ⟨failing, a, hf, ha⟩

end TableLint.Definition

namespace TableLint.Rule

open Text Definition

variable {names : VisibleNames} {settings : Settings.Tables} {table : Table}
  {definition : List Char}

/-- The context in which filepath attributes, and nothing else, are known. -/
def filepathContext : Context := ({} : Context).withFilepath

/-- The rejection of a filepath attribute is all that is reported, and a permission keeps silent
about it. -/
theorem rejectionFindings_filepathDisabled :
    rejectionFindings names settings table definition Problem.filepathDisabled.message =
      if settings.permitFilepath then [] else [⟨.filepath, [table.name]⟩] := by
  have hr : isReferenceProblem Problem.filepathDisabled.message = false := by
    rw [Bool.eq_false_iff, ne_eq, isReferenceProblem_message_iff]
    rintro ⟨reference, hc⟩
    cases hc
  have ho : occursIn "filepath data".toList Problem.filepathDisabled.message = true := by
    decide +kernel
  rw [rejectionFindings_eq, review, hr, rejection, if_pos ho]
  rfl

/-- Nothing is reported about a definition that is refused for a permitted attribute. -/
theorem judge_of_filepathDisabled (hd : table.definition = some (.literal definition))
    (hp : settings.permitFilepath = true)
    (h : declare {} definition = .error .filepathDisabled) : judge names settings table = [] := by
  rw [judge_of_error hd h, rejectionFindings_filepathDisabled, if_pos hp]

/-- Nothing is reported about a definition that can be read and has a key, or whose problem is
settled without a finding. -/
theorem judgeIn_eq_nil_iff (context : Context)
    (hd : table.definition = some (.literal definition)) (ht : trim definition ≠ []) :
    judgeIn context names settings table = [] ↔
      (∃ d, declare context definition = .ok d ∧ d.primaryKey ≠ []) ∨
        ∃ problem, declare context definition = .error problem ∧
          rejectionFindings names settings table definition problem.message = [] := by
  rw [judgeIn_literal context hd ht]
  cases declare context definition with
  | ok d => cases hk : d.primaryKey <;> simp [hk]
  | error problem => simp

/-- With filepath attributes permitted, a definition is judged as if they were enabled, unless it is
refused for one of them. Then that attribute is on the first failing line and nothing is reported,
which is the judgement with filepath attributes enabled only if the rest of the definition can be
read and there is a key, or the next problem is settled without a finding. -/
theorem judge_permitted (names : VisibleNames) (settings : Settings.Tables) (table : Table)
    (definition : List Char) (hd : table.definition = some (.literal definition))
    (hp : settings.permitFilepath = true) :
    (declare {} definition ≠ .error .filepathDisabled →
        judge names settings table = judgeIn filepathContext names settings table) ∧
      (declare {} definition = .error .filepathDisabled →
        judge names settings table = [] ∧
          (∃ failing a, failingLine? {} definition = some failing ∧
            compileAttribute filepathContext failing.inKey failing.line = .ok a ∧
            a.category = some .filepath) ∧
          (judge names settings table = judgeIn filepathContext names settings table ↔
            (∃ d, declare filepathContext definition = .ok d ∧ d.primaryKey ≠ []) ∨
              ∃ problem, declare filepathContext definition = .error problem ∧
                rejectionFindings names settings table definition problem.message = [])) := by
  constructor
  · intro h
    have he : declare filepathContext definition = declare {} definition := declare_withFilepath h
    simp only [judge, judgeIn, hd, he]
  · intro h
    obtain ⟨failing, a, hf, ha⟩ := exists_filepath_of_declare h
    have hj : judge names settings table = [] := judge_of_filepathDisabled hd hp h
    refine ⟨hj, ⟨failing, a, hf, ha⟩, ?_⟩
    rw [hj, eq_comm]
    exact judgeIn_eq_nil_iff filepathContext hd (trim_ne_nil_of_failingLine? hf)

/-- A table whose definition has a filepath attribute. -/
def recording (text : List Char) : Table :=
  { name := "Recording".toList, kind := .manual, definition := some (.literal text), span := {} }

def permitting : Settings.Tables := { permitFilepath := true }

/-- A definition with a key above its filepath attribute and nothing wrong below. -/
def keyedText : List Char := "id : int\n---\npath : filepath@raw\nnote : int".toList

/-- It is refused, and yet nothing is missed. -/
theorem judge_permitted_keyed :
    declare {} keyedText = .error .filepathDisabled ∧
      judge {} permitting (recording keyedText) =
        judgeIn filepathContext {} permitting (recording keyedText) := by
  have hdeclare : declare {} keyedText = .error .filepathDisabled := by decide +kernel
  have h := (judge_permitted {} permitting (recording keyedText) keyedText rfl rfl).2 hdeclare
  exact ⟨hdeclare, h.2.2.mpr (.inl ⟨_, rfl, by decide +kernel⟩)⟩

/-- Without a key, and above a type that is refused, there is something that is not reported. -/
theorem filepath_hides_problems :
    judge {} permitting (recording "---\npath : filepath@raw".toList) = [] ∧
      judgeIn filepathContext {} permitting (recording "---\npath : filepath@raw".toList) =
        [⟨.noKey, ["Recording".toList]⟩] ∧
      judge {} permitting (recording "path : filepath@raw\nnote : text".toList) = [] ∧
      judgeIn filepathContext {} permitting
          (recording "path : filepath@raw\nnote : text".toList) =
        [⟨.definitionError, ["Recording".toList, "Unsupported attribute type text".toList]⟩] :=
  ⟨judge_of_filepathDisabled rfl rfl (by decide +kernel), by decide +kernel,
    judge_of_filepathDisabled rfl rfl (by decide +kernel), by decide +kernel⟩

end TableLint.Rule
