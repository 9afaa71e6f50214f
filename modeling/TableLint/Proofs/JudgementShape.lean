import TableLint.Proofs.Findings

/-!
What a judgement adds to the violations of a file. They are only ever appended to. A judgement has
at most one finding that ends it, and before a rejection only findings about the reference line; all
are at the class of the table, name the table first, and have the code, name and severity of their
rule.
-/
namespace TableLint.Rule

open Text Definition Report

variable {names : VisibleNames} {settings : Settings.Tables} {table : Table}
  {message definition : List Char}

/-! ### Emitting -/

/-- The violations that were found in a file so far. -/
structure Emitter where
  file : List Char
  violations : List Violation := []

namespace Emitter

/-- Adds a violation at a place. -/
def emit (span : Source.Span) (e : Emitter) (finding : Finding) : Emitter :=
  { e with violations := e.violations ++ [finding.violation e.file span] }

/-- Adds violations one after the other. -/
def append (e : Emitter) (violations : List Violation) : Emitter :=
  { e with violations := e.violations ++ violations }

/-- Judges a table. -/
def classify (names : VisibleNames) (settings : Settings.Tables) (e : Emitter) (table : Table) :
    Emitter :=
  (judge names settings table).foldl (emit table.span) e

/-- Looks at an import. -/
def observe (e : Emitter) (i : Source.Import) : Emitter :=
  e.append (importViolation? e.file i).toList

theorem append_append (e : Emitter) (v w : List Violation) :
    (e.append v).append w = e.append (v ++ w) := by
  simp [append]

theorem foldl_emit (e : Emitter) (span : Source.Span) (findings : List Finding) :
    findings.foldl (emit span) e = e.append (findings.map (Finding.violation e.file span)) := by
  induction findings generalizing e with
  | nil => simp [append]
  | cons finding findings ih =>
    rw [List.foldl_cons, ih]
    simp [append, emit]

/-- A judgement only appends. -/
theorem classify_eq (names : VisibleNames) (settings : Settings.Tables) (e : Emitter)
    (table : Table) :
    e.classify names settings table =
      e.append ((judge names settings table).map (Finding.violation e.file table.span)) :=
  foldl_emit e table.span _

theorem foldl_observe (e : Emitter) (imports : List Source.Import) :
    imports.foldl observe e = e.append (imports.filterMap (importViolation? e.file)) := by
  induction imports generalizing e with
  | nil => simp [append]
  | cons i imports ih =>
    rw [List.foldl_cons, ih, observe, append_append]
    cases h : importViolation? e.file i <;> simp [append, h]

theorem foldl_classify (e : Emitter) (tables : List Table) :
    tables.foldl (classify names settings) e =
      e.append (tables.flatMap fun table =>
        (judge names settings table).map (Finding.violation e.file table.span)) := by
  induction tables generalizing e with
  | nil => simp [append]
  | cons table tables ih =>
    rw [List.foldl_cons, ih, classify_eq, append_append]
    rfl

/-- The violations of a module are those that its imports and then its tables add, one after the
other. -/
theorem checkModule_emitted (settings : Settings.Tables) (file : List Char)
    (outline : Source.Outline) :
    checkModule settings file outline =
      ((tablesOf settings outline).foldl (classify (visibleIn settings outline) settings)
        (outline.imports.foldl observe { file })).violations := by
  rw [foldl_observe, foldl_classify]
  rfl

end Emitter

/-! ### The findings of a judgement -/

/-- A finding about the options of a reference. -/
def IsOptionFinding (table : Table) (finding : Finding) : Prop :=
  (∃ option, finding = ⟨.badOption, [table.name, option]⟩) ∨
    finding = ⟨.nullableKeyReference, [table.name]⟩

/-- What is found when a definition is rejected: findings about the reference line, if the message
is about a reference, and then at most the rejection itself. -/
structure Rejected (table : Table) (message : List Char) (repeated options final : List Finding) :
    Prop where
  repeated_cases : repeated = [] ∨ repeated = [⟨.repeatedReference, [table.name]⟩]
  options_findings : ∀ finding ∈ options, IsOptionFinding table finding
  final_cases : final = [] ∨ final = [⟨.filepath, [table.name]⟩] ∨
    final = [⟨.definitionError, [table.name, message]⟩]
  reference : repeated ++ options ≠ [] → "Foreign".toList <+: message

/-- The forms that a judgement can have, each with its reason. -/
inductive Judged (table : Table) : List Finding → Prop where
  | unknown (h : table.definition = some .nonLiteral) : Judged table []
  | noDefinition
      (h : table.definition = none ∨
        ∃ definition, table.definition = some (.literal definition) ∧ AllBlank definition) :
      Judged table [⟨.noDefinition, [table.name]⟩]
  | declared (definition : List Char) (declaration : Declaration)
      (hd : table.definition = some (.literal definition))
      (h : declare {} definition = .ok declaration) (hk : declaration.primaryKey ≠ []) :
      Judged table []
  | noKey (definition : List Char) (declaration : Declaration)
      (hd : table.definition = some (.literal definition))
      (h : declare {} definition = .ok declaration) (hk : declaration.primaryKey = []) :
      Judged table [⟨.noKey, [table.name]⟩]
  | rejected (definition : List Char) (problem : Problem) (repeated options final : List Finding)
      (hd : table.definition = some (.literal definition))
      (h : declare {} definition = .error problem)
      (hr : Rejected table problem.message repeated options final) :
      Judged table (repeated ++ options ++ final)

theorem exists_review_findings (names : VisibleNames) (mode : Settings.NullableMode)
    (table : Table) (message definition : List Char) :
    ∃ repeated options, (review names mode table message definition).findings =
        repeated ++ options ∧
      (repeated = [] ∨ repeated = [⟨.repeatedReference, [table.name]⟩]) ∧
      (∀ finding ∈ options, IsOptionFinding table finding) ∧
      (repeated ++ options ≠ [] → "Foreign".toList <+: message) := by
  rw [review]
  split
  · exact ⟨[], [], rfl, .inl rfl, by simp, by simp⟩
  · next reference hr =>
    have hp : "Foreign".toList <+: message := by
      rw [← List.isPrefixOf_iff_prefix]
      by_contra hn
      rw [isReferenceProblem, if_neg hn] at hr
      cases hr
    refine ⟨_, _, rfl, ?_, ?_, fun _ => hp⟩
    · split
      · exact .inr rfl
      · exact .inl rfl
    · intro finding hm
      rcases mem_optionFindings hm with ⟨option, -, he⟩ | he
      · exact .inl ⟨option, he⟩
      · exact .inr he

theorem rejected_rejectionFindings (names : VisibleNames) (settings : Settings.Tables)
    (table : Table) (definition message : List Char) :
    ∃ repeated options final,
      rejectionFindings names settings table definition message = repeated ++ options ++ final ∧
        Rejected table message repeated options final := by
  obtain ⟨repeated, options, hf, hr, ho, hp⟩ :=
    exists_review_findings names settings.nullableMode table message definition
  refine ⟨repeated, options, _, by rw [rejectionFindings_eq, hf], hr, ho, ?_, hp⟩
  split
  · exact .inl rfl
  · rw [rejection]
    split
    · split
      · exact .inl rfl
      · exact .inr (.inl rfl)
    · exact .inr (.inr rfl)

/-- Every judgement has one of the forms. -/
theorem judged_judge (names : VisibleNames) (settings : Settings.Tables) (table : Table) :
    Judged table (judge names settings table) := by
  rw [judge, judgeIn]
  cases hd : table.definition with
  | none => exact .noDefinition (.inl hd)
  | some value =>
    cases value with
    | nonLiteral => exact .unknown hd
    | literal definition =>
      simp only
      split
      · next ht =>
        have hb : AllBlank definition := allBlank_of_trim_eq_nil (List.isEmpty_iff.mp ht)
        exact .noDefinition (.inr ⟨definition, hd, hb⟩)
      · cases he : declare {} definition with
        | ok declaration =>
          simp only
          split
          · next hk => exact .noKey definition declaration hd he (List.isEmpty_iff.mp hk)
          · next hk => exact .declared definition declaration hd he (by simpa using hk)
        | error problem =>
          obtain ⟨repeated, options, final, hf, hr⟩ :=
            rejected_rejectionFindings names settings table definition problem.message
          simp only [hf]
          exact .rejected definition problem repeated options final hd he hr

/-- What each finding of a judgement has: the name of the table comes first, and a definition error
has the message of the problem besides. -/
theorem args_of_judged {findings : List Finding} {finding : Finding}
    (h : Judged table findings) (hm : finding ∈ findings) :
    finding.args.head? = some table.name ∧
      (finding.rule = .definitionError →
        ∃ definition problem, table.definition = some (.literal definition) ∧
          declare {} definition = .error problem ∧
          finding.args = [table.name, problem.message]) := by
  cases h with
  | unknown => cases hm
  | declared => cases hm
  | noDefinition | noKey =>
    obtain rfl := List.mem_singleton.mp hm
    simp
  | rejected definition problem repeated options final hd h hr =>
    rcases List.mem_append.mp hm with hfirst | hfinal
    · rcases List.mem_append.mp hfirst with hrep | hopt
      · rcases hr.repeated_cases with rfl | rfl
        · cases hrep
        · obtain rfl := List.mem_singleton.mp hrep
          simp
      · rcases hr.options_findings finding hopt with ⟨option, rfl⟩ | rfl <;> simp
    · rcases hr.final_cases with rfl | rfl | rfl
      · cases hfinal
      · obtain rfl := List.mem_singleton.mp hfinal
        simp
      · obtain rfl := List.mem_singleton.mp hfinal
        exact ⟨rfl, fun _ => ⟨definition, problem, hd, h, rfl⟩⟩

/-- A judgement appends to the violations of its file, and what it appends has one of the forms:
nothing; the one finding that there is no definition, or no key; or findings about the reference
line and then at most one rejection. Each is at the class of the table, names the table first and is
an entry of the catalog; a definition error has the message of the problem. The violations of a
module come about in this way. -/
theorem classify_appends (names : VisibleNames) (settings : Settings.Tables) (e : Emitter)
    (table : Table) :
    (∃ findings, Judged table findings ∧
      e.classify names settings table =
        e.append (findings.map (Finding.violation e.file table.span)) ∧
      ∀ v ∈ findings.map (Finding.violation e.file table.span),
        v.location = Location.ofSpan e.file table.span ∧ v.args.head? = some table.name ∧
        ∃ rule ∈ RuleId.all, v.code = rule.message.code ∧ v.rule = rule.message.name ∧
          v.severity = rule.message.severity ∧
          (rule = .definitionError →
            ∃ definition problem, table.definition = some (.literal definition) ∧
              declare {} definition = .error problem ∧
              v.args = [table.name, problem.message])) ∧
      ∀ outline, checkModule settings e.file outline =
        ((tablesOf settings outline).foldl
          (Emitter.classify (visibleIn settings outline) settings)
          (outline.imports.foldl Emitter.observe { file := e.file })).violations := by
  refine ⟨⟨judge names settings table, judged_judge names settings table,
    Emitter.classify_eq names settings e table, ?_⟩, Emitter.checkModule_emitted settings e.file⟩
  intro v hv
  obtain ⟨finding, hm, rfl⟩ := List.mem_map.mp hv
  obtain ⟨hname, herror⟩ := args_of_judged (judged_judge names settings table) hm
  exact ⟨rfl, hname, finding.rule, RuleId.mem_all _, rfl, rfl, rfl, herror⟩

end TableLint.Rule
