import Mathlib.Tactic.SplitIfs
import TableLint.Definition.Declaration
import TableLint.Proofs.Cutting

/-!
The line that ends the reading of a definition. Whether a line can be read does not depend on what
was declared before it, only on the context and on which side of the separator it stands. Reading
fails exactly when some line has a problem, and then with the problem of the first such line.
-/
namespace TableLint.Definition

open Text

/-- The problem for which something was refused. -/
def problemOf? {α : Type} : Except Problem α → Option Problem
  | .ok _ => none
  | .error problem => some problem

/-- What is wrong with a line. -/
def lineProblem? (context : Context) (inKey : Bool) (line : List Char) : Option Problem :=
  match lineKind line with
  | .skipped | .separator => none
  | .reference => problemOf? (compileReference context inKey line)
  | .index => problemOf? (Index.parse line)
  | .column => problemOf? (compileAttribute context inKey line)

/-- A line that cannot be read, the part of the definition it stands in, and why. -/
structure FailingLine where
  inKey : Bool
  line : List Char
  problem : Problem
deriving DecidableEq, Repr

/-- The first of the lines that cannot be read. -/
def failingAmong? (context : Context) : Bool → List (List Char) → Option FailingLine
  | _, [] => none
  | inKey, line :: lines =>
    match lineProblem? context inKey line with
    | some problem => some ⟨inKey, line, problem⟩
    | none => failingAmong? context (inKey && lineKind line != .separator) lines

/-- The first line of a definition that cannot be read. A refused table comment comes before all
lines. -/
def failingLine? (context : Context) (definition : List Char) : Option FailingLine :=
  let (tableComment, lines) := takeTableComment (splitLines definition)
  if tableComment.head? == some ':' then none else failingAmong? context true lines

variable {context : Context} {inKey : Bool} {d : Declaration} {line definition : List Char}
  {lines : List (List Char)} {problem : Problem} {failing : FailingLine}

theorem problemOf?_addLine (context : Context) (inKey : Bool) (d : Declaration)
    (line : List Char) :
    problemOf? (addLine context inKey d line) = lineProblem? context inKey line := by
  rw [addLine, lineProblem?]
  cases lineKind line with
  | skipped => rfl
  | separator => rfl
  | reference => cases compileReference context inKey line <;> rfl
  | index => cases Index.parse line <;> rfl
  | column => cases compileAttribute context inKey line <;> rfl

/-- Reading lines fails with the problem of the first failing line. -/
theorem problemOf?_addLines (context : Context) (inKey : Bool) (d : Declaration)
    (lines : List (List Char)) :
    problemOf? (addLines context inKey d lines) =
      (failingAmong? context inKey lines).map FailingLine.problem := by
  induction lines generalizing inKey d with
  | nil => rfl
  | cons line lines ih =>
    have hl := problemOf?_addLine context inKey d line
    rw [addLines, failingAmong?]
    cases ha : addLine context inKey d line with
    | error problem =>
      rw [ha] at hl
      rw [← hl]
      rfl
    | ok e =>
      rw [ha] at hl
      rw [← hl]
      exact ih _ e

theorem failingAmong?_lineProblem? (h : failingAmong? context inKey lines = some failing) :
    lineProblem? context failing.inKey failing.line = some failing.problem := by
  induction lines generalizing inKey with
  | nil => cases h
  | cons line lines ih =>
    rw [failingAmong?] at h
    split at h
    · next problem hp =>
      cases h
      exact hp
    · exact ih h

theorem failingLine?_lineProblem? (h : failingLine? context definition = some failing) :
    lineProblem? context failing.inKey failing.line = some failing.problem := by
  rw [failingLine?] at h
  split at h
  split at h
  · cases h
  · exact failingAmong?_lineProblem? h

/-- The lines above a failing line can be read, and separators among them end the key. -/
theorem exists_append_of_failingAmong? (h : failingAmong? context inKey lines = some failing) :
    ∃ above below, lines = above ++ failing.line :: below ∧
      failing.inKey = (inKey && above.all (lineKind · != .separator)) ∧
      ∀ other ∈ above, ∃ k, lineProblem? context k other = none := by
  induction lines generalizing inKey with
  | nil => cases h
  | cons line lines ih =>
    rw [failingAmong?] at h
    split at h
    · cases h
      exact ⟨[], lines, rfl, by simp, by simp⟩
    · next hl =>
      obtain ⟨above, below, rfl, hk, hr⟩ := ih h
      refine ⟨line :: above, below, rfl, ?_, ?_⟩
      · rw [hk, List.all_cons, Bool.and_assoc]
      · intro other ho
        rcases List.mem_cons.mp ho with rfl | hm
        · exact ⟨inKey, hl⟩
        · exact hr other hm

/-- Only a comment is taken away. -/
theorem exists_eq_append_takeTableComment (lines : List (List Char)) :
    ∃ skipped, lines = skipped ++ (takeTableComment lines).2 ∧
      ∀ line ∈ skipped, lineKind line = .skipped := by
  unfold takeTableComment
  split
  · next comment lines => exact ⟨[_], rfl, by simp [lineKind]⟩
  · exact ⟨[], rfl, by simp⟩

theorem exists_append_of_failingLine? (h : failingLine? context definition = some failing) :
    ∃ above below, splitLines definition = above ++ failing.line :: below ∧
      failing.inKey = above.all (lineKind · != .separator) ∧
      ∀ other ∈ above, ∃ k, lineProblem? context k other = none := by
  obtain ⟨skipped, hs, hk⟩ := exists_eq_append_takeTableComment (splitLines definition)
  rw [failingLine?] at h
  generalize takeTableComment (splitLines definition) = parts at h hs
  obtain ⟨comment, lines⟩ := parts
  simp only at h hs
  split at h
  · cases h
  · obtain ⟨above, below, rfl, hi, hr⟩ := exists_append_of_failingAmong? h
    refine ⟨skipped ++ above, below, by rw [hs, List.append_assoc], ?_, ?_⟩
    · have ha : skipped.all (lineKind · != .separator) = true := by
        rw [List.all_eq_true]
        intro line hl
        simp [hk line hl]
      rw [hi, List.all_append, ha]
    · intro other ho
      rcases List.mem_append.mp ho with hm | hm
      · exact ⟨true, by simp [lineProblem?, hk other hm]⟩
      · exact hr other hm

/-- The failing line is one of the lines. -/
theorem mem_splitLines_of_failingLine? (h : failingLine? context definition = some failing) :
    failing.line ∈ splitLines definition := by
  obtain ⟨above, below, hs, -⟩ := exists_append_of_failingLine? h
  simp [hs]

theorem problemOf?_eq_some_iff {α : Type} {outcome : Except Problem α} :
    problemOf? outcome = some problem ↔ outcome = .error problem := by
  cases outcome <;> simp [problemOf?]

/-- A definition is refused for its table comment or for its first failing line. -/
theorem problemOf?_declare (context : Context) (definition : List Char) :
    problemOf? (declare context definition) =
      if (takeTableComment (splitLines definition)).1.head? == some ':' then some .tableComment
      else (failingLine? context definition).map FailingLine.problem := by
  rw [declare, failingLine?]
  obtain ⟨tableComment, lines⟩ := takeTableComment (splitLines definition)
  simp only
  split
  · rfl
  · exact problemOf?_addLines context true _ _

theorem declare_of_failingLine? (h : failingLine? context definition = some failing) :
    declare context definition = .error failing.problem := by
  have hc : ¬((takeTableComment (splitLines definition)).1.head? == some ':') = true := by
    intro hc
    simp [failingLine?, hc] at h
  rw [← problemOf?_eq_some_iff, problemOf?_declare, if_neg hc, h]
  rfl

theorem failingLine?_of_declare (h : declare context definition = .error problem)
    (hp : problem ≠ .tableComment) :
    ∃ failing, failingLine? context definition = some failing ∧ failing.problem = problem := by
  rw [← problemOf?_eq_some_iff, problemOf?_declare] at h
  split at h
  · cases h
    exact absurd rfl hp
  · exact Option.map_eq_some_iff.mp h

/-- A definition without text can be read. -/
theorem not_allBlank_of_declare (h : declare context definition = .error problem) :
    ¬AllBlank definition := by
  intro hb
  have hs : splitLines definition = [[]] := by
    rw [splitLines, trim_eq_nil hb]
    rfl
  rw [declare, hs] at h
  cases h

theorem trim_ne_nil_of_declare (h : declare context definition = .error problem) :
    trim definition ≠ [] := fun ht => not_allBlank_of_declare h (allBlank_of_trim_eq_nil ht)

theorem trim_ne_nil_of_failingLine? (h : failingLine? context definition = some failing) :
    trim definition ≠ [] := trim_ne_nil_of_declare (declare_of_failingLine? h)

/-- The kind of the lines at which a problem arises. The table comment is a skipped line. -/
def Problem.lineKind : Problem → LineKind
  | .tableComment => .skipped
  | .attributeLine _ _ _ => .column
  | .nullableKey _ => .column
  | .attributeComment _ => .column
  | .unsupportedType _ => .column
  | .filepathDisabled => .column
  | .unknownAdapter _ => .column
  | .serializedDefault _ => .column
  | .arrowMissing _ _ _ => .reference
  | .unresolvedReference _ => .reference
  | .invalidOption _ => .reference
  | .nullableDependency _ => .reference
  | .indexLine _ => .index

theorem Index.parse_error (h : Index.parse line = .error problem) : problem = .indexLine line := by
  rw [Index.parse] at h
  split at h
  · split at h <;> cases h
    rfl
  · cases h
    rfl

namespace AttributeLine

variable {fail : List Char → Expected → Problem} {s : List Char}

theorem takeDefault_error (h : takeDefault fail s = .error problem) :
    ∃ rest expected, problem = fail rest expected := by
  unfold takeDefault at h
  split at h
  · split at h
    · cases h
    · cases h
      exact ⟨_, _, rfl⟩
  · cases h

theorem typeAndComment_error (h : typeAndComment fail s = .error problem) :
    ∃ rest expected, problem = fail rest expected := by
  unfold typeAndComment at h
  split at h
  · split at h
    · cases h
      exact ⟨_, _, rfl⟩
    · split at h <;> cases h
      exact ⟨_, _, rfl⟩
  · split at h
    · split at h <;> cases h
      exact ⟨_, _, rfl⟩
    · cases h
      exact ⟨_, _, rfl⟩
  · cases h
    exact ⟨_, _, rfl⟩

/-- An attribute line that breaks off is shown with its closing hash. -/
theorem parse_error (h : parse line = .error problem) :
    ∃ position expected, problem = .attributeLine position (line ++ ['#']) expected := by
  rw [parse] at h
  split at h
  · cases h
    exact ⟨_, _, rfl⟩
  · split at h
    · next hd =>
      cases h
      obtain ⟨rest, expected, rfl⟩ := takeDefault_error hd
      exact ⟨_, _, rfl⟩
    · split at h
      · split at h
        · next ht =>
          cases h
          obtain ⟨rest, expected, rfl⟩ := typeAndComment_error ht
          exact ⟨_, _, rfl⟩
        · cases h
      · cases h
        exact ⟨_, _, rfl⟩

end AttributeLine

theorem compileAttribute_error (h : compileAttribute context inKey line = .error problem) :
    problem.lineKind = .column := by
  rw [compileAttribute] at h
  cases hp : AttributeLine.parse line with
  | error q =>
    rw [hp] at h
    cases h
    obtain ⟨position, expected, rfl⟩ := AttributeLine.parse_error hp
    rfl
  | ok parsed =>
    rw [hp] at h
    simp only [bind, Except.bind, pure, Except.pure, throw, throwThe, MonadExceptOf.throw] at h
    split_ifs at h
    · cases h
      rfl
    · cases h
      rfl
    · split at h
      · cases h
        rfl
      · split_ifs at h <;> cases h <;> rfl

/-- Why a reference line is refused: it cannot be split, its table is unknown, or its options do not
fit. -/
theorem compileReference_error (h : compileReference context inKey line = .error problem) :
    ReferenceLine.parse line = .error problem ∨
      ∃ parsed, ReferenceLine.parse line = .ok parsed ∧
        ((resolveReference context parsed.reference = none ∧
            problem = .unresolvedReference parsed.reference) ∨
          (∃ option, problem = .invalidOption option) ∨ problem = .nullableDependency line) := by
  rw [compileReference] at h
  cases hp : ReferenceLine.parse line with
  | error q =>
    rw [hp] at h
    cases h
    exact .inl rfl
  | ok parsed =>
    rw [hp] at h
    simp only [bind, Except.bind, pure, Except.pure, throw, throwThe, MonadExceptOf.throw] at h
    refine .inr ⟨parsed, rfl, ?_⟩
    split at h
    · next hr =>
      cases h
      exact .inl ⟨hr, rfl⟩
    · split at h
      · next option ho =>
        cases h
        exact .inr (.inl ⟨option, rfl⟩)
      · split_ifs at h
        cases h
        exact .inr (.inr rfl)

theorem ReferenceLine.parse_error (h : ReferenceLine.parse line = .error problem) :
    ∃ position found, problem = .arrowMissing line position found := by
  rw [ReferenceLine.parse] at h
  split at h
  · split at h <;> cases h
  · cases h
    exact ⟨_, _, rfl⟩

/-- Every problem arises at lines of its own kind. -/
theorem lineKind_of_lineProblem? (h : lineProblem? context inKey line = some problem) :
    lineKind line = problem.lineKind := by
  rw [lineProblem?] at h
  split at h
  · cases h
  · cases h
  · next hk =>
    rw [hk]
    rcases compileReference_error (problemOf?_eq_some_iff.mp h) with
      hp | ⟨parsed, -, ⟨-, rfl⟩ | ⟨option, rfl⟩ | rfl⟩
    · obtain ⟨position, found, rfl⟩ := ReferenceLine.parse_error hp
      rfl
    · rfl
    · rfl
    · rfl
  · next hk =>
    rw [hk, Index.parse_error (problemOf?_eq_some_iff.mp h)]
    rfl
  · next hk =>
    rw [hk, compileAttribute_error (problemOf?_eq_some_iff.mp h)]

/-- In front of the arrow of such a line there are only blanks, no quotes and no hash. -/
theorem ReferenceLine.isReference_of_arrow {blank : List Char} (h : AllBlank blank)
    (after : List Char) : ReferenceLine.isReference (blank ++ ("->".toList ++ after)) = true := by
  have hs : Skips "->".toList blank ("->".toList ++ after) :=
    skips_of_not_mem (h.not_mem (by decide))
  have hc : cut? "->".toList (blank ++ ("->".toList ++ after)) = some (blank, after) := by
    rw [cut?_append hs, cut?_append_self]
    simp
  have hq : ∀ c ∈ blank, ¬((c == '"' || c == '#' || c == '\'') = true) := by
    intro c hm hq
    simp only [Bool.or_eq_true, beq_iff_eq] at hq
    rcases hq with (rfl | rfl) | rfl <;> exact absurd hm (h.not_mem (by decide))
  rw [ReferenceLine.isReference, hc]
  simpa using hq

/-- A line with an arrow at its start is a reference line. -/
theorem lineKind_of_parse {parsed : ReferenceLine} (h : ReferenceLine.parse line = .ok parsed) :
    lineKind line = .reference := by
  rw [ReferenceLine.parse] at h
  split at h
  · next after ht =>
    obtain ⟨x, hx, he⟩ := exists_eq_append_trimStart line
    rw [ht] at he
    have hr : ReferenceLine.isReference line = true := by
      rw [he]
      exact ReferenceLine.isReference_of_arrow hx after
    cases x with
    | nil =>
      rw [lineKind, hr, he]
      rfl
    | cons c x =>
      have hne : c ≠ '#' ∧ c ≠ '-' ∧ c ≠ '_' := by
        refine ⟨?_, ?_, ?_⟩ <;> rintro rfl <;>
          exact hx.not_mem (by decide) List.mem_cons_self
      rw [lineKind, hr, he]
      simp [List.isPrefixOf, hne.1, Ne.symm hne.2.1, Ne.symm hne.2.2]
  · cases h

/-- Without known tables every reference is unresolved. -/
@[simp] theorem resolveReference_empty (reference : List Char) :
    resolveReference {} reference = none := by
  rw [resolveReference]
  split <;> rfl

/-- A reference line whose table is unknown fails for that. -/
theorem lineProblem?_of_unresolved {parsed : ReferenceLine}
    (hp : ReferenceLine.parse line = .ok parsed)
    (hr : resolveReference context parsed.reference = none) :
    lineProblem? context inKey line = some (.unresolvedReference parsed.reference) := by
  rw [lineProblem?, lineKind_of_parse hp, problemOf?_eq_some_iff, compileReference, hp]
  simp only [bind, Except.bind, hr]
  rfl

/-- So a failing line with such a reference is the problem of its definition. -/
theorem problem_of_unresolved {parsed : ReferenceLine}
    (hf : failingLine? context definition = some failing)
    (hp : ReferenceLine.parse failing.line = .ok parsed)
    (hr : resolveReference context parsed.reference = none) :
    failing.problem = .unresolvedReference parsed.reference := by
  have h := failingLine?_lineProblem? hf
  rw [lineProblem?_of_unresolved hp hr] at h
  exact (Option.some.inj h).symm

/-- When nothing is known, that is so for every reference. -/
theorem problem_of_parse {parsed : ReferenceLine} (hf : failingLine? {} definition = some failing)
    (hp : ReferenceLine.parse failing.line = .ok parsed) :
    failing.problem = .unresolvedReference parsed.reference :=
  problem_of_unresolved hf hp (resolveReference_empty _)

/-- Conversely, an unresolved reference is what stands on the line after its arrow and options. -/
theorem parse_of_unresolved {reference : List Char}
    (h : lineProblem? context inKey line = some (.unresolvedReference reference)) :
    ∃ parsed, ReferenceLine.parse line = .ok parsed ∧ parsed.reference = reference ∧
      resolveReference context reference = none := by
  have hk : lineKind line = .reference := lineKind_of_lineProblem? h
  rw [lineProblem?, hk, problemOf?_eq_some_iff] at h
  rcases compileReference_error h with hp | ⟨parsed, hp, ⟨hr, he⟩ | ⟨option, he⟩ | he⟩
  · obtain ⟨position, found, he⟩ := ReferenceLine.parse_error hp
    cases he
  · cases he
    exact ⟨parsed, hp, rfl, hr⟩
  · cases he
  · cases he

/-- The line behind a definition that is refused for an unresolved reference. -/
theorem exists_failingLine_of_unresolved {reference : List Char}
    (h : declare context definition = .error (.unresolvedReference reference)) :
    ∃ failing parsed, failingLine? context definition = some failing ∧
      ReferenceLine.parse failing.line = .ok parsed ∧ parsed.reference = reference ∧
      resolveReference context reference = none := by
  obtain ⟨failing, hf, hp⟩ := failingLine?_of_declare h (by simp)
  have hline := failingLine?_lineProblem? hf
  rw [hp] at hline
  obtain ⟨parsed, hparse⟩ := parse_of_unresolved hline
  exact ⟨failing, parsed, hf, hparse⟩

end TableLint.Definition
