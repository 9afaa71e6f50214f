import TableLint.Report.Allowance
import TableLint.Source.Lines

/-!
Where directives count. A directive is looked for on the line in question and on the line before it.
Of the directives that stand on one line only the first is read, so a later one counts only if those
before it allow the rule as well.
-/
namespace TableLint.Report

open Text Source

variable {c : Char} {s line before comment content rule u v : List Char} {d e : Directive} {n : Nat}

namespace Directive

/-- A hash of the line, with `before` in front of it, starts the directive. -/
structure StandsIn (d : Directive) (line before comment : List Char) : Prop where
  line_eq : line = before ++ '#' :: comment
  read : ofComment? comment = some d

theorem standsIn_nil_iff :
    d.StandsIn (c :: s) [] comment ↔ c = '#' ∧ comment = s ∧ ofComment? s = some d := by
  constructor
  · rintro ⟨hline, hread⟩
    obtain ⟨rfl, rfl⟩ := List.cons.inj hline
    exact ⟨rfl, rfl, hread⟩
  · rintro ⟨rfl, rfl, hread⟩
    exact ⟨rfl, hread⟩

theorem StandsIn.cons (h : d.StandsIn s before comment) (c : Char) :
    d.StandsIn (c :: s) (c :: before) comment :=
  ⟨by rw [h.line_eq, List.cons_append], h.read⟩

theorem StandsIn.tail {b : Char} (h : d.StandsIn (c :: s) (b :: before) comment) :
    d.StandsIn s before comment :=
  ⟨(List.cons.inj h.line_eq).2, h.read⟩

theorem ofLine?_cons_of_ne (h : c ≠ '#') (s : List Char) : ofLine? (c :: s) = ofLine? s := by
  simp [ofLine?, h]

theorem ofLine?_hash (s : List Char) : ofLine? ('#' :: s) = (ofComment? s).or (ofLine? s) := rfl

/-- The directive of a line stands on it, and none stands before it. -/
theorem exists_standsIn_of_ofLine? (h : ofLine? line = some d) :
    ∃ before comment, d.StandsIn line before comment ∧
      ∀ (e : Directive) (u v : List Char), e.StandsIn line u v → before.length ≤ u.length := by
  induction line with
  | nil => cases h
  | cons c s ih =>
    by_cases hread : c = '#' ∧ ofComment? s = some d
    · obtain ⟨rfl, hread⟩ := hread
      exact ⟨[], s, ⟨rfl, hread⟩, fun _ _ _ _ => Nat.zero_le _⟩
    · -- The first character starts no directive, so the first one is that of the other characters.
      have hs : ofLine? s = some d ∧ ∀ e, ¬(c = '#' ∧ ofComment? s = some e) := by
        by_cases hc : c = '#'
        · subst hc
          cases hr : ofComment? s with
          | none => exact ⟨by simpa [ofLine?_hash, hr] using h, by simp⟩
          | some e =>
            rw [ofLine?_hash, hr, Option.some_or] at h
            exact absurd ⟨rfl, h ▸ hr⟩ hread
        · rw [ofLine?_cons_of_ne hc] at h
          exact ⟨h, fun e he => hc he.1⟩
      obtain ⟨before, comment, hd, hfirst⟩ := ih hs.1
      refine ⟨c :: before, comment, hd.cons c, ?_⟩
      intro e u v he
      cases u with
      | nil =>
        obtain ⟨hc, rfl, hr⟩ := standsIn_nil_iff.mp he
        exact absurd ⟨hc, hr⟩ (hs.2 e)
      | cons b u => exact Nat.succ_le_succ (hfirst e u v he.tail)

/-- A line with a directive on it has a first one. -/
theorem exists_ofLine?_of_standsIn (h : d.StandsIn line before comment) :
    ∃ e, ofLine? line = some e := by
  induction line generalizing before with
  | nil => simpa using h.line_eq
  | cons c s ih =>
    by_cases hc : c = '#'
    · subst hc
      rw [ofLine?_hash]
      cases hr : ofComment? s with
      | some e => exact ⟨e, rfl⟩
      | none =>
        cases before with
        | nil =>
          obtain ⟨-, rfl, hd⟩ := standsIn_nil_iff.mp h
          rw [hr] at hd
          cases hd
        | cons b before => exact ih h.tail
    · rw [ofLine?_cons_of_ne hc]
      cases before with
      | nil => exact absurd (standsIn_nil_iff.mp h).1 hc
      | cons b before => exact ih h.tail

/-- A place on the line holds at most one directive. -/
theorem StandsIn.unique (hd : d.StandsIn line before comment) (he : e.StandsIn line u v)
    (hlen : u.length = before.length) : e = d := by
  have hline : before ++ '#' :: comment = u ++ '#' :: v := by
    rw [← hd.line_eq, he.line_eq]
  obtain ⟨-, hrest⟩ := List.append_inj hline hlen.symm
  have hread := he.read
  rw [← (List.cons.inj hrest).2, hd.read] at hread
  exact (Option.some.inj hread).symm

/-- What is read of a line allows the rule if a directive on it does and all before that do too. -/
theorem exists_ofLine?_allows_iff (line rule : List Char) :
    (∃ d, ofLine? line = some d ∧ d.allows rule = true) ↔
      ∃ (d : Directive) (before comment : List Char), d.StandsIn line before comment ∧
        d.allows rule = true ∧ ∀ (e : Directive) (u v : List Char), e.StandsIn line u v →
          u.length < before.length → e.allows rule = true := by
  constructor
  · rintro ⟨d, hd, ha⟩
    obtain ⟨before, comment, hstands, hfirst⟩ := exists_standsIn_of_ofLine? hd
    refine ⟨d, before, comment, hstands, ha, ?_⟩
    intro e u v he hlt
    exact absurd (hfirst e u v he) (Nat.not_le_of_lt hlt)
  · rintro ⟨d, before, comment, hstands, ha, hbefore⟩
    obtain ⟨e, he⟩ := exists_ofLine?_of_standsIn hstands
    obtain ⟨u, v, hu, hfirst⟩ := exists_standsIn_of_ofLine? he
    refine ⟨e, he, ?_⟩
    rcases Nat.lt_or_eq_of_le (hfirst d before comment hstands) with hlt | heq
    · exact hbefore e u v hu hlt
    · rw [hstands.unique hu heq]
      exact ha

end Directive

/-! ### The two lines -/

/-- The directive of a line, if it allows the rule. -/
def directiveFor? (content : List Char) (line : Nat) (rule : List Char) : Option Directive :=
  ((lineText? content line).bind Directive.ofLine?).filter (·.allows rule)

theorem allowance?_eq (content : List Char) (n : Nat) (rule : List Char) :
    allowance? content n rule =
      (directiveFor? content (n - 1) rule).or (directiveFor? content n rule) := by
  -- Before the first line there is none, so line numbers 0 and 1 stand apart.
  rcases n with _ | _ | n <;> rfl

theorem directiveFor?_eq_some_iff :
    directiveFor? content n rule = some d ↔
      ∃ line, lineText? content n = some line ∧ Directive.ofLine? line = some d ∧
        d.allows rule = true := by
  rw [directiveFor?, Option.filter_eq_some_iff, Option.bind_eq_some_iff]
  constructor
  · rintro ⟨⟨line, hline, hd⟩, ha⟩
    exact ⟨line, hline, hd, ha⟩
  · rintro ⟨line, hline, hd, ha⟩
    exact ⟨⟨line, hline, hd⟩, ha⟩

theorem isSome_allowance?_iff :
    (allowance? content n rule).isSome = true ↔
      ∃ m, (m = n ∨ m + 1 = n) ∧ (directiveFor? content m rule).isSome = true := by
  rw [allowance?_eq, Option.isSome_or, Bool.or_eq_true]
  constructor
  · rintro (h | h)
    · refine ⟨n - 1, ?_, h⟩
      omega
    · exact ⟨n, .inl rfl, h⟩
  · rintro ⟨m, rfl | rfl, h⟩
    · exact .inr h
    · exact .inl h

/-- A rule may be broken on a line exactly if a directive on the line itself or on the one before
allows it, and so does every directive that stands before that one on its line. -/
theorem allowance?_isSome_iff_first (content : List Char) (n : Nat) (rule : List Char) :
    (allowance? content n rule).isSome = true ↔
      ∃ (m : Nat) (line : List Char) (d : Directive) (before comment : List Char),
        (m = n ∨ m + 1 = n) ∧ lineText? content m = some line ∧
        d.StandsIn line before comment ∧ d.allows rule = true ∧
        ∀ (e : Directive) (u v : List Char), e.StandsIn line u v → u.length < before.length →
          e.allows rule = true := by
  rw [isSome_allowance?_iff]
  constructor
  · rintro ⟨m, hm, h⟩
    obtain ⟨d, hd⟩ := Option.isSome_iff_exists.mp h
    obtain ⟨line, hline, hread, ha⟩ := directiveFor?_eq_some_iff.mp hd
    obtain ⟨d, before, comment, hfirst⟩ :=
      (Directive.exists_ofLine?_allows_iff line rule).mp ⟨d, hread, ha⟩
    exact ⟨m, line, d, before, comment, hm, hline, hfirst⟩
  · rintro ⟨m, line, d, before, comment, hm, hline, hfirst⟩
    obtain ⟨e, hread, ha⟩ :=
      (Directive.exists_ofLine?_allows_iff line rule).mpr ⟨d, before, comment, hfirst⟩
    refine ⟨m, hm, ?_⟩
    rw [directiveFor?_eq_some_iff.mpr ⟨line, hline, hread, ha⟩]
    rfl

/-- A line with two directives. -/
def crowdedLine : List Char :=
  "class T:  # pylint: disable=bad-opt # dj-lint: allow(no-pk)".toList

/-- A directive for another rule hides the one after it. -/
theorem laterDirective_ignored :
    lineText? (crowdedLine ++ ['\n']) 1 = some crowdedLine ∧
      (∃ (d : Directive) (before comment : List Char), d.StandsIn crowdedLine before comment ∧
        d.allows "no-pk".toList = true) ∧
      allowance? (crowdedLine ++ ['\n']) 1 "no-pk".toList = none := by
  refine ⟨by decide +kernel, ?_, by decide +kernel⟩
  exact ⟨{ rules := ["no-pk".toList], reason := none },
    "class T:  # pylint: disable=bad-opt ".toList, " dj-lint: allow(no-pk)".toList,
    ⟨by decide +kernel, by decide +kernel⟩, by decide +kernel⟩

end TableLint.Report
