import TableLint.Proofs.Findings
import TableLint.Proofs.Growth
import TableLint.Proofs.OptionList

/-!
What stands below a reference that cannot be resolved. Reading ends there, so nothing below is read.
The review does go over the whole text: it counts the lines that mention the name, and looks for the
name in the key. But the name stands in the text that was read, and hence in the key unless a
separator was read before; so lines that do not mention it cannot change what is reported.
-/
namespace TableLint.Rule

open Text Definition

variable {names : VisibleNames} {mode : Settings.NullableMode} {settings : Settings.Tables}
  {table : Table} {definition above further name message : List Char} {problem : Problem}

/-! ### The name stands in the definition -/

/-- The name that a review takes from the wording is a part of the reference. -/
theorem reviewedName_isInfix (reference : List Char) : reviewedName reference <:+: reference := by
  have hc : upTo " could ".toList (afterLast ']' reference ++ closing) <+:
      afterLast ']' reference :=
    upTo_append_isPrefix " could ".toList (afterLast ']' reference) "not be resolved".toList
  have hp := (upTo_isPrefix ".proj".toList _).trans hc
  exact ((trim_isInfix _).trans hp.isInfix).trans (afterLast_isSuffix ']' reference).isInfix

/-- So it is a part of the definition whose line failed. -/
theorem name_isInfix_of_declare {context : Context}
    (he : declare context definition = .error problem)
    (hp : isReferenceProblem problem.message = true)
    (hn : namedReference? problem.message = some name) : name <:+: definition := by
  obtain ⟨reference, rfl⟩ := (isReferenceProblem_message_iff problem).mp hp
  obtain ⟨failing, parsed, hf, hparse, rfl, -⟩ := exists_failingLine_of_unresolved he
  rw [namedReference?_unresolved] at hn
  obtain rfl := Option.some.inj hn
  have hl : failing.line <:+: definition :=
    isInfix_of_mem_splitLines (mem_splitLines_of_failingLine? hf)
  exact ((reviewedName_isInfix _).trans (ReferenceLine.reference_isSuffix hparse).isInfix).trans hl

/-! ### The review of a definition that goes on -/

/-- The text before the first separator. -/
def keyPart (definition : List Char) : List Char :=
  upTo "___".toList (upTo "---".toList definition)

/-- The key ends above, or all that stands above belongs to it. -/
theorem keyPart_continued (above further : List Char) :
    keyPart (above ++ '\n' :: further) = keyPart above ∨
      keyPart above = above ∧ above <+: keyPart (above ++ '\n' :: further) := by
  rcases upTo_continued (by decide : '\n' ∉ "---".toList) above further with
    hd | ⟨hd, rest, hrest⟩
  · exact .inl (by rw [keyPart, hd, keyPart])
  · rw [keyPart, keyPart, hd, hrest]
    rcases upTo_continued (by decide : '\n' ∉ "___".toList) above rest with
      hu | ⟨hu, rest', hrest'⟩
    · exact .inl hu
    · rw [hu, hrest']
      exact .inr ⟨rfl, List.prefix_append above _⟩

theorem occursInKey_iff : occursInKey name definition = true ↔ name <:+: keyPart definition :=
  occursIn_iff

theorem occursInKey_continued (h : name <:+: above) (further : List Char) :
    occursInKey name (above ++ '\n' :: further) = occursInKey name above := by
  rw [Bool.eq_iff_iff, occursInKey_iff, occursInKey_iff]
  rcases keyPart_continued above further with hk | ⟨hk, hp⟩
  · rw [hk]
  · rw [hk]
    exact iff_of_true (h.trans hp.isInfix) h

/-- Lines that do not mention the name are left out. -/
theorem referenceLines_continued (h : ∀ line ∈ splitAt '\n' further, ¬(' ' :: name) <:+: line)
    (above : List Char) :
    referenceLines name (above ++ '\n' :: further) = referenceLines name above := by
  have hf : (splitAt '\n' further).filter (occursIn (' ' :: name)) = [] := by
    rw [List.filter_eq_nil_iff]
    intro line hl ho
    exact h line hl (occursIn_iff.mp ho)
  rw [referenceLines, splitAt_append_cons, List.filter_append, hf, List.append_nil, referenceLines]

theorem review_continued (hn : namedReference? message = some name) (ha : name <:+: above)
    (h : ∀ line ∈ splitAt '\n' further, ¬(' ' :: name) <:+: line) :
    review names mode table message (above ++ '\n' :: further) =
      review names mode table message above := by
  rw [review, review, hn]
  split
  · rfl
  · next reference hr =>
    obtain rfl : name = reference := by
      split at hr
      · exact Option.some.inj hr
      · cases hr
    rw [referenceLines_continued h, occursInKey_continued ha]

/-! ### The judgement -/

/-- The table with another text as its definition. -/
def Table.withText (table : Table) (text : List Char) : Table :=
  { table with definition := some (.literal text) }

theorem judge_withText (he : declare {} definition = .error problem)
    (hp : isReferenceProblem problem.message = true) :
    judge names settings (table.withText definition) =
      rejectionFindings names settings table definition problem.message := by
  obtain ⟨reference, rfl⟩ := (isReferenceProblem_message_iff problem).mp hp
  obtain ⟨failing, hf, hproblem⟩ := failingLine?_of_declare he (by simp)
  rw [judge_of_failingLine? rfl hf, hproblem]
  rfl

/-- Below an unresolved reference, lines that do not mention its name make no difference. -/
theorem judge_continued (he : declare {} above = .error problem)
    (hp : isReferenceProblem problem.message = true)
    (hn : namedReference? problem.message = some name)
    (h : ∀ line ∈ splitAt '\n' further, ¬(' ' :: name) <:+: line) :
    judge names settings (table.withText (above ++ '\n' :: further)) =
      judge names settings (table.withText above) := by
  have ha : name <:+: above := name_isInfix_of_declare he hp hn
  rw [judge_withText (declare_error_continued he further) hp, judge_withText he hp,
    rejectionFindings_eq, rejectionFindings_eq, review_continued hn ha h]

/-- Two definitions that agree down to a reference that cannot be resolved are judged alike if the
name read from the wording of the problem is not mentioned below, whatever else stands there. -/
theorem judge_below_reference (names : VisibleNames) (settings : Settings.Tables) (table : Table)
    (above name : List Char) (problem : Problem) (further further' : List Char)
    (he : declare {} above = .error problem) (hp : isReferenceProblem problem.message = true)
    (hn : namedReference? problem.message = some name)
    (hf : ∀ line ∈ splitAt '\n' further, ¬(' ' :: name) <:+: line)
    (hf' : ∀ line ∈ splitAt '\n' further', ¬(' ' :: name) <:+: line) :
    judge names settings (table.withText (above ++ '\n' :: further)) =
      judge names settings (table.withText (above ++ '\n' :: further')) := by
  rw [judge_continued he hp hn hf, judge_continued he hp hn hf']

/-- A definition down to its reference. -/
def scanAbove : List Char := "scan : int\n---\n-> [unique] Subject".toList

def scanTable : Table :=
  { name := "Scan".toList, kind := .manual, definition := none, span := {} }

/-- A type that is refused and an empty index are not noticed, nor is another reference. -/
theorem judge_below_reference_scan :
    declare {} scanAbove = .error (.unresolvedReference " Subject".toList) ∧
      judge {} {} (scanTable.withText (scanAbove ++ '\n' :: "note : text\nindex ()".toList)) =
        judge {} {} (scanTable.withText (scanAbove ++ '\n' :: "-> Session".toList)) := by
  have he : declare {} scanAbove = .error (.unresolvedReference " Subject".toList) := by
    decide +kernel
  exact ⟨he, judge_below_reference {} {} scanTable scanAbove "Subject".toList _ _ _ he
    (by decide +kernel) (by decide +kernel) (by decide +kernel) (by decide +kernel)⟩

end TableLint.Rule
