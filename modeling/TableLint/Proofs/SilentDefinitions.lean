import TableLint.Proofs.KeyLines
import TableLint.Proofs.KeyStructure
import TableLint.Proofs.ReviewFindings

/-!
When a definition is passed over in silence, and when only its key is missed. A definition is read
without knowing other tables, so no line of one that can be read is a reference, and only attribute
lines add to the key. The key is empty exactly when none of them stands above the separator.
-/
namespace TableLint.Definition

open Text

variable {inKey : Bool} {d e : Declaration} {line definition : List Char}
  {lines : List (List Char)}

/-! ### Kinds of lines -/

/-- The line is blank or a comment. -/
def IsSkipped (line : List Char) : Prop := line = [] ∨ line.head? = some '#'

/-- The line is a separator, in one spelling or the other. -/
def IsSeparator (line : List Char) : Prop := "---".toList <+: line ∨ "___".toList <+: line

/-- The line is none of the others. -/
structure IsAttributeLine (line : List Char) : Prop where
  notSkipped : ¬IsSkipped line
  notSeparator : ¬IsSeparator line
  notReference : ¬ReferenceLine.isReference line = true
  notIndex : ¬Index.isIndex line = true

instance (line : List Char) : Decidable (IsSkipped line) := inferInstanceAs (Decidable (_ ∨ _))

instance (line : List Char) : Decidable (IsSeparator line) := inferInstanceAs (Decidable (_ ∨ _))

/-- The kind of a line, in the order in which the kinds are told apart. -/
theorem lineKind_eq (line : List Char) :
    lineKind line =
      if IsSkipped line then .skipped
      else if IsSeparator line then .separator
      else if ReferenceLine.isReference line = true then .reference
      else if Index.isIndex line = true then .index
      else .column := by
  have hs : (line.isEmpty || line.head? == some '#') = true ↔ IsSkipped line := by
    simp [IsSkipped]
  have hp : ("---".toList.isPrefixOf line || "___".toList.isPrefixOf line) = true ↔
      IsSeparator line := by
    rw [IsSeparator, Bool.or_eq_true, List.isPrefixOf_iff_prefix, List.isPrefixOf_iff_prefix]
  rw [lineKind]
  simp only [hs, hp]

theorem lineKind_eq_column_iff : lineKind line = .column ↔ IsAttributeLine line := by
  rw [lineKind_eq]
  constructor
  · intro h
    split_ifs at h with h₁ h₂ h₃ h₄
    exact ⟨h₁, h₂, h₃, h₄⟩
  · rintro ⟨h₁, h₂, h₃, h₄⟩
    rw [if_neg h₁, if_neg h₂, if_neg h₃, if_neg h₄]

instance (line : List Char) : Decidable (IsAttributeLine line) :=
  decidable_of_iff _ lineKind_eq_column_iff

theorem lineKind_eq_reference_iff :
    lineKind line = .reference ↔
      ¬IsSkipped line ∧ ¬IsSeparator line ∧ ReferenceLine.isReference line = true := by
  rw [lineKind_eq]
  constructor
  · intro h
    split_ifs at h with h₁ h₂ h₃
    exact ⟨h₁, h₂, h₃⟩
  · rintro ⟨h₁, h₂, h₃⟩
    rw [if_neg h₁, if_neg h₂, if_pos h₃]

/-! ### The key of a definition that can be read -/

/-- Without known tables no reference line can be read. -/
theorem compileReference_empty (inKey : Bool) (line : List Char) (key : ForeignKey) :
    compileReference {} inKey line ≠ .ok key := by
  intro h
  rw [compileReference] at h
  obtain ⟨parsed, -, h⟩ := exists_of_bind_eq_ok h
  rw [resolveReference_empty] at h
  cases h

/-- A name that is added is there. -/
theorem addNew_ne_nil (names : List (List Char)) (name : List Char) : addNew names name ≠ [] := by
  intro h
  have hm : name ∈ addNew names name := mem_addNew.mpr (.inr rfl)
  rw [h] at hm
  cases hm

theorem primaryKey_addStore (d : Declaration) (store : Option (List Char)) :
    (d.addStore store).primaryKey = d.primaryKey := by
  cases store with
  | none => rfl
  | some store => rfl

/-- A line that can be read is no reference, and leaves the key empty unless it is an attribute line
above the separator. -/
theorem primaryKey_addLine (h : addLine {} inKey d line = .ok e) :
    lineKind line ≠ .reference ∧
      (e.primaryKey = [] ↔ d.primaryKey = [] ∧ (inKey = true → lineKind line ≠ .column)) := by
  rw [addLine] at h
  cases hk : lineKind line with
  | skipped | separator =>
    rw [hk] at h
    cases h
    simp
  | reference =>
    rw [hk] at h
    obtain ⟨key, hr, -⟩ := exists_of_bind_eq_ok h
    exact absurd hr (compileReference_empty inKey line key)
  | index =>
    rw [hk] at h
    obtain ⟨i, -, he⟩ := exists_of_bind_eq_ok h
    cases he
    simp
  | column =>
    rw [hk] at h
    obtain ⟨a, -, he⟩ := exists_of_bind_eq_ok h
    cases he
    rw [Declaration.primaryKey_addAttribute, primaryKey_addStore]
    cases inKey with
    | false => simp
    | true => simp [addNew_ne_nil]

/-- So do all lines together: only attribute lines above the separator count. -/
theorem primaryKey_addLines (h : addLines {} inKey d lines = .ok e) :
    (∀ line ∈ lines, lineKind line ≠ .reference) ∧
      (e.primaryKey = [] ↔ d.primaryKey = [] ∧ (inKey = true →
        ∀ line ∈ lines.takeWhile (lineKind · != .separator), lineKind line ≠ .column)) := by
  induction lines generalizing inKey d with
  | nil =>
    cases h
    simp
  | cons line lines ih =>
    rw [addLines] at h
    obtain ⟨f, ha, h⟩ := exists_of_bind_eq_ok h
    obtain ⟨hr, hkey⟩ := primaryKey_addLine ha
    obtain ⟨hrest, hkeys⟩ := ih h
    refine ⟨List.forall_mem_cons.mpr ⟨hr, hrest⟩, ?_⟩
    rw [hkeys, hkey]
    -- A separator ends the key, for the reading as for the lines that are looked at.
    by_cases hs : lineKind line = .separator
    · simp [hs]
    · have hb : (lineKind line != .separator) = true := by simpa using hs
      have ht : (line :: lines).takeWhile (lineKind · != .separator) =
          line :: lines.takeWhile (lineKind · != .separator) := List.takeWhile_cons_of_pos hb
      rw [ht, hb, Bool.and_true, List.forall_mem_cons, and_assoc, ← imp_and]

/-- A definition that can be read without known tables has no reference lines, and its key is empty
exactly when no attribute line stands above the separator. -/
theorem declare_empty (h : declare {} definition = .ok d) :
    (∀ line ∈ splitLines definition, lineKind line ≠ .reference) ∧
      (d.primaryKey = [] ↔ ∀ line ∈ keyLines definition, ¬IsAttributeLine line) := by
  obtain ⟨skipped, hs, hk⟩ := exists_eq_append_takeTableComment (splitLines definition)
  rw [declare] at h
  rw [keyLines]
  generalize takeTableComment (splitLines definition) = parts at h hs
  obtain ⟨comment, lines⟩ := parts
  simp only at h hs
  split at h
  · cases h
  · obtain ⟨hr, hkey⟩ := primaryKey_addLines h
    have hpos : ∀ line ∈ skipped, (lineKind line != .separator) = true := by
      intro line hl
      simp [hk line hl]
    have hnone : ∀ line ∈ skipped, ¬IsAttributeLine line := by
      intro line hl
      simp [← lineKind_eq_column_iff, hk line hl]
    rw [hs]
    constructor
    · intro line hl
      rcases List.mem_append.mp hl with hm | hm
      · simp [hk line hm]
      · exact hr line hm
    · rw [hkey, List.takeWhile_append_of_pos hpos, List.forall_mem_append]
      constructor
      · rintro ⟨-, hc⟩
        exact ⟨hnone, fun line hl ha => hc rfl line hl (lineKind_eq_column_iff.mpr ha)⟩
      · rintro ⟨-, hc⟩
        exact ⟨rfl, fun _ line hl he => hc line hl (lineKind_eq_column_iff.mp he)⟩

end TableLint.Definition

namespace TableLint.Rule

open Text Definition

variable {names : VisibleNames} {settings : Settings.Tables} {table : Table}
  {definition message : List Char} {d : Declaration}

/-! ### What is reported -/

/-- A rejection is never reported as a missing key. -/
theorem noKey_not_mem_rejectionFindings (name : List Char) :
    ⟨.noKey, [name]⟩ ∉ rejectionFindings names settings table definition message := by
  intro hm
  have hr : ∃ finding ∈ rejectionFindings names settings table definition message,
      finding.rule = .noKey := ⟨_, hm, rfl⟩
  rw [rejectionFindings_rule_iff (by simp) (by simp) (by simp)] at hr
  obtain ⟨-, finding, hf, he⟩ := hr
  rcases rule_of_mem_rejection hf with h | h
  · cases h.symm.trans he
  · cases h.symm.trans he

theorem judge_of_ok (hd : table.definition = some (.literal definition))
    (hb : ¬AllBlank definition) (h : declare {} definition = .ok d) :
    judge names settings table = if d.primaryKey = [] then [⟨.noKey, [table.name]⟩] else [] := by
  have ht : trim definition ≠ [] := fun ht => hb (allBlank_of_trim_eq_nil ht)
  rw [judge, judgeIn_literal {} hd ht, h]
  simp

/-- A definition with any text is reported for its missing key, and for nothing else, exactly when
it can be read without known tables and no attribute line stands above the first separator. If it
can be read and some attribute line does, nothing is reported. And it can be read only if none of
its lines is a reference, blank lines, comments and separators apart. -/
theorem judge_noKey_iff (names : VisibleNames) (settings : Settings.Tables) (table : Table)
    (definition : List Char) (hd : table.definition = some (.literal definition))
    (hb : ¬AllBlank definition) :
    (judge names settings table = [⟨.noKey, [table.name]⟩] ↔
        (∃ d, declare {} definition = .ok d) ∧
          ∀ line ∈ keyLines definition, ¬IsAttributeLine line) ∧
      ((∃ d, declare {} definition = .ok d) →
        (∃ line ∈ keyLines definition, IsAttributeLine line) → judge names settings table = []) ∧
      ((∃ d, declare {} definition = .ok d) → ∀ line ∈ splitLines definition,
        ¬IsSkipped line → ¬IsSeparator line → ReferenceLine.isReference line = false) := by
  refine ⟨?_, ?_, ?_⟩
  · cases h : declare {} definition with
    | ok d =>
      rw [judge_of_ok hd hb h, ← (declare_empty h).2]
      by_cases hk : d.primaryKey = []
      · simp [hk]
      · simp [hk]
    | error problem =>
      rw [judge_of_error hd h]
      constructor
      · intro he
        exact absurd (he ▸ List.mem_singleton_self _) (noKey_not_mem_rejectionFindings table.name)
      · rintro ⟨⟨d, hok⟩, -⟩
        cases hok
  · rintro ⟨d, h⟩ ⟨line, hl, ha⟩
    have hk : d.primaryKey ≠ [] := fun hk => (declare_empty h).2.mp hk line hl ha
    rw [judge_of_ok hd hb h, if_neg hk]
  · rintro ⟨d, h⟩ line hl hskipped hseparator
    have hr := (declare_empty h).1 line hl
    rw [ne_eq, lineKind_eq_reference_iff] at hr
    simpa [hskipped, hseparator] using hr

/-- A definition with an index above its separator and, in a default below it, an arrow. -/
def indexedText : List Char :=
  "# Notes\n\nindex (note)\n___\nnote = '-> none' : varchar(8)".toList

/-- The same with an attribute above the separator. -/
def numberedText : List Char :=
  "# Notes\nindex (note)\nnumber : int # -> none\n---\nnote : varchar(8)".toList

def notes (text : List Char) : Table :=
  { name := "Notes".toList, kind := .manual, definition := some (.literal text), span := {} }

/-- An index is no key, and an arrow that is quoted or commented out makes no reference. -/
theorem judge_noKey_iff_notes :
    judge {} {} (notes indexedText) = [⟨.noKey, ["Notes".toList]⟩] ∧
      judge {} {} (notes numberedText) = [] ∧
      ∀ line ∈ splitLines numberedText, ¬IsSkipped line → ¬IsSeparator line →
        ReferenceLine.isReference line = false := by
  have hindexed := judge_noKey_iff {} {} (notes indexedText) indexedText rfl (by decide +kernel)
  have hnumbered := judge_noKey_iff {} {} (notes numberedText) numberedText rfl (by decide +kernel)
  have hread : ∃ d, declare {} numberedText = .ok d := ⟨_, rfl⟩
  exact ⟨hindexed.1.mpr ⟨⟨_, rfl⟩, by decide +kernel⟩, hnumbered.2.1 hread (by decide +kernel),
    hnumbered.2.2 hread⟩

end TableLint.Rule
