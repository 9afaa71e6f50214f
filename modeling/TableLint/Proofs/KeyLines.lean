import TableLint.Proofs.BelowReference

/-!
The key of a definition, seen line by line and as a text. Reading takes all lines above the first
separator line for the key. A review takes all text before the first mark of a separator, wherever
that stands in a line. The two agree on lines without a mark in them, and the text never reaches
beyond the lines.
-/
namespace TableLint.Definition

open Text

variable {line definition : List Char} {failing : FailingLine} {parsed : ReferenceLine}

/-! ### Lines above the separator -/

/-- The lines above the first separator line. -/
def keyLines (definition : List Char) : List (List Char) :=
  (splitLines definition).takeWhile (lineKind · != .separator)

/-- Separator lines are told by how they start. -/
theorem lineKind_eq_separator_iff :
    lineKind line = .separator ↔ "---".toList <+: line ∨ "___".toList <+: line := by
  have hp : ("---".toList.isPrefixOf line || "___".toList.isPrefixOf line) = true ↔
      "---".toList <+: line ∨ "___".toList <+: line := by
    rw [Bool.or_eq_true, List.isPrefixOf_iff_prefix, List.isPrefixOf_iff_prefix]
  rw [← hp, lineKind]
  split
  · next hs =>
    cases line with
    | nil => simp
    | cons c line =>
      obtain rfl : c = '#' := by simpa using hs
      simp
  · cases "---".toList.isPrefixOf line || "___".toList.isPrefixOf line with
    | true => simp
    | false =>
      simp only [Bool.false_eq_true, if_false, iff_false]
      split
      · simp
      · split <;> simp

/-- A reference line that fails belongs to the key if it stands above the separator. -/
theorem mem_keyLines_iff_inKey (hf : failingLine? {} definition = some failing)
    (hp : ReferenceLine.parse failing.line = .ok parsed) :
    failing.line ∈ keyLines definition ↔ failing.inKey = true := by
  obtain ⟨above, below, hs, hk, hr⟩ := exists_append_of_failingLine? hf
  rw [keyLines, hs, hk]
  constructor
  · intro hm
    rw [List.takeWhile_append] at hm
    split at hm
    · next hl =>
      rw [← (List.takeWhile_prefix _).eq_of_length hl]
      exact List.all_takeWhile
    · -- Otherwise the line also stands above itself, where it would fail.
      obtain ⟨k, hn⟩ := hr _ ((List.takeWhile_prefix _).subset hm)
      rw [lineProblem?_of_unresolved hp (resolveReference_empty _)] at hn
      cases hn
  · intro ha
    rw [List.takeWhile_append_of_pos (List.all_eq_true.mp ha), List.takeWhile_cons_of_pos]
    · simp
    · simp [lineKind_of_parse hp]

end TableLint.Definition

namespace TableLint.Rule

open Text Definition

variable {piece line definition x : List Char}

/-! ### Text before the mark -/

/-- The line has the mark of a separator, not necessarily at its start. -/
def Marked (line : List Char) : Prop := "---".toList <:+: line ∨ "___".toList <:+: line

instance (line : List Char) : Decidable (Marked line) := inferInstanceAs (Decidable (_ ∨ _))

theorem marked_trim_iff : Marked (trim line) ↔ Marked line :=
  or_congr (isInfix_trim_iff (by decide) (by decide)) (isInfix_trim_iff (by decide) (by decide))

theorem keyPart_isPrefix (definition : List Char) : keyPart definition <+: definition :=
  (upTo_isPrefix _ _).trans (upTo_isPrefix _ _)

theorem keyPart_of_not_marked (h : ¬Marked x) : keyPart x = x := by
  rw [Marked, not_or] at h
  rw [keyPart, upTo_of_not_isInfix h.1, upTo_of_not_isInfix h.2]

/-- A line without a mark belongs to the text before the mark. -/
theorem keyPart_line (h : ¬Marked x) (y : List Char) :
    keyPart (x ++ '\n' :: y) = x ++ '\n' :: keyPart y := by
  rw [Marked, not_or] at h
  rw [keyPart, upTo_line (by decide) h.1, upTo_line (by decide) h.2, keyPart]

/-- The text before the mark goes on below a line at most as it would without that line. -/
theorem keyPart_line_isPrefix (x y : List Char) :
    keyPart (x ++ '\n' :: y) <+: x ++ '\n' :: keyPart y := by
  rw [keyPart]
  by_cases hd : "---".toList <:+: x
  · rw [upTo_append_of_isInfix hd]
    exact ((upTo_isPrefix _ _).trans (upTo_isPrefix _ x)).trans (List.prefix_append x _)
  · rw [upTo_line (by decide) hd]
    by_cases hu : "___".toList <:+: x
    · rw [upTo_append_of_isInfix hu]
      exact (upTo_isPrefix _ x).trans (List.prefix_append x _)
    · rw [upTo_line (by decide) hu, keyPart]

/-- Above a mark at the start of a line there are blanks at most. -/
theorem allBlank_keyPart_of_separator (h : lineKind (trim line) = .separator) (t : List Char) :
    AllBlank (keyPart (line ++ t)) := by
  obtain ⟨x, y, hx, -, he⟩ := exists_eq_append_trim line
  have hle : keyPart (line ++ t) <+: x := by
    rcases lineKind_eq_separator_iff.mp h with ⟨r, hr⟩ | ⟨r, hr⟩
    · rw [he, ← hr, List.append_assoc, List.append_assoc, List.append_assoc]
      exact (upTo_isPrefix _ _).trans (upTo_append_isPrefix _ x _)
    · have hm : '-' ∉ x ++ "___".toList := by
        simp [hx.not_mem (by decide : isBlank '-' = false)]
      have hs : Skips "---".toList (x ++ "___".toList) (r ++ (y ++ t)) := skips_of_not_mem hm
      rw [he, ← hr, keyPart, ← List.append_assoc, List.append_assoc, List.append_assoc,
        upTo_append hs, List.append_assoc]
      exact upTo_append_isPrefix _ x _
  exact fun c hc => hx c (hle.subset hc)

/-- A line is in the text before the mark if neither it nor a line above it is marked. -/
theorem line_isInfix_keyPart {above below : List (List Char)}
    (hs : splitAt '\n' definition = above ++ line :: below) (hl : ¬Marked line)
    (ha : ∀ other ∈ above, ¬Marked other) : line <:+: keyPart definition := by
  induction above generalizing definition with
  | nil =>
    obtain ⟨-, rfl⟩ | ⟨t, rfl, -⟩ := eq_of_splitAt_eq_cons hs
    · rw [keyPart_of_not_marked hl]
    · rw [keyPart_line hl]
      exact (List.prefix_append _ _).isInfix
  | cons first above ih =>
    obtain ⟨hn, -⟩ | ⟨t, rfl, ht⟩ := eq_of_splitAt_eq_cons hs
    · simp at hn
    · rw [keyPart_line (ha first List.mem_cons_self)]
      have hi := ih ht fun other ho => ha other (List.mem_cons_of_mem first ho)
      exact hi.trans ((List.suffix_cons '\n' _).trans (List.suffix_append first _)).isInfix

/-- Conversely, what the text before the mark has within a line stands above the separator. -/
theorem exists_rawLine_of_isInfix_keyPart (hp : trim piece = piece) (hne : piece ≠ [])
    (hn : '\n' ∉ piece) (h : piece <:+: keyPart definition) :
    ∃ line ∈ (splitAt '\n' definition).takeWhile fun line => lineKind (trim line) != .separator,
      piece <:+: line := by
  generalize hs : splitAt '\n' definition = lines
  induction lines generalizing definition with
  | nil => exact absurd hs (splitAt_ne_nil _ _)
  | cons first lines ih =>
    have hk : lineKind (trim first) ≠ .separator := by
      intro hk
      obtain ⟨t, rfl⟩ : first <+: definition := by
        obtain ⟨-, rfl⟩ | ⟨t, rfl, -⟩ := eq_of_splitAt_eq_cons hs
        · exact List.prefix_rfl
        · exact List.prefix_append first _
      have hb : AllBlank piece := fun c hc =>
        allBlank_keyPart_of_separator hk t c (h.subset hc)
      exact hne (hp ▸ trim_eq_nil hb)
    rw [List.takeWhile_cons_of_pos (by simpa using hk)]
    obtain ⟨-, rfl⟩ | ⟨t, rfl, ht⟩ := eq_of_splitAt_eq_cons hs
    · exact ⟨_, List.mem_cons_self, h.trans (keyPart_isPrefix _).isInfix⟩
    · rcases (isInfix_line_iff hn _ _).mp (h.trans (keyPart_line_isPrefix _ _).isInfix) with hf | hr
      · exact ⟨first, List.mem_cons_self, hf⟩
      · obtain ⟨line, hl, hi⟩ := ih hr ht
        exact ⟨line, List.mem_cons_of_mem first hl, hi⟩

/-! ### The trimmed lines -/

/-- A line of a definition as it is written. What is written above it are blank lines and the lines
above it. -/
theorem exists_written {above below : List (List Char)}
    (hs : splitLines definition = above ++ line :: below) :
    ∃ preceding written following, splitAt '\n' definition = preceding ++ written :: following ∧
      trim written = line ∧ ∀ other ∈ preceding, trim other = [] ∨ trim other ∈ above := by
  obtain ⟨x, y, hx, -, hmap⟩ := exists_map_trim_splitAt definition
  rw [hs, List.append_assoc, ← List.append_assoc] at hmap
  obtain ⟨preceding, rest, hsplit, hover, hrest⟩ := List.map_eq_append_iff.mp hmap
  obtain ⟨written, following, rfl, hline, -⟩ := List.map_eq_cons_iff.mp hrest
  refine ⟨preceding, written, following, hsplit, hline, ?_⟩
  intro other ho
  have hm : trim other ∈ x ++ above := hover ▸ List.mem_map_of_mem ho
  exact (List.mem_append.mp hm).imp_left (hx _)

theorem line_isInfix_of_splitLines {above below : List (List Char)}
    (hs : splitLines definition = above ++ line :: below) (hl : ¬Marked line)
    (ha : ∀ other ∈ above, ¬Marked other) : line <:+: keyPart definition := by
  obtain ⟨preceding, written, following, hw, rfl, ho⟩ := exists_written hs
  have hr : ∀ other ∈ preceding, ¬Marked other := by
    intro other hm
    rw [← marked_trim_iff]
    rcases ho other hm with hb | hm
    · rw [hb]
      decide
    · exact ha _ hm
  exact (trim_isInfix written).trans (line_isInfix_keyPart hw (marked_trim_iff.not.mp hl) hr)

theorem mem_takeWhile_append {α : Type} {p : α → Bool} {a : α} {l₁ l₂ : List α}
    (h : a ∈ (l₁ ++ l₂).takeWhile p) : a ∈ l₁.takeWhile p ∨ a ∈ l₂.takeWhile p := by
  rw [List.takeWhile_append] at h
  split at h
  · next hl =>
    rw [(List.takeWhile_prefix p).eq_of_length hl]
    exact List.mem_append.mp h
  · exact .inl h

theorem exists_keyLine_of_isInfix_keyPart (hp : trim piece = piece) (hne : piece ≠ [])
    (hn : '\n' ∉ piece) (h : piece <:+: keyPart definition) :
    ∃ line ∈ keyLines definition, piece <:+: line := by
  obtain ⟨raw, hraw, hi⟩ := exists_rawLine_of_isInfix_keyPart hp hne hn h
  obtain ⟨x, y, hx, hy, hmap⟩ := exists_map_trim_splitAt definition
  have hi' : piece <:+: trim raw := (isInfix_trim_iff hp hne).mpr hi
  have hnil : trim raw ≠ [] := by
    intro he
    rw [he, List.infix_nil] at hi'
    exact hne hi'
  have hm : trim raw ∈
      (x ++ (splitLines definition ++ y)).takeWhile (lineKind · != .separator) := by
    rw [← hmap, List.takeWhile_map]
    exact List.mem_map_of_mem hraw
  -- Only blank lines were added to those of the definition.
  rcases mem_takeWhile_append hm with hb | hm
  · exact absurd (hx _ ((List.takeWhile_prefix _).subset hb)) hnil
  · rcases mem_takeWhile_append hm with hk | hb
    · exact ⟨_, hk, hi'⟩
    · exact absurd (hy _ ((List.takeWhile_prefix _).subset hb)) hnil

end TableLint.Rule
