import Mathlib.Logic.Relation
import TableLint.Proofs.Growth

/-!
The layout of a definition. Of a text only the first line that is not blank and, below it, the lines
that are neither blank nor comments are read, each without the blanks around it. Every change of the
layout keeps these lines, so reading gives the same declaration or the same problem. A comment may
be put in only below the first line with text, where it cannot become the comment of the table.
-/
namespace TableLint.Definition

open Text

variable {context : Context} {text above : List Char} {lines more : List (List Char)}

/-! ### The lines that count -/

/-- The first of the lines that is not empty, and the lines below it that are not skipped. -/
def significant : List (List Char) → List (List Char)
  | [] => []
  | line :: lines =>
    if line.isEmpty then significant lines else line :: lines.filter (lineKind · != .skipped)

/-- The lines of a text that count. -/
def significantLines (text : List Char) : List (List Char) :=
  significant ((splitAt '\n' text).map trim)

@[simp] theorem significant_nil_cons (lines : List (List Char)) :
    significant ([] :: lines) = significant lines := rfl

theorem significant_cons {line : List Char} (h : line ≠ []) (lines : List (List Char)) :
    significant (line :: lines) = line :: lines.filter (lineKind · != .skipped) := by
  simp [significant, h]

/-- Empty lines above all others do not count. -/
theorem significant_empty_append (h : ∀ line ∈ lines, line = []) (more : List (List Char)) :
    significant (lines ++ more) = significant more := by
  induction lines with
  | nil => rfl
  | cons line lines ih =>
    obtain rfl := h line List.mem_cons_self
    rw [List.cons_append, significant_nil_cons]
    exact ih fun other ho => h other (List.mem_cons_of_mem [] ho)

theorem significant_eq_nil (h : ∀ line ∈ lines, line = []) : significant lines = [] := by
  simpa [significant] using significant_empty_append h []

/-- Below a line with text the lines count that are not skipped. -/
theorem significant_append (h : ∃ line ∈ lines, line ≠ []) (more : List (List Char)) :
    significant (lines ++ more) = significant lines ++ more.filter (lineKind · != .skipped) := by
  induction lines with
  | nil =>
    obtain ⟨line, hm, -⟩ := h
    cases hm
  | cons line lines ih =>
    by_cases hl : line = []
    · subst hl
      obtain ⟨other, hm, hne⟩ := h
      rcases List.mem_cons.mp hm with rfl | hm
      · exact absurd rfl hne
      · exact ih ⟨other, hm, hne⟩
    · rw [List.cons_append, significant_cons hl, significant_cons hl, List.filter_append,
        List.cons_append]

/-! ### Reading the lines that count -/

/-- Reads a definition that is given by its lines. -/
def declareLines (context : Context) (lines : List (List Char)) : Except Problem Declaration :=
  let (tableComment, lines) := takeTableComment lines
  if tableComment.head? == some ':' then .error .tableComment
  else addLines context true { tableComment } lines

theorem addLine_of_skipped {line : List Char} (h : lineKind line = .skipped) (inKey : Bool)
    (d : Declaration) : addLine context inKey d line = .ok d := by
  rw [addLine, h]

/-- Skipped lines make no difference. -/
theorem addLines_filter (context : Context) (inKey : Bool) (d : Declaration)
    (lines : List (List Char)) :
    addLines context inKey d (lines.filter (lineKind · != .skipped)) =
      addLines context inKey d lines := by
  induction lines generalizing inKey d with
  | nil => rfl
  | cons line lines ih =>
    by_cases hl : lineKind line = .skipped
    · rw [List.filter_cons_of_neg (by simp [hl]), ih, addLines, addLine_of_skipped hl, hl]
      cases inKey <;> rfl
    · rw [List.filter_cons_of_pos (by simp [hl]), addLines, addLines]
      cases addLine context inKey d line with
      | error problem => rfl
      | ok e => exact ih _ e

theorem declareLines_append (context : Context) (h : lines ≠ []) (more : List (List Char)) :
    declareLines context (lines ++ more) =
      (declareLines context lines).bind fun d =>
        addLines context (lines.all (lineKind · != .separator)) d more := by
  have hall : lines.all (lineKind · != .separator) =
      (takeTableComment lines).2.all (lineKind · != .separator) := by
    obtain ⟨skipped, hs, hk⟩ := exists_eq_append_takeTableComment lines
    have hskip : skipped.all (lineKind · != .separator) = true := by
      rw [List.all_eq_true]
      intro line hl
      simp [hk line hl]
    conv_lhs => rw [hs, List.all_append, hskip, Bool.true_and]
  rw [declareLines, declareLines, takeTableComment_append h, hall]
  obtain ⟨comment, rest⟩ := takeTableComment lines
  simp only
  split
  · rfl
  · exact addLines_append context true _ rest more

theorem declareLines_cons_filter (context : Context) (line : List Char)
    (lines : List (List Char)) :
    declareLines context (line :: lines.filter (lineKind · != .skipped)) =
      declareLines context (line :: lines) := by
  have hline := declareLines_append context (List.cons_ne_nil line [])
  simp only [List.singleton_append] at hline
  rw [hline (lines.filter _), hline lines]
  simp only [addLines_filter]

/-- The first line of a text that is not blank is not empty. -/
theorem exists_splitLines_eq_cons (h : ¬AllBlank text) :
    ∃ first rest, splitLines text = first :: rest ∧ first ≠ [] := by
  obtain ⟨piece, pieces, hp⟩ := List.exists_cons_of_ne_nil (splitAt_ne_nil '\n' (trim text))
  refine ⟨trim piece, pieces.map trim, by rw [splitLines, hp, List.map_cons], ?_⟩
  cases ht : trim text with
  | nil => exact absurd (allBlank_of_trim_eq_nil ht) h
  | cons c t =>
    have hc : isBlank c = false := isBlank_of_head?_trim (by rw [ht]; rfl)
    have hm : c ∈ piece := by
      obtain ⟨-, he⟩ | ⟨t', he, -⟩ := eq_of_splitAt_eq_cons hp
      · rw [← he, ht]
        exact List.mem_cons_self
      · -- The first piece is not empty, since the text does not start with a newline.
        cases piece with
        | nil =>
          rw [ht] at he
          obtain ⟨rfl, -⟩ := List.cons.inj he
          cases hc
        | cons d piece =>
          rw [ht] at he
          obtain ⟨rfl, -⟩ := List.cons.inj he
          exact List.mem_cons_self
    exact List.ne_nil_of_mem (mem_trim hm hc)

theorem significantLines_eq_nil (h : AllBlank text) : significantLines text = [] := by
  apply significant_eq_nil
  intro line hl
  obtain ⟨piece, hp, rfl⟩ := List.mem_map.mp hl
  exact trim_eq_nil fun c hc => h c ((isInfix_of_mem_splitAt hp).subset hc)

theorem significantLines_eq (h : ¬AllBlank text) :
    significantLines text = significant (splitLines text) := by
  obtain ⟨x, y, hx, hy, he⟩ := exists_map_trim_splitAt text
  obtain ⟨first, rest, hs, hne⟩ := exists_splitLines_eq_cons h
  have hfirst : ∃ line ∈ splitLines text, line ≠ [] := ⟨first, by simp [hs], hne⟩
  have hlast : y.filter (lineKind · != .skipped) = [] := filter_of_empty (by decide) hy
  rw [significantLines, he, significant_empty_append hx, significant_append hfirst, hlast,
    List.append_nil]

/-- Reading a text is reading the lines of it that count. -/
theorem declare_eq_declareLines (context : Context) (text : List Char) :
    declare context text = declareLines context (significantLines text) := by
  by_cases h : AllBlank text
  · have hs : splitLines text = [[]] := by
      rw [splitLines, trim_eq_nil h]
      rfl
    rw [significantLines_eq_nil h, declare, hs]
    rfl
  · obtain ⟨first, rest, hs, hne⟩ := exists_splitLines_eq_cons h
    rw [significantLines_eq h, hs, significant_cons hne, declareLines_cons_filter, ← hs]
    rfl

/-! ### Reading on below -/

/-- No separator is skipped. -/
theorem all_significant (lines : List (List Char)) :
    (significant lines).all (lineKind · != .separator) = lines.all (lineKind · != .separator) := by
  induction lines with
  | nil => rfl
  | cons line lines ih =>
    by_cases hl : line = []
    · subst hl
      rw [significant_nil_cons, ih, List.all_cons]
      rfl
    · rw [significant_cons hl, List.all_cons, List.all_cons, List.all_filter]
      congr 2
      funext other
      cases lineKind other <;> rfl

/-- Below a text that is not blank reading goes on with every line of the rest, in the key if there
is no separator above. -/
theorem declare_below (context : Context) (h : ¬AllBlank above) (further : List Char) :
    declare context (above ++ '\n' :: further) =
      (declare context above).bind fun d =>
        addLines context ((splitLines above).all (lineKind · != .separator)) d
          ((splitAt '\n' further).map trim) := by
  obtain ⟨first, rest, hs, hne⟩ := exists_splitLines_eq_cons h
  have hsig : significantLines above ≠ [] := by
    rw [significantLines_eq h, hs, significant_cons hne]
    simp
  have htext : ∃ line ∈ (splitAt '\n' above).map trim, line ≠ [] := by
    by_contra hn
    exact hsig (significant_eq_nil (by simpa using hn))
  have happ : significantLines (above ++ '\n' :: further) = significantLines above ++
      ((splitAt '\n' further).map trim).filter (lineKind · != .skipped) := by
    rw [significantLines, splitAt_append_cons, List.map_append, significant_append htext]
    rfl
  rw [declare_eq_declareLines, declare_eq_declareLines context above, happ,
    declareLines_append context hsig, significantLines_eq h, all_significant]
  simp only [addLines_filter]

/-! ### Changes of the layout -/

/-- A change of the lines of a text that keeps what they say: blanks around a line, a blank line, or
a comment somewhere below a line with text. -/
inductive LayoutChange : List (List Char) → List (List Char) → Prop where
  | pad (above below : List (List Char)) (x line y : List Char) (hx : AllBlank x)
      (hy : AllBlank y) :
      LayoutChange (above ++ line :: below) (above ++ (x ++ (line ++ y)) :: below)
  | blank (above below : List (List Char)) (line : List Char) (hl : AllBlank line) :
      LayoutChange (above ++ below) (above ++ line :: below)
  | comment (above below : List (List Char)) (line : List Char)
      (ha : ∃ other ∈ above, ¬AllBlank other) (hl : (trimStart line).head? = some '#') :
      LayoutChange (above ++ below) (above ++ line :: below)

/-- The texts have the same lines up to changes of the layout, made or undone in any order. -/
def SameUpToLayout (s t : List Char) : Prop :=
  Relation.EqvGen LayoutChange (splitAt '\n' s) (splitAt '\n' t)

theorem lineKind_trim_of_comment {line : List Char} (h : (trimStart line).head? = some '#') :
    lineKind (trim line) = .skipped := by
  rw [← head?_trim] at h
  rw [lineKind, h]
  simp

/-- A change of the layout keeps the lines that count. -/
theorem significant_of_layoutChange {lines lines' : List (List Char)}
    (h : LayoutChange lines lines') :
    significant (lines.map trim) = significant (lines'.map trim) := by
  cases h with
  | pad above below x line y hx hy =>
    have ht : trim (x ++ (line ++ y)) = trim line := by
      rw [trim_append_left hx, trim_append_of_allBlank hy]
    simp only [List.map_append, List.map_cons, ht]
  | blank above below line hl =>
    rw [List.map_append, List.map_append, List.map_cons, trim_eq_nil hl]
    by_cases ha : ∃ other ∈ above.map trim, other ≠ []
    · rw [significant_append ha, significant_append ha]
      rfl
    · have he : ∀ other ∈ above.map trim, other = [] := by simpa using ha
      rw [significant_empty_append he, significant_empty_append he, significant_nil_cons]
  | comment above below line ha hl =>
    have hab : ∃ other ∈ above.map trim, other ≠ [] := by
      obtain ⟨other, hm, hb⟩ := ha
      exact ⟨trim other, List.mem_map_of_mem hm, fun he => hb (allBlank_of_trim_eq_nil he)⟩
    rw [List.map_append, List.map_append, List.map_cons, significant_append hab,
      significant_append hab, List.filter_cons_of_neg (by simp [lineKind_trim_of_comment hl])]

/-- So do all changes together. -/
theorem significant_of_eqvGen {lines lines' : List (List Char)}
    (h : Relation.EqvGen LayoutChange lines lines') :
    significant (lines.map trim) = significant (lines'.map trim) := by
  induction h with
  | rel lines lines' hc => exact significant_of_layoutChange hc
  | refl lines => rfl
  | symm lines lines' _ ih => exact ih.symm
  | trans lines lines' lines'' _ _ ih ih' => exact ih.trans ih'

/-- Reading a definition does not depend on its layout: with blanks put around its lines or taken
away there, with blank lines anywhere and with comments below its first line, it gives the same
declaration, or is refused for the same problem. -/
theorem declare_of_sameUpToLayout (context : Context) (s t : List Char) (h : SameUpToLayout s t) :
    declare context s = declare context t := by
  have hlines : significantLines s = significantLines t := significant_of_eqvGen h
  rw [declare_eq_declareLines, declare_eq_declareLines, hlines]

/-- A definition whose key is nullable, and the same with blanks, blank lines and a comment. -/
def denseText : List Char := "# scans\nid = null : int".toList

def looseText : List Char := "\n# scans \n\n  # the key\n\tid = null : int  \n".toList

theorem sameUpToLayout_looseText : SameUpToLayout denseText looseText := by
  have hcomment := LayoutChange.comment ["# scans".toList] ["id = null : int".toList]
    "  # the key".toList ⟨_, List.mem_singleton_self _, by decide⟩ (by decide)
  have hpad := LayoutChange.pad ["# scans".toList, "  # the key".toList] [] ['\t']
    "id = null : int".toList [' ', ' '] (by decide) (by decide)
  have hpad' := LayoutChange.pad [] ["  # the key".toList, "\tid = null : int  ".toList] []
    "# scans".toList [' '] (by decide) (by decide)
  have hblank := LayoutChange.blank ["# scans ".toList]
    ["  # the key".toList, "\tid = null : int  ".toList] [] (by decide)
  have hbefore := LayoutChange.blank []
    ["# scans ".toList, [], "  # the key".toList, "\tid = null : int  ".toList] [] (by decide)
  have hafter := LayoutChange.blank
    [[], "# scans ".toList, [], "  # the key".toList, "\tid = null : int  ".toList] [] []
    (by decide)
  exact ((((((Relation.EqvGen.rel _ _ hcomment).trans _ _ _ (.rel _ _ hpad)).trans _ _ _
    (.rel _ _ hpad')).trans _ _ _ (.rel _ _ hblank)).trans _ _ _ (.rel _ _ hbefore)).trans _ _ _
    (.rel _ _ hafter))

/-- The problem is the same, with the line that it quotes. -/
theorem declare_of_sameUpToLayout_loose :
    SameUpToLayout denseText looseText ∧
      declare {} denseText = .error (.nullableKey "id = null : int".toList) ∧
      declare {} looseText = .error (.nullableKey "id = null : int".toList) := by
  have h : declare {} denseText = .error (.nullableKey "id = null : int".toList) := by
    decide +kernel
  exact ⟨sameUpToLayout_looseText, h,
    (declare_of_sameUpToLayout {} denseText looseText sameUpToLayout_looseText).symm.trans h⟩

end TableLint.Definition
