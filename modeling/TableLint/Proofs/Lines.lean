import TableLint.Definition.Declaration
import TableLint.Proofs.Cutting

/-!
The lines of a text that is continued. Where two texts meet, the last piece of the one joins the
first piece of the other, and all other pieces stay as they are. So a definition that goes on below
its last line keeps the lines it has.
-/
namespace TableLint.Text

variable {separator : Char} {piece s t x y : List Char}

theorem splitAt_ne_nil (separator : Char) (s : List Char) : splitAt separator s ≠ [] := by
  cases s with
  | nil => simp [splitAt]
  | cons c s =>
    rw [splitAt]
    split
    · simp
    · split <;> simp

theorem splitAt_cons_self (separator : Char) (s : List Char) :
    splitAt separator (separator :: s) = [] :: splitAt separator s := by
  simp [splitAt]

theorem splitAt_cons_of_ne {c : Char} {pieces : List (List Char)} (hc : c ≠ separator)
    (hs : splitAt separator s = piece :: pieces) :
    splitAt separator (c :: s) = (c :: piece) :: pieces := by
  simp [splitAt, hc, hs]

theorem splitAt_of_not_mem (h : separator ∉ s) : splitAt separator s = [s] := by
  induction s with
  | nil => rfl
  | cons c s ih =>
    rw [List.mem_cons, not_or] at h
    exact splitAt_cons_of_ne (Ne.symm h.1) (ih h.2)

theorem not_mem_of_mem_splitAt (h : piece ∈ splitAt separator s) : separator ∉ piece := by
  induction s generalizing piece with
  | nil =>
    obtain rfl := List.mem_singleton.mp h
    simp
  | cons c s ih =>
    by_cases hc : c = separator
    · subst hc
      rw [splitAt_cons_self] at h
      rcases List.mem_cons.mp h with rfl | hm
      · simp
      · exact ih hm
    · obtain ⟨first, others, hs⟩ := List.exists_cons_of_ne_nil (splitAt_ne_nil separator s)
      rw [hs] at ih
      rw [splitAt_cons_of_ne hc hs] at h
      rcases List.mem_cons.mp h with rfl | hm
      · simp [Ne.symm hc, ih List.mem_cons_self]
      · exact ih (List.mem_cons_of_mem first hm)

/-- The pieces of a concatenation. -/
theorem exists_splitAt_append (separator : Char) (x y : List Char) :
    ∃ front last first others, splitAt separator x = front ++ [last] ∧
      splitAt separator y = first :: others ∧
      splitAt separator (x ++ y) = front ++ (last ++ first) :: others := by
  induction x with
  | nil =>
    obtain ⟨first, others, hy⟩ := List.exists_cons_of_ne_nil (splitAt_ne_nil separator y)
    exact ⟨[], [], first, others, rfl, hy, hy⟩
  | cons c x ih =>
    obtain ⟨front, last, first, others, hx, hy, hxy⟩ := ih
    by_cases hc : c = separator
    · subst hc
      refine ⟨[] :: front, last, first, others, ?_, hy, ?_⟩
      · rw [splitAt_cons_self, hx, List.cons_append]
      · rw [List.cons_append, splitAt_cons_self, hxy, List.cons_append]
    · -- The character belongs to the first piece, which is the last one if `front` is empty.
      cases front with
      | nil =>
        refine ⟨[], c :: last, first, others, splitAt_cons_of_ne hc hx, hy, ?_⟩
        exact splitAt_cons_of_ne hc hxy
      | cons piece front =>
        refine ⟨(c :: piece) :: front, last, first, others, splitAt_cons_of_ne hc hx, hy, ?_⟩
        exact splitAt_cons_of_ne hc hxy

/-- A separator between two texts keeps their pieces apart. -/
theorem splitAt_append_cons (separator : Char) (x y : List Char) :
    splitAt separator (x ++ separator :: y) = splitAt separator x ++ splitAt separator y := by
  obtain ⟨front, last, first, others, hx, hy, hxy⟩ :=
    exists_splitAt_append separator x (separator :: y)
  rw [splitAt_cons_self] at hy
  obtain ⟨rfl, rfl⟩ := List.cons.inj hy
  rw [hxy, hx]
  simp

/-- Splitting undoes joining. -/
theorem splitAt_intercalate {pieces : List (List Char)} (h : ∀ piece ∈ pieces, separator ∉ piece)
    (hne : pieces ≠ []) : splitAt separator ([separator].intercalate pieces) = pieces := by
  induction pieces with
  | nil => exact absurd rfl hne
  | cons piece pieces ih =>
    have hp := splitAt_of_not_mem (h piece List.mem_cons_self)
    cases pieces with
    | nil => simpa using hp
    | cons second others =>
      have hrest := ih (fun q hq => h q (List.mem_cons_of_mem piece hq)) (by simp)
      rw [List.intercalate_cons_cons, List.append_assoc, List.singleton_append,
        splitAt_append_cons, hp, hrest]
      rfl

/-- A text is its only piece, or its first piece and the text of the others. -/
theorem eq_of_splitAt_eq_cons {pieces : List (List Char)}
    (h : splitAt separator s = piece :: pieces) :
    (pieces = [] ∧ s = piece) ∨
      ∃ t, s = piece ++ separator :: t ∧ splitAt separator t = pieces := by
  by_cases hm : separator ∈ s
  · obtain ⟨u, t, rfl, hu⟩ := List.eq_append_cons_of_mem hm
    rw [splitAt_append_cons, splitAt_of_not_mem hu] at h
    obtain ⟨rfl, rfl⟩ := List.cons.inj h
    exact .inr ⟨t, rfl, rfl⟩
  · rw [splitAt_of_not_mem hm] at h
    obtain ⟨rfl, rfl⟩ := List.cons.inj h
    exact .inl ⟨rfl, rfl⟩

/-- The pieces are parts of the text. -/
theorem isInfix_of_mem_splitAt (h : piece ∈ splitAt separator s) : piece <:+: s := by
  generalize hs : splitAt separator s = pieces at h
  induction pieces generalizing s with
  | nil => cases h
  | cons first others ih =>
    obtain ⟨rfl, rfl⟩ | ⟨t, rfl, ht⟩ := eq_of_splitAt_eq_cons hs
    · rw [List.mem_singleton.mp h]
    · rcases List.mem_cons.mp h with rfl | hm
      · exact (List.prefix_append _ _).isInfix
      · have ht' : t <:+ first ++ separator :: t :=
          (List.suffix_cons separator t).trans (List.suffix_append first _)
        exact (ih ht hm).trans ht'.isInfix

/-! ### Cutting a text that is continued -/

/-- A piece within one line that is not found above a newline is looked for below it. -/
theorem cut?_line (h : '\n' ∉ piece) (hx : ¬piece <:+: x) (y : List Char) :
    cut? piece (x ++ '\n' :: y) =
      (cut? piece y).map fun (before, after) => (x ++ '\n' :: before, after) := by
  have hs : Skips piece x ('\n' :: y) := by
    apply skips_of_not_isInfix hx
    intro c hc hm
    obtain rfl := Option.some.inj hc
    exact h (List.mem_of_mem_tail hm)
  have hp : ¬piece <+: '\n' :: y := by
    intro hp
    cases piece with
    | nil => exact hx List.nil_infix
    | cons c piece =>
      obtain ⟨rfl, -⟩ := List.cons_prefix_cons.mp hp
      exact h List.mem_cons_self
  rw [cut?_append hs, cut?_cons hp]
  cases cut? piece y <;> rfl

theorem upTo_line (h : '\n' ∉ piece) (hx : ¬piece <:+: x) (y : List Char) :
    upTo piece (x ++ '\n' :: y) = x ++ '\n' :: upTo piece y := by
  rw [upTo, cut?_line h hx, upTo]
  cases cut? piece y <;> rfl

/-- What is cut off at a piece does not depend on what comes after it. -/
theorem upTo_append_of_isInfix (h : piece <:+: x) (y : List Char) :
    upTo piece (x ++ y) = upTo piece x := by
  obtain ⟨⟨before, after⟩, hc⟩ := Option.isSome_iff_exists.mp (occursIn_iff.mpr h)
  rw [upTo, cut?_append_right hc, upTo, hc]

/-- A piece within one line is found above, or it is looked for further below. -/
theorem upTo_continued (h : '\n' ∉ piece) (x y : List Char) :
    upTo piece (x ++ '\n' :: y) = upTo piece x ∨
      upTo piece x = x ∧ ∃ z, upTo piece (x ++ '\n' :: y) = x ++ '\n' :: z := by
  by_cases hx : piece <:+: x
  · exact .inl (upTo_append_of_isInfix hx _)
  · exact .inr ⟨upTo_of_not_isInfix hx, _, upTo_line h hx y⟩

/-- A piece within one line occurs above a newline or below it. -/
theorem isInfix_line_iff (h : '\n' ∉ piece) (x y : List Char) :
    piece <:+: x ++ '\n' :: y ↔ piece <:+: x ∨ piece <:+: y := by
  constructor
  · intro hi
    by_cases hx : piece <:+: x
    · exact .inl hx
    · right
      -- The piece is cut off below the newline, where it would not be without an occurrence.
      by_contra hy
      have hs : cut? piece (x ++ '\n' :: y) = none := by
        rw [cut?_line h hx, cut?_eq_none_iff.mpr hy]
        rfl
      exact cut?_eq_none_iff.mp hs hi
  · rintro (hx | hy)
    · exact hx.trans (List.prefix_append x _).isInfix
    · exact hy.trans ((List.suffix_cons '\n' y).trans (List.suffix_append x _)).isInfix

/-! ### Trimming a text that is continued -/

theorem trimEnd_append_of_not_allBlank (h : ¬AllBlank t) : trimEnd (s ++ t) = s ++ trimEnd t := by
  have hr : ¬(t.reverse.dropWhile isBlank).isEmpty = true := by
    intro he
    rw [List.isEmpty_iff, List.dropWhile_eq_nil_iff] at he
    exact h fun c hc => he c (List.mem_reverse.mpr hc)
  rw [trimEnd, List.reverse_append, List.dropWhile_append, if_neg hr, List.reverse_append,
    List.reverse_reverse, trimEnd]

theorem trimEnd_eq_nil (h : AllBlank s) : trimEnd s = [] := by
  simpa [trimEnd] using trimEnd_append (s := []) h

theorem trimEnd_trimEnd (s : List Char) : trimEnd (trimEnd s) = trimEnd s := by
  obtain ⟨y, hy, hs⟩ := exists_eq_trimEnd_append s
  rw [← trimEnd_append hy, ← hs]

theorem trimStart_append_of_not_allBlank (h : ¬AllBlank s) :
    trimStart (s ++ t) = trimStart s ++ t := by
  have hs : ¬(s.dropWhile isBlank).isEmpty = true := by
    rw [List.isEmpty_iff]
    exact fun he => h (trimStart_eq_nil_iff.mp he)
  rw [trimStart, List.dropWhile_append, if_neg hs, trimStart]

/-- Blanks at the end make no difference. -/
theorem trim_append_of_allBlank (h : AllBlank t) : trim (s ++ t) = trim s := by
  by_cases hs : AllBlank s
  · rw [trim_eq_nil hs, trim_eq_nil (allBlank_append.mpr ⟨hs, h⟩)]
  · rw [trim, trimStart_append_of_not_allBlank hs, trimEnd_append h, trim]

/-- A text that is continued keeps what trimming leaves of it; the blanks at its end come back. -/
theorem exists_trim_append (h : ¬AllBlank s) (t : List Char) :
    ∃ y, AllBlank y ∧ trim (s ++ t) = trim s ++ trimEnd (y ++ t) := by
  obtain ⟨y, hy, hs⟩ := exists_eq_trimEnd_append (trimStart s)
  refine ⟨y, hy, ?_⟩
  have hc : trimStart (s ++ t) = trim s ++ (y ++ t) := by
    rw [trimStart_append_of_not_allBlank h, trim, ← List.append_assoc, ← hs]
  rw [trim, hc]
  by_cases hb : AllBlank (y ++ t)
  · rw [trimEnd_append hb, trimEnd_eq_nil hb, List.append_nil, trim, trimEnd_trimEnd]
  · exact trimEnd_append_of_not_allBlank hb

/-- Blanks in front make no difference. -/
theorem trim_append_left (h : AllBlank x) : trim (x ++ s) = trim s := by
  rw [trim, trimStart_append h, trim]

/-- Blanks around a trimmed text are all that trimming takes away. -/
theorem trim_blank_append_trimmed (hx : AllBlank x) (hs : trim s = s) (hy : AllBlank y) :
    trim (x ++ (s ++ y)) = s := by
  rw [trim_append_left hx, trim_append_of_allBlank hy, hs]

/-- Blanks at the end of a text change none of its lines, trimmed, and may add blank ones. -/
theorem exists_map_trim_splitAt_append (separator : Char) (s : List Char) (hy : AllBlank y) :
    ∃ blanks, (∀ line ∈ blanks, line = []) ∧
      (splitAt separator (s ++ y)).map trim = (splitAt separator s).map trim ++ blanks := by
  obtain ⟨front, last, first, others, hs, hf, hsy⟩ := exists_splitAt_append separator s y
  have hblank : ∀ piece ∈ splitAt separator y, AllBlank piece := fun piece hp c hc =>
    hy c ((isInfix_of_mem_splitAt hp).subset hc)
  refine ⟨others.map trim, ?_, ?_⟩
  · intro line hl
    obtain ⟨piece, hp, rfl⟩ := List.mem_map.mp hl
    exact trim_eq_nil (hblank piece (by simp [hf, hp]))
  · have hb : AllBlank first := hblank first (by simp [hf])
    rw [hs, hsy]
    simp [trim_append_of_allBlank hb]

theorem map_trim_splitAt_isPrefix (hy : AllBlank y) :
    (splitAt separator s).map trim <+: (splitAt separator (s ++ y)).map trim := by
  obtain ⟨blanks, -, he⟩ := exists_map_trim_splitAt_append separator s hy
  rw [he]
  exact List.prefix_append _ _

/-- So do blanks in front of it. -/
theorem exists_map_trim_blank_append (separator : Char) (hx : AllBlank x) (s : List Char) :
    ∃ blanks, (∀ line ∈ blanks, line = []) ∧
      (splitAt separator (x ++ s)).map trim = blanks ++ (splitAt separator s).map trim := by
  obtain ⟨front, last, first, others, hf, hs, hxs⟩ := exists_splitAt_append separator x s
  have hblank : ∀ piece ∈ splitAt separator x, AllBlank piece := fun piece hp c hc =>
    hx c ((isInfix_of_mem_splitAt hp).subset hc)
  refine ⟨front.map trim, ?_, ?_⟩
  · intro line hl
    obtain ⟨piece, hp, rfl⟩ := List.mem_map.mp hl
    exact trim_eq_nil (hblank piece (by simp [hf, hp]))
  · have hb : AllBlank last := hblank last (by simp [hf])
    rw [hs, hxs]
    simp [trim_append_left hb]

/-- Lines without text are dropped by everything that drops the empty line. -/
theorem filter_of_empty {p : List Char → Bool} {lines : List (List Char)} (hp : p [] = false)
    (h : ∀ line ∈ lines, line = []) : lines.filter p = [] := by
  rw [List.filter_eq_nil_iff]
  intro line hl
  rw [h line hl, hp]
  exact Bool.false_ne_true

/-- Where a text starts, its blanks apart, its trimmed part starts. -/
theorem head?_trim (s : List Char) : (trim s).head? = (trimStart s).head? := by
  obtain ⟨y, -, hs⟩ := exists_eq_trimEnd_append (trimStart s)
  cases ht : trim s with
  | nil => rw [trimStart_eq_nil_iff.mpr (allBlank_of_trim_eq_nil ht)]
  | cons c t =>
    rw [hs, ← trim, ht]
    rfl

/-- A trimmed text starts with no blank. -/
theorem isBlank_of_head?_trim {c : Char} (h : (trim s).head? = some c) :
    isBlank c = false := by
  have hd := List.head?_dropWhile_not isBlank s
  rw [← trimStart, ← head?_trim, h] at hd
  exact hd

/-- Nothing is trimmed at the end up to a character that is not blank. -/
theorem trimEnd_append_cons {c : Char} (hc : isBlank c = false) (x y : List Char) :
    trimEnd (x ++ c :: y) = x ++ c :: trimEnd y := by
  have hend : trimEnd (c :: y) = c :: trimEnd y := by
    by_cases hy : AllBlank y
    · have he : trimEnd ([] ++ [c]) = [] ++ [c] := trimEnd_concat hc
      rw [← List.singleton_append, trimEnd_append hy, trimEnd_eq_nil hy]
      exact he
    · exact trimEnd_append_of_not_allBlank (s := [c]) hy
  have hcy : ¬AllBlank (c :: y) := fun h => by simp [h c List.mem_cons_self] at hc
  rw [trimEnd_append_of_not_allBlank hcy, hend]

/-- What stands before a character that is not blank is trimmed at its start only, and what stands
after it at its end only. -/
theorem trim_append_cons {c : Char} (hc : isBlank c = false) (x y : List Char) :
    trim (x ++ c :: y) = trimStart x ++ c :: trimEnd y := by
  have hstart : trimStart (x ++ c :: y) = trimStart x ++ c :: y := by
    by_cases hx : AllBlank x
    · rw [trimStart_append hx, trimStart_cons hc, trimStart_eq_nil_iff.mpr hx, List.nil_append]
    · exact trimStart_append_of_not_allBlank hx
  rw [trim, hstart, trimEnd_append_cons hc]

/-- A text between two characters that are not blank is trimmed. -/
theorem trim_cons_concat {c d : Char} (hc : isBlank c = false) (hd : isBlank d = false)
    (s : List Char) : trim (c :: (s ++ [d])) = c :: (s ++ [d]) := by
  have h := trim_append_cons hc [] (s ++ [d])
  rw [trimEnd_concat hd] at h
  exact h

theorem trimStart_trim (s : List Char) : trimStart (trim s) = trim s := by
  cases ht : trim s with
  | nil => rfl
  | cons c t => exact trimStart_cons (isBlank_of_head?_trim (by rw [ht]; rfl))

@[simp] theorem trim_trim (s : List Char) : trim (trim s) = trim s := by
  rw [trim, trimStart_trim, trim, trimEnd_trimEnd]

theorem trim_trimStart (s : List Char) : trim (trimStart s) = trim s := by
  obtain ⟨x, hx, hs⟩ := exists_eq_append_trimStart s
  conv_rhs => rw [hs, trim_append_left hx]

theorem trim_trimEnd (s : List Char) : trim (trimEnd s) = trim s := by
  obtain ⟨y, hy, hs⟩ := exists_eq_trimEnd_append s
  conv_rhs => rw [hs, trim_append_of_allBlank hy]

theorem trim_isInfix (s : List Char) : trim s <:+: s := by
  obtain ⟨x, y, -, -, hs⟩ := exists_eq_append_trim s
  exact ⟨x, y, hs.symm⟩

theorem trimmed_ends (h : trim s = s) : trimStart s = s ∧ trimEnd s = s := by
  have hstart : trimStart s = s := by
    rw [← h, trimStart_trim]
  refine ⟨hstart, ?_⟩
  rw [trim, hstart] at h
  exact h

/-- A trimmed word in front keeps the text after it from being trimmed at its start. -/
theorem trim_word_append (h : trim s = s) (hne : s ≠ []) (t : List Char) :
    trim (s ++ t) = s ++ trimEnd t := by
  have hb : ¬AllBlank s := fun hs => hne (h ▸ trim_eq_nil hs)
  obtain ⟨hstart, hend⟩ := trimmed_ends h
  rw [trim, trimStart_append_of_not_allBlank hb, hstart]
  by_cases ht : AllBlank t
  · rw [trimEnd_append ht, hend, trimEnd_eq_nil ht, List.append_nil]
  · exact trimEnd_append_of_not_allBlank ht

/-- A piece without blanks at its ends is not touched when the text around it is trimmed. -/
theorem isInfix_trim_iff (hp : trim piece = piece) (hne : piece ≠ []) :
    piece <:+: trim s ↔ piece <:+: s := by
  have hb : ¬AllBlank piece := fun h => hne (hp ▸ trim_eq_nil h)
  obtain ⟨hstart, hend⟩ := trimmed_ends hp
  constructor
  · exact fun h => h.trans (trim_isInfix s)
  · rintro ⟨u, v, rfl⟩
    obtain ⟨u', hu⟩ : ∃ u', trimStart (u ++ piece ++ v) = u' ++ piece ++ v := by
      rw [List.append_assoc]
      by_cases h : AllBlank u
      · exact ⟨[], by rw [trimStart_append h, trimStart_append_of_not_allBlank hb, hstart]; rfl⟩
      · exact ⟨trimStart u, by rw [trimStart_append_of_not_allBlank h, List.append_assoc]⟩
    rw [trim, hu]
    by_cases h : AllBlank v
    · rw [trimEnd_append h, trimEnd_append_of_not_allBlank hb, hend]
      exact (List.suffix_append u' piece).isInfix
    · rw [trimEnd_append_of_not_allBlank h]
      exact ⟨u', trimEnd v, rfl⟩

end TableLint.Text

namespace TableLint.Definition

open Text

variable {line definition : List Char}

theorem isInfix_of_mem_splitLines (h : line ∈ splitLines definition) : line <:+: definition := by
  obtain ⟨piece, hp, rfl⟩ := List.mem_map.mp h
  exact ((trim_isInfix piece).trans (isInfix_of_mem_splitAt hp)).trans (trim_isInfix definition)

theorem trimStart_of_mem_splitLines (h : line ∈ splitLines definition) :
    trimStart line = line := by
  obtain ⟨piece, -, rfl⟩ := List.mem_map.mp h
  exact trimStart_trim piece

/-- The lines of a definition are those of its text, trimmed, blank lines at its ends apart. -/
theorem exists_map_trim_splitAt (definition : List Char) :
    ∃ x y, (∀ line ∈ x, line = []) ∧ (∀ line ∈ y, line = []) ∧
      (splitAt '\n' definition).map trim = x ++ (splitLines definition ++ y) := by
  obtain ⟨a, b, ha, hb, he⟩ := exists_eq_append_trim definition
  obtain ⟨y, hy, hey⟩ := exists_map_trim_splitAt_append '\n' (a ++ trim definition) hb
  obtain ⟨x, hx, hex⟩ := exists_map_trim_blank_append '\n' ha (trim definition)
  refine ⟨x, y, hx, hy, ?_⟩
  rw [he, hey, hex, ← he, splitLines, List.append_assoc]

/-- A definition that goes on below keeps its lines. -/
theorem splitLines_isPrefix (h : ¬AllBlank definition) (further : List Char) :
    splitLines definition <+: splitLines (definition ++ '\n' :: further) := by
  obtain ⟨y, hy, ht⟩ := exists_trim_append h ('\n' :: further)
  rw [splitLines, splitLines, ht]
  by_cases hf : AllBlank further
  · have hn : AllBlank (y ++ '\n' :: further) := by
      refine allBlank_append.mpr ⟨hy, ?_⟩
      intro c hc
      rcases List.mem_cons.mp hc with rfl | hm
      · decide
      · exact hf c hm
    rw [trimEnd_eq_nil hn, List.append_nil]
  · have he : trimEnd (y ++ '\n' :: further) = y ++ '\n' :: trimEnd further := by
      rw [← List.singleton_append, ← List.append_assoc, trimEnd_append_of_not_allBlank hf]
      simp
    rw [he, ← List.append_assoc, splitAt_append_cons, List.map_append]
    exact (map_trim_splitAt_isPrefix hy).trans (List.prefix_append _ _)

end TableLint.Definition
