import TableLint.Proofs.Cutting
import TableLint.Source.Lines

/-!
Places and offsets. Offsets and columns count bytes of the UTF-8 form, so an offset may also fall
inside a character. Going from an offset to its line and column and back gives the offset again, and
the text of a line stands at its first column, with a line end or the end of the text after it.
-/
namespace TableLint.Text

variable {x s : List Char}

/-! ### Bytes -/

/-- The bytes of a text in UTF-8. -/
def utf8 (s : List Char) : List UInt8 := s.flatMap String.utf8EncodeChar

@[simp] theorem utf8_append (s t : List Char) : utf8 (s ++ t) = utf8 s ++ utf8 t :=
  List.flatMap_append

@[simp] theorem length_utf8 (s : List Char) : (utf8 s).length = byteLength s := by
  induction s with
  | nil => rfl
  | cons c s ih => simpa [utf8] using ih

/-- The byte of a line feed. -/
def newlineByte : UInt8 := 10

theorem utf8_newline_cons (s : List Char) : utf8 ('\n' :: s) = newlineByte :: utf8 s := rfl

/-- In UTF-8 the byte of a line feed stands for nothing else: the bytes of longer characters start
at 128. -/
theorem eq_newline_of_mem {c : Char} (h : newlineByte ∈ String.utf8EncodeChar c) : c = '\n' := by
  have hn : c.val.toNat = 10 := by
    revert h
    fun_cases String.utf8EncodeChar c
    all_goals
      simp only [newlineByte, List.mem_cons, List.not_mem_nil, or_false, ← UInt8.toNat_inj,
        UInt8.toNat_ofNat', UInt8.reduceToNat]
      omega
  exact Char.ext (UInt32.toNat_inj.mp hn)

theorem newlineByte_not_mem (h : '\n' ∉ x) : newlineByte ∉ utf8 x := by
  intro hm
  obtain ⟨c, hc, hb⟩ := List.mem_flatMap.mp hm
  exact h (eq_newline_of_mem hb ▸ hc)

/-! ### Lines -/

theorem rawLines_of_not_mem (h : '\n' ∉ x) (hne : x ≠ []) : rawLines x = [x] := by
  induction x with
  | nil => exact absurd rfl hne
  | cons c x ih =>
    rw [List.mem_cons, not_or] at h
    have hc : (c == '\n') = false := by simpa using Ne.symm h.1
    rw [rawLines, hc, if_neg Bool.false_ne_true]
    cases x with
    | nil => rfl
    | cons d x => rw [ih h.2 (by simp)]

/-- The first line goes up to the first line feed. -/
theorem rawLines_line (h : '\n' ∉ x) (s : List Char) :
    rawLines (x ++ '\n' :: s) = (x ++ ['\n']) :: rawLines s := by
  induction x with
  | nil => simp [rawLines]
  | cons c x ih =>
    rw [List.mem_cons, not_or] at h
    have hc : (c == '\n') = false := by simpa using Ne.symm h.1
    rw [List.cons_append, rawLines, hc, if_neg Bool.false_ne_true, ih h.2, List.cons_append]

/-- A text is its last line, or a first line and the text below it. -/
@[elab_as_elim] theorem lineInduction {motive : List Char → Prop}
    (last : ∀ x, '\n' ∉ x → motive x)
    (line : ∀ x s, '\n' ∉ x → motive s → motive (x ++ '\n' :: s)) (s : List Char) : motive s := by
  by_cases hm : '\n' ∈ s
  · obtain ⟨x, t, hs, hx⟩ := List.eq_append_cons_of_mem hm
    have ht : t.length < s.length := by
      rw [hs, List.length_append, List.length_cons]
      omega
    rw [hs]
    exact line x t hx (lineInduction last line t)
  · exact last s hm
termination_by s.length

theorem withoutEnd_of_not_mem (h : '\n' ∉ x) : withoutEnd x = x := by
  rw [← List.mem_reverse] at h
  rw [withoutEnd]
  split
  · next hr => simp [hr] at h
  · next hr => simp [hr] at h
  · rfl

/-- The line end is a line feed, with a carriage return in front of it if there is one. -/
theorem withoutEnd_concat (x : List Char) :
    (x.getLast? ≠ some '\r' ∧ withoutEnd (x ++ ['\n']) = x) ∨
      ∃ y, x = y ++ ['\r'] ∧ withoutEnd (x ++ ['\n']) = y := by
  rcases List.eq_nil_or_concat' x with rfl | ⟨y, c, rfl⟩
  · exact .inl ⟨by simp, rfl⟩
  · by_cases hc : c = '\r'
    · exact .inr ⟨y, by rw [hc], by simp [withoutEnd, hc]⟩
    · exact .inl ⟨by simpa using hc, by simp [withoutEnd, hc]⟩

/-- The number of lines: the line feeds, and one more for text after the last of them. -/
def lineCount (s : List Char) : Nat :=
  s.count '\n' + if s.getLast?.all (· == '\n') then 0 else 1

theorem lineCount_line (h : '\n' ∉ x) (s : List Char) :
    lineCount (x ++ '\n' :: s) = lineCount s + 1 := by
  have hlast : (x ++ '\n' :: s).getLast?.all (· == '\n') = s.getLast?.all (· == '\n') := by
    cases s with
    | nil => simp
    | cons c s =>
      rw [List.getLast?_append, List.getLast?_cons_cons, List.getLast?_cons, Option.some_or]
  rw [lineCount, hlast, List.count_append, List.count_cons_self, List.count_eq_zero_of_not_mem h,
    lineCount]
  omega

theorem length_rawLines (s : List Char) : (rawLines s).length = lineCount s := by
  induction s using lineInduction with
  | last x hx =>
    cases hlast : x.getLast? with
    | none =>
      obtain rfl := List.getLast?_eq_none_iff.mp hlast
      rfl
    | some c =>
      have hc : (c == '\n') = false := by
        rw [beq_eq_false_iff_ne]
        rintro rfl
        exact hx (List.mem_of_getLast? hlast)
      have hne : x ≠ [] := by
        rintro rfl
        cases hlast
      rw [rawLines_of_not_mem hx hne, lineCount, hlast, List.count_eq_zero_of_not_mem hx]
      simp [hc]
  | line x s hx ih => rw [rawLines_line hx, lineCount_line hx, List.length_cons, ih]

end TableLint.Text

namespace TableLint.Source

open Text

variable {x content t : List Char} {line offset : Nat}

/-! ### From an offset to its place -/

/-- The line of an offset: one more than the line feeds before it. -/
def lineAt (content : List Char) (offset : Nat) : Nat :=
  1 + ((utf8 content).take offset).count newlineByte

/-- The column of an offset: one more than the bytes since the last line feed or the start. -/
def columnAt (content : List Char) (offset : Nat) : Nat :=
  1 + (((utf8 content).take offset).reverse.takeWhile (· != newlineByte)).length

/-- The bytes before an offset in the first line have no line feed among them. -/
theorem newlineByte_not_mem_take (h : '\n' ∉ x) (s : List Char) (ho : offset ≤ byteLength x) :
    newlineByte ∉ (utf8 (x ++ s)).take offset := by
  rw [utf8_append, List.take_append_of_le_length (by simpa using ho)]
  exact fun hm => newlineByte_not_mem h (List.mem_of_mem_take hm)

theorem lineAt_first (h : '\n' ∉ x) (s : List Char) (ho : offset ≤ byteLength x) :
    lineAt (x ++ s) offset = 1 := by
  rw [lineAt, List.count_eq_zero_of_not_mem (newlineByte_not_mem_take h s ho)]

theorem columnAt_first (h : '\n' ∉ x) (s : List Char) (ho : offset ≤ byteLength x) :
    columnAt (x ++ s) offset = 1 + offset := by
  have hall : ∀ b ∈ ((utf8 (x ++ s)).take offset).reverse, (b != newlineByte) = true := by
    intro b hb
    rw [bne_iff_ne]
    rintro rfl
    exact newlineByte_not_mem_take h s ho (List.mem_reverse.mp hb)
  rw [columnAt, List.takeWhile_eq_self_iff.mpr hall, List.length_reverse, List.length_take,
    length_utf8, byteLength_append]
  omega

/-- The bytes before an offset below the first line. -/
theorem take_utf8_below (x s : List Char) (offset : Nat) :
    (utf8 (x ++ '\n' :: s)).take (byteLength x + 1 + offset) =
      utf8 x ++ newlineByte :: (utf8 s).take offset := by
  have hlen : byteLength x + 1 + offset = (utf8 x).length + (offset + 1) := by
    rw [length_utf8]
    omega
  rw [utf8_append, hlen, List.take_length_add_append, utf8_newline_cons, List.take_succ_cons]

theorem lineAt_below (h : '\n' ∉ x) (s : List Char) (offset : Nat) :
    lineAt (x ++ '\n' :: s) (byteLength x + 1 + offset) = lineAt s offset + 1 := by
  rw [lineAt, take_utf8_below, List.count_append, List.count_cons_self,
    List.count_eq_zero_of_not_mem (newlineByte_not_mem h), lineAt]
  omega

theorem columnAt_below (x s : List Char) (offset : Nat) :
    columnAt (x ++ '\n' :: s) (byteLength x + 1 + offset) = columnAt s offset := by
  rw [columnAt, take_utf8_below, List.reverse_append, List.reverse_cons, List.append_assoc,
    List.takeWhile_append, columnAt]
  split
  · simp_all
  · rfl

/-! ### From a place to its offset -/

theorem offsetOf_first (h : '\n' ∉ x) (s : List Char) (column : Nat) :
    offsetOf (x ++ '\n' :: s) 1 column = column - 1 := by
  simp [offsetOf, rawLines_line h]

theorem offsetOf_below (h : '\n' ∉ x) (s : List Char) (n column : Nat) :
    offsetOf (x ++ '\n' :: s) (n + 2) column = byteLength x + 1 + offsetOf s (n + 1) column := by
  have hlen : ('\n').utf8Size = 1 := rfl
  simp only [offsetOf, rawLines_line h, List.take_succ_cons, List.flatten_cons, byteLength_append,
    byteLength_cons, byteLength_nil, List.length_cons, hlen]
  split <;> split <;> omega

theorem offsetOf_lineAt (content : List Char) :
    ∀ offset ≤ byteLength content,
      offsetOf content (lineAt content offset) (columnAt content offset) = offset := by
  induction content using lineInduction with
  | last x hx =>
    intro offset ho
    have hline := lineAt_first hx [] ho
    have hcolumn := columnAt_first hx [] ho
    rw [List.append_nil] at hline hcolumn
    rw [hline, hcolumn]
    by_cases hne : x = []
    · subst hne
      exact (Nat.le_zero.mp ho).symm
    · simp [offsetOf, rawLines_of_not_mem hx hne]
  | line x s hx ih =>
    intro offset ho
    by_cases hfirst : offset ≤ byteLength x
    · rw [lineAt_first hx _ hfirst, columnAt_first hx _ hfirst, offsetOf_first hx]
      omega
    · have hlen : ('\n').utf8Size = 1 := rfl
      rw [byteLength_append, byteLength_cons, hlen] at ho
      obtain ⟨below, rfl⟩ : ∃ below, offset = byteLength x + 1 + below :=
        ⟨offset - (byteLength x + 1), by omega⟩
      have hbelow := ih below (by omega)
      rw [lineAt_below hx, columnAt_below, lineAt, Nat.add_comm 1, offsetOf_below hx]
      rw [lineAt, Nat.add_comm 1] at hbelow
      rw [hbelow]

/-! ### The text of a line -/

/-- The text goes on with the line `t`: a line end comes after it, or nothing at all. -/
inductive StartsWithLine (t : List Char) : List Char → Prop where
  | feed (rest : List Char) (h : t.getLast? ≠ some '\r') : StartsWithLine t (t ++ '\n' :: rest)
  | returnFeed (rest : List Char) : StartsWithLine t (t ++ '\r' :: '\n' :: rest)
  | last : StartsWithLine t t

theorem startsWithLine_withoutEnd (x s : List Char) :
    StartsWithLine (withoutEnd (x ++ ['\n'])) (x ++ '\n' :: s) := by
  obtain ⟨hlast, he⟩ | ⟨y, rfl, he⟩ := withoutEnd_concat x
  · rw [he]
    exact .feed s hlast
  · rw [he]
    have h := StartsWithLine.returnFeed (t := y) s
    simpa using h

theorem newline_not_mem_withoutEnd (h : '\n' ∉ x) : '\n' ∉ withoutEnd (x ++ ['\n']) := by
  obtain ⟨-, he⟩ | ⟨y, rfl, he⟩ := withoutEnd_concat x
  · rwa [he]
  · rw [he]
    exact fun hm => h (List.mem_append_left _ hm)

/-- The lines below the first one are those of the text below it. -/
theorem lineText?_below (h : '\n' ∉ x) (s : List Char) (n : Nat) :
    lineText? (x ++ '\n' :: s) (n + 2) = lineText? s (n + 1) := by
  simp [lineText?, lines, rawLines_line h]

theorem exists_startsWithLine (content : List Char) :
    ∀ n t, lineText? content (n + 1) = some t → '\n' ∉ t ∧ ∃ before after,
      content = before ++ after ∧ byteLength before = offsetOf content (n + 1) 1 ∧
        StartsWithLine t after := by
  induction content using lineInduction with
  | last x hx =>
    intro n t ht
    have hne : x ≠ [] := by
      rintro rfl
      cases ht
    -- There is one line only, and it has no line end.
    obtain ⟨rfl, rfl⟩ : n = 0 ∧ x = t := by
      cases n with
      | zero =>
        have he : withoutEnd x = t := by
          simpa [lineText?, lines, rawLines_of_not_mem hx hne] using ht
        exact ⟨rfl, by rw [← he, withoutEnd_of_not_mem hx]⟩
      | succ n => simp [lineText?, lines, rawLines_of_not_mem hx hne] at ht
    exact ⟨hx, [], x, rfl, by simp [offsetOf, rawLines_of_not_mem hx hne], .last⟩
  | line x s hx ih =>
    intro n t ht
    cases n with
    | zero =>
      have he : withoutEnd (x ++ ['\n']) = t := by
        simpa [lineText?, lines, rawLines_line hx] using ht
      subst he
      refine ⟨newline_not_mem_withoutEnd hx, [], x ++ '\n' :: s, rfl, ?_, ?_⟩
      · rw [offsetOf_first hx, byteLength_nil]
      · exact startsWithLine_withoutEnd x s
    | succ n =>
      rw [lineText?_below hx] at ht
      obtain ⟨hn, before, after, rfl, hoffset, hafter⟩ := ih n t ht
      have hlen : ('\n').utf8Size = 1 := rfl
      refine ⟨hn, x ++ '\n' :: before, after, by simp, ?_, hafter⟩
      rw [offsetOf_below hx, ← hoffset, byteLength_append, byteLength_cons, hlen]
      omega

theorem lineText?_eq_none_iff (content : List Char) (line : Nat) :
    lineText? content line = none ↔ line = 0 ∨ lineCount content < line := by
  cases line with
  | zero => simp [lineText?]
  | succ n =>
    rw [lineText?, List.getElem?_eq_none_iff, lines, List.length_map, length_rawLines]
    omega

/-- An offset is found again from its line and column, wherever it falls between the start and the
end of the text. The lines with a text are those up to the last one, and each stands at its first
column: there the text goes on with it, and no line feed comes before its end. -/
theorem offsetOf_inverse (content : List Char) :
    (∀ offset ≤ byteLength content,
      offsetOf content (lineAt content offset) (columnAt content offset) = offset) ∧
      (∀ line t, lineText? content line = some t → '\n' ∉ t ∧ ∃ before after,
        content = before ++ after ∧ byteLength before = offsetOf content line 1 ∧
          StartsWithLine t after) ∧
      ∀ line, lineText? content line = none ↔ line = 0 ∨ lineCount content < line := by
  refine ⟨offsetOf_lineAt content, ?_, lineText?_eq_none_iff content⟩
  intro line t ht
  cases line with
  | zero => cases ht
  | succ n => exact exists_startsWithLine content n t ht

/-- An offset inside a character, and the place after the last line end. -/
theorem offsetOf_inverse_accent :
    (lineAt "\r\né\r\n".toList 3 = 2 ∧ columnAt "\r\né\r\n".toList 3 = 2 ∧
      offsetOf "\r\né\r\n".toList 2 2 = 3) ∧
      (lineAt "\r\né\r\n".toList 6 = 3 ∧ offsetOf "\r\né\r\n".toList 3 1 = 6) ∧
      lineText? "\r\né\r\n".toList 2 = some "é".toList ∧
      lineText? "\r\né\r\n".toList 3 = none := by
  have h := offsetOf_inverse "\r\né\r\n".toList
  have hinside := h.1 3 (by decide)
  have hend := h.1 6 (by decide)
  exact ⟨⟨by decide, by decide, hinside⟩, ⟨by decide, hend⟩, by decide,
    (h.2.2 3).mpr (.inr (by decide))⟩

end TableLint.Source
