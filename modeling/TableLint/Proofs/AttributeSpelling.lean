import TableLint.Definition.AttributeLine
import TableLint.Proofs.Lines
import TableLint.Proofs.ReferenceGrammar

/-!
Attribute lines and their parts. A line is written from a name, an optional default, a type and an
optional comment, with blanks between them; reading it gives these parts back. A default may hold a
colon and a type a hash if these stand in quotes that are closed again, so that the quotes of one
part cannot reach into the next. A comment may hold anything, since it is read last.
-/
namespace TableLint.Text

variable {target : Char} {s t x y : List Char}

/-- The text has `target` in quotes only, and closes every quote that it opens. -/
inductive Shielded (target : Char) : List Char → Prop where
  | nil : Shielded target []
  | plain (c : Char) (s : List Char) (hq : isQuote c = false) (ht : c ≠ target)
      (hs : Shielded target s) : Shielded target (c :: s)
  | quoted (quote : Char) (inner s : List Char) (hq : isQuote quote = true) (hi : quote ∉ inner)
      (hs : Shielded target s) : Shielded target (quote :: (inner ++ quote :: s))

theorem Shielded.append (hs : Shielded target s) (ht : Shielded target t) :
    Shielded target (s ++ t) := by
  induction hs with
  | nil => exact ht
  | plain c s hq hc hs ih => exact .plain c (s ++ t) hq hc ih
  | quoted quote inner s hq hi hs ih =>
    have h := Shielded.quoted quote inner (s ++ t) hq hi ih
    simpa using h

theorem shielded_of_all (h : s.all (fun c => !isQuote c && c != target) = true) :
    Shielded target s := by
  induction s with
  | nil => exact .nil
  | cons c s ih =>
    rw [List.all_cons, Bool.and_eq_true, Bool.and_eq_true, Bool.not_eq_true', bne_iff_ne] at h
    obtain ⟨⟨hq, ht⟩, hs⟩ := h
    exact .plain c s hq ht (ih hs)

theorem shielded_of_allBlank (ht : isBlank target = false) (hs : AllBlank s) :
    Shielded target s := by
  apply shielded_of_all
  rw [List.all_eq_true]
  intro c hc
  have hq : isQuote c = false := by
    rw [isQuote, Bool.or_eq_false_iff, beq_eq_false_iff_ne, beq_eq_false_iff_ne]
    constructor
    · rintro rfl
      exact hs.not_mem (by decide) hc
    · rintro rfl
      exact hs.not_mem (by decide) hc
  rw [hq, Bool.not_false, Bool.true_and, bne_iff_ne]
  rintro rfl
  exact hs.not_mem ht hc

/-! ### Searching past shielded text -/

/-- Inside quotes the search goes on to the quote that closes them. -/
theorem splitUnquotedFrom_quoted {quote : Char} {inner : List Char} (h : quote ∉ inner)
    (target : Char) (s : List Char) :
    splitUnquotedFrom target (some quote) (inner ++ quote :: s) =
      (splitUnquotedFrom target none s).map
        fun (before, rest) => (inner ++ quote :: before, rest) := by
  induction inner with
  | nil => simp [splitUnquotedFrom]
  | cons c inner ih =>
    rw [List.mem_cons, not_or] at h
    have hc : (c == quote) = false := by simpa using Ne.symm h.1
    rw [List.cons_append, splitUnquotedFrom, hc, if_neg Bool.false_ne_true, ih h.2]
    cases splitUnquotedFrom target none s <;> rfl

/-- Shielded text is passed over, whatever follows it. -/
theorem splitUnquoted_append (ht : isQuote target = false) (hs : Shielded target s)
    (t : List Char) :
    splitUnquoted target (s ++ t) =
      (splitUnquoted target t).map fun (before, rest) => (s ++ before, rest) := by
  simp only [splitUnquoted]
  induction hs with
  | nil => simp
  | plain c s hq hc hs ih =>
    rw [List.cons_append, splitUnquotedFrom, hq]
    simp only [beq_eq_false_iff_ne.mpr hc, Bool.false_and, Bool.false_eq_true, if_false, ih]
    cases splitUnquotedFrom target none t <;> rfl
  | quoted quote inner s hq hi hs ih =>
    have hne : (quote == target) = false := by
      rw [beq_eq_false_iff_ne]
      rintro rfl
      rw [hq] at ht
      cases ht
    -- The closing quote is in the text itself, so the search does not look further for it.
    have hc : (inner ++ quote :: (s ++ t)).contains quote = true := by simp
    have he : quote :: (inner ++ quote :: s) ++ t = quote :: (inner ++ quote :: (s ++ t)) := by
      simp
    rw [he, splitUnquotedFrom, hne, hq, hc]
    simp only [Bool.true_and, Bool.false_eq_true, if_false, if_true]
    rw [splitUnquotedFrom_quoted hi, ih]
    cases splitUnquotedFrom target none t <;> simp

/-- A target after shielded text is the first one. -/
theorem splitUnquoted_append_cons (ht : isQuote target = false) (hs : Shielded target s)
    (rest : List Char) :
    splitUnquoted target (s ++ target :: rest) = some (s, target :: rest) := by
  rw [splitUnquoted_append ht hs]
  simp [splitUnquoted, splitUnquotedFrom]

end TableLint.Text

namespace TableLint.Definition.AttributeLine

open Text

variable {s t name type inner rest : List Char} {fail : List Char → Expected → Problem}

/-! ### The parts of a line -/

/-- A lower case letter, and then lower case letters, digits and underscores. -/
def IsName : List Char → Prop
  | [] => False
  | c :: s => c.isLower = true ∧ ∀ d ∈ s, isNameChar d = true

instance : DecidablePred IsName
  | [] => inferInstanceAs (Decidable False)
  | c :: s =>
    decidable_of_iff (c.isLower = true ∧ s.all isNameChar = true)
      (and_congr_right' List.all_eq_true)

/-- A default without blanks at its ends, with colons in quotes only. -/
structure IsDefault (default : List Char) : Prop where
  trimmed : trim default = default
  shielded : Shielded ':' default

/-- A type that starts with a letter, with hashes in quotes only, or a name in angle brackets. -/
inductive IsType : List Char → Prop where
  | plain (c : Char) (s : List Char) (hc : c.isAlpha = true) (htrim : trim (c :: s) = c :: s)
      (hs : Shielded '#' (c :: s)) : IsType (c :: s)
  | adapted (inner : List Char) (hi : '>' ∉ inner) : IsType ('<' :: (inner ++ ['>']))

/-- A comment without blanks at its ends, and without a hash at its end. -/
structure IsComment (comment : List Char) : Prop where
  trimmed : trim comment = comment
  noHash : comment.getLast? ≠ some '#'

/-- The blanks of a line, each in front of a part or after it. -/
structure Spacing where
  beforeName : { s : List Char // AllBlank s }
  afterName : { s : List Char // AllBlank s }
  beforeDefault : { s : List Char // AllBlank s }
  afterDefault : { s : List Char // AllBlank s }
  beforeType : { s : List Char // AllBlank s }
  afterType : { s : List Char // AllBlank s }
  beforeComment : { s : List Char // AllBlank s }
  afterComment : { s : List Char // AllBlank s }

namespace Spacing

/-- The default with its sign. -/
def defaultPart (b : Spacing) : Option (List Char) → List Char
  | none => []
  | some default => '=' :: (b.beforeDefault.1 ++ (default ++ b.afterDefault.1))

/-- The comment with its sign. -/
def commentPart (b : Spacing) : Option (List Char) → List Char
  | none => []
  | some comment => '#' :: (b.beforeComment.1 ++ (comment ++ b.afterComment.1))

/-- The line with these parts. -/
def line (b : Spacing) (name : List Char) (default : Option (List Char)) (type : List Char)
    (comment : Option (List Char)) : List Char :=
  b.beforeName.1 ++ (name ++ (b.afterName.1 ++ (b.defaultPart default ++
    ':' :: (b.beforeType.1 ++ (type ++ (b.afterType.1 ++ b.commentPart comment))))))

end Spacing

/-! ### Reading the parts -/

theorem takeName?_append (hn : IsName name) (ht : ∀ c ∈ t.head?, isNameChar c = false) :
    takeName? (name ++ t) = some (name, t) := by
  cases name with
  | nil => exact hn.elim
  | cons c s =>
    obtain ⟨htake, hdrop⟩ := span_append hn.2 ht
    rw [List.cons_append, takeName?, if_pos hn.1, htake, hdrop]

theorem trimStart_append_name (hx : AllBlank s) (hn : IsName name) :
    trimStart (s ++ (name ++ t)) = name ++ t := by
  cases name with
  | nil => exact hn.elim
  | cons c name =>
    have hc : isBlank c = false := isBlank_eq_false (p := Char.isLower) (by decide) hn.1
    rw [trimStart_append hx, List.cons_append, trimStart_cons hc]

/-- A sign comes next after a name, blanks apart: that of the default or the colon. -/
theorem takeName?_defaultPart (b : Spacing) (hn : IsName name) (default : Option (List Char))
    (rest : List Char) :
    takeName? (name ++ (b.afterName.1 ++ (b.defaultPart default ++ ':' :: rest))) =
      some (name, b.afterName.1 ++ (b.defaultPart default ++ ':' :: rest)) := by
  apply takeName?_append hn
  apply head?_blank_append (fun _ => eq_false_of_isBlank (by decide)) b.afterName.2
  intro c hc
  cases default with
  | none =>
    obtain rfl := Option.some.inj hc
    decide
  | some d =>
    obtain rfl := Option.some.inj hc
    decide

theorem trimStart_defaultPart (b : Spacing) (default : Option (List Char)) (rest : List Char) :
    trimStart (b.afterName.1 ++ (b.defaultPart default ++ ':' :: rest)) =
      b.defaultPart default ++ ':' :: rest := by
  rw [trimStart_append b.afterName.2]
  cases default with
  | none => exact trimStart_cons (by decide)
  | some d => exact trimStart_cons (by decide)

theorem takeDefault_written (b : Spacing) {default : Option (List Char)}
    (hd : ∀ d ∈ default, IsDefault d) (rest : List Char) :
    takeDefault fail (b.defaultPart default ++ ':' :: rest) = .ok (default, ':' :: rest) := by
  cases default with
  | none => rfl
  | some d =>
    have hs : Shielded ':' (b.beforeDefault.1 ++ (d ++ b.afterDefault.1)) :=
      (shielded_of_allBlank (by decide) b.beforeDefault.2).append
        ((hd d rfl).shielded.append (shielded_of_allBlank (by decide) b.afterDefault.2))
    have hsplit := splitUnquoted_append_cons (by decide) hs rest
    have htrim := trim_blank_append_trimmed b.beforeDefault.2 (hd d rfl).trimmed b.afterDefault.2
    rw [Spacing.defaultPart, List.cons_append, takeDefault, hsplit]
    simp only [htrim]

/-- The hash at the end of the line is no part of the comment. -/
theorem commentOf_concat (h : s.getLast? ≠ some '#') : commentOf (s ++ ['#']) = trim s := by
  have hd : s.reverse.dropWhile (· == '#') = s.reverse := by
    rw [List.getLast?_eq_head?_reverse] at h
    cases hr : s.reverse with
    | nil => rfl
    | cons c r =>
      rw [hr] at h
      have hc : (c == '#') = false := by simpa using h
      simp [hc]
  simp [commentOf, hd]

/-- A comment between blanks ends with a hash only if it does so itself. -/
theorem getLast?_comment {comment : List Char} (hs : AllBlank s) (hc : IsComment comment)
    (ht : AllBlank t) : (s ++ (comment ++ t)).getLast? ≠ some '#' := by
  rw [List.getLast?_append, List.getLast?_append]
  cases hlast : t.getLast? with
  | some c =>
    rintro ⟨⟩
    exact ht.not_mem (by decide) (List.mem_of_getLast? hlast)
  | none =>
    cases hlast : comment.getLast? with
    | some c =>
      rintro ⟨⟩
      exact hc.noHash hlast
    | none =>
      intro hl
      exact hs.not_mem (by decide) (List.mem_of_getLast? hl)

/-- After the type comes a hash, which opens the comment or is put at the end of the line. -/
theorem exists_commentPart (b : Spacing) {comment : Option (List Char)}
    (hc : ∀ c ∈ comment, IsComment c) :
    ∃ rest, b.commentPart comment ++ ['#'] = '#' :: rest ∧ commentOf rest = comment.getD [] := by
  cases comment with
  | none => exact ⟨[], rfl, rfl⟩
  | some c =>
    refine ⟨b.beforeComment.1 ++ (c ++ b.afterComment.1) ++ ['#'], rfl, ?_⟩
    rw [commentOf_concat (getLast?_comment b.beforeComment.2 (hc c rfl) b.afterComment.2),
      trim_blank_append_trimmed b.beforeComment.2 (hc c rfl).trimmed b.afterComment.2]
    rfl

theorem typeAndComment_of_letter {c : Char} (hc : c.isAlpha = true)
    (hs : splitUnquoted '#' (c :: s) = some (type, rest)) :
    typeAndComment fail (c :: s) = .ok (trim type, commentOf (rest.drop 1)) := by
  have hne : c ≠ '<' := by
    rintro rfl
    cases hc
  unfold typeAndComment
  split
  · next he =>
    cases he
    exact absurd rfl hne
  · next he =>
    cases he
    rw [if_pos hc, hs]
  · next he => cases he

theorem typeAndComment_of_bracket (hi : '>' ∉ inner) (hr : trimStart rest = '#' :: s) :
    typeAndComment fail ('<' :: (inner ++ '>' :: rest)) =
      .ok ('<' :: (inner ++ ['>']), commentOf s) := by
  have hopen : '>' ∉ '<' :: inner := List.not_mem_cons_of_ne_of_not_mem (by decide) hi
  obtain ⟨htake, hdrop⟩ := span_append_cons hopen rest
  have htrim : trim ('<' :: (inner ++ ['>'])) = '<' :: (inner ++ ['>']) :=
    trim_cons_concat (by decide) (by decide) inner
  rw [List.cons_append] at htake hdrop
  rw [typeAndComment, htake, hdrop]
  simp only [hr, List.cons_append, htrim]

/-- The type is read up to the next hash, blanks in front of that apart. -/
theorem typeAndComment_written (ht : IsType type) (hs : AllBlank s) (rest : List Char) :
    typeAndComment fail (type ++ (s ++ '#' :: rest)) = .ok (type, commentOf rest) := by
  cases ht with
  | plain c u hc htrim hu =>
    have hsh : Shielded '#' (c :: u ++ s) := hu.append (shielded_of_allBlank (by decide) hs)
    have hsplit := splitUnquoted_append_cons (by decide) hsh rest
    rw [List.append_assoc] at hsplit
    have htype : trim (c :: u ++ s) = c :: u := by rw [trim_append_of_allBlank hs, htrim]
    have h : typeAndComment fail (c :: (u ++ (s ++ '#' :: rest))) = _ :=
      typeAndComment_of_letter hc hsplit
    rw [htype] at h
    exact h
  | adapted inner hi =>
    have hr : trimStart (s ++ '#' :: rest) = '#' :: rest := by
      rw [trimStart_append hs, trimStart_cons (by decide)]
    rw [List.cons_append, List.append_assoc]
    exact typeAndComment_of_bracket hi hr

theorem trimStart_append_type (hs : AllBlank s) (ht : IsType type) :
    trimStart (s ++ (type ++ t)) = type ++ t := by
  rw [trimStart_append hs]
  cases ht with
  | plain c u hc htrim hu => exact trimStart_cons (isBlank_of_isAlpha hc)
  | adapted inner hi => exact trimStart_cons (by decide)

/-- A line is read if each of its parts is. -/
theorem parse_of_parts {line afterName afterDefault afterColon comment : List Char}
    {default : Option (List Char)}
    (hname : takeName? (trimStart (line ++ ['#'])) = some (name, afterName))
    (hdefault : ∀ fail, takeDefault fail (trimStart afterName) = .ok (default, afterDefault))
    (hcolon : trimStart afterDefault = ':' :: afterColon)
    (htype : ∀ fail, typeAndComment fail (trimStart afterColon) = .ok (type, comment)) :
    parse line = .ok { name, default, type, comment } := by
  rw [parse]
  simp only [hname, hdefault, hcolon, htype]

/-- A line that is written from a name, an optional default, a type and an optional comment is read
as these parts, whatever blanks are between them; without a comment, its comment is empty. -/
theorem parse_written (b : Spacing) (name : List Char) (default : Option (List Char))
    (type : List Char) (comment : Option (List Char)) (hn : IsName name)
    (hd : ∀ d ∈ default, IsDefault d) (ht : IsType type) (hc : ∀ c ∈ comment, IsComment c) :
    parse (b.line name default type comment) =
      .ok { name, default, type, comment := comment.getD [] } := by
  obtain ⟨rest, hrest, hcomment⟩ := exists_commentPart b hc
  have hpadded : b.line name default type comment ++ ['#'] =
      b.beforeName.1 ++ (name ++ (b.afterName.1 ++ (b.defaultPart default ++
        ':' :: (b.beforeType.1 ++ (type ++ (b.afterType.1 ++ '#' :: rest)))))) := by
    simp [Spacing.line, ← hrest]
  apply parse_of_parts
  · rw [hpadded, trimStart_append_name b.beforeName.2 hn]
    exact takeName?_defaultPart b hn default _
  · intro fail
    rw [trimStart_defaultPart]
    exact takeDefault_written b hd _
  · exact trimStart_cons (by decide)
  · intro fail
    rw [trimStart_append_type b.beforeType.2 ht, typeAndComment_written ht b.afterType.2, hcomment]

/-- Signs and quotes of one part stand in the quotes of another. -/
def quotedDefault : List Char := "\"it's: 1\"".toList

def quotedType : List Char := "enum('#', \"a'b:\")".toList

def quotedComment : List Char := "says \"so: # y".toList

def quotedSpacing : Spacing where
  beforeName := ⟨[' '], by decide⟩
  afterName := ⟨['\t'], by decide⟩
  beforeDefault := ⟨[], by decide⟩
  afterDefault := ⟨[' '], by decide⟩
  beforeType := ⟨[], by decide⟩
  afterType := ⟨[' ', ' '], by decide⟩
  beforeComment := ⟨[' '], by decide⟩
  afterComment := ⟨['\n'], by decide⟩

theorem isDefault_quotedDefault : IsDefault quotedDefault :=
  ⟨by decide, .quoted '"' "it's: 1".toList [] (by decide) (by decide) .nil⟩

theorem isType_quotedType : IsType quotedType := by
  have hopen : Shielded '#' "enum(".toList := shielded_of_all (by decide)
  have hcomma : Shielded '#' ", ".toList := shielded_of_all (by decide)
  have hclose : Shielded '#' ")".toList := shielded_of_all (by decide)
  have hsecond : Shielded '#' "\"a'b:\")".toList :=
    .quoted '"' "a'b:".toList _ (by decide) (by decide) hclose
  have hfirst : Shielded '#' "'#', \"a'b:\")".toList :=
    .quoted '\'' ['#'] _ (by decide) (by decide) (hcomma.append hsecond)
  exact .plain 'e' _ (by decide) (by decide) (hopen.append hfirst)

theorem parse_written_quoted :
    quotedSpacing.line "note_1".toList (some quotedDefault) quotedType (some quotedComment) =
        " note_1\t=\"it's: 1\" :enum('#', \"a'b:\")  # says \"so: # y\n".toList ∧
      parse " note_1\t=\"it's: 1\" :enum('#', \"a'b:\")  # says \"so: # y\n".toList =
        .ok ⟨"note_1".toList, some quotedDefault, quotedType, quotedComment⟩ := by
  have hline : quotedSpacing.line "note_1".toList (some quotedDefault) quotedType
      (some quotedComment) =
        " note_1\t=\"it's: 1\" :enum('#', \"a'b:\")  # says \"so: # y\n".toList := by decide
  have h := parse_written quotedSpacing "note_1".toList (some quotedDefault) quotedType
    (some quotedComment) (by decide) (by rintro d ⟨⟩; exact isDefault_quotedDefault)
    isType_quotedType (by rintro c ⟨⟩; exact ⟨by decide, by decide⟩)
  rw [hline] at h
  exact ⟨hline, h⟩

end TableLint.Definition.AttributeLine
