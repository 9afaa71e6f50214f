import TableLint.Proofs.ReferenceGrammar
import TableLint.Proofs.Wording

/-!
The name that a review takes from the wording of an unresolved reference. The wording repeats the
text of the line, so the review meets whatever stands there: it goes on after the last closing
bracket, and stops at the end of the sentence or at a projection. For a reference that can be read
this gives the name of its table exactly when the reference is `Legible`.
-/
namespace TableLint.Rule

open Text Definition

/-- The name that a review takes from the wording. -/
def reviewedName (reference : List Char) : List Char :=
  trim (upTo ".proj".toList (upTo " could ".toList (afterLast ']' reference ++ closing)))

theorem namedReference?_unresolved (reference : List Char) :
    namedReference? (Problem.unresolvedReference reference).message =
      some (reviewedName reference) := by
  have hc : cut? "reference ".toList ("Foreign key reference ".toList ++ (reference ++ closing)) =
      some ("Foreign key ".toList, reference ++ closing) := rfl
  have hb : afterLast ']' (reference ++ closing) = afterLast ']' reference ++ closing :=
    afterLast_append (by decide)
  rw [namedReference?, message_unresolved, hc, Option.map_some, reviewedName, ← hb]

/-- What stands before the last closing bracket does not count. -/
theorem reviewedName_of_bracket {lead rest : List Char} (h : ']' ∈ rest) :
    reviewedName (lead ++ rest) = reviewedName (afterLast ']' rest) := by
  rw [reviewedName, reviewedName, afterLast_append_of_mem h,
    afterLast_of_not_mem (not_mem_afterLast ']' rest)]

/-- The name and the blank around it are taken for the end of the sentence. -/
def ReadsAsClosing (lead name rest : List Char) : Prop :=
  lead.getLast? = some ' ' ∧ name = "could".toList ∧ (rest ++ closing).head? = some ' '

/-- The name of the table can be taken from the wording. -/
structure Legible (lead name rest : List Char) : Prop where
  noBracket : ']' ∉ rest
  noComment : (trimStart rest).head? ≠ some '#'
  noProjection : ¬".proj".toList <:+: name
  noClosing : ¬ReadsAsClosing lead name rest

variable {lead name rest : List Char}

/-- Blanks are no part of the closing words, except the one in front of them. -/
theorem skips_closing_of_allBlank {x y : List Char} (hx : AllBlank x) (hy : y.head? ≠ some 'c') :
    Skips " could ".toList x y := by
  rintro u v rfl hv hp
  cases v with
  | nil => exact hv rfl
  | cons d v =>
    have hc : "could ".toList <+: v ++ y := (List.cons_prefix_cons.mp hp).2
    cases v with
    | nil =>
      obtain ⟨r, hr⟩ := hc
      exact hy (by rw [← List.nil_append y, ← hr]; rfl)
    | cons e v =>
      have he : 'c' = e := (List.cons_prefix_cons.mp hc).1
      subst he
      exact hx.not_mem (by decide : isBlank 'c' = false) (by simp)

/-- What stands after a name starts neither with a letter nor with the text of one. -/
theorem head_append_closing (hf : FollowsName rest) {c : Char} (hc : c ∈ (rest ++ closing).head?) :
    isBlank c = true ∨ c = '#' ∨ c = '.' := by
  cases rest with
  | nil =>
    cases hc
    exact .inl (by decide)
  | cons d rest => exact hf.head hc

/-- A word is told apart from what follows a name by its characters. -/
theorem not_head_of_all {word : List Char} {c : Char} (hm : c ∈ word)
    (h : (word.all fun d => !(isBlank d || d == '#' || d == '.')) = true) :
    ¬(isBlank c = true ∨ c = '#' ∨ c = '.') := by
  have hc := List.all_eq_true.mp h c hm
  simpa [not_or, and_assoc] using hc

/-- The closing word has one blank, at its end. -/
theorem eq_could_of_append {v w : List Char} (h : "could ".toList = v ++ ' ' :: w) :
    v = "could".toList := by
  have hcount := congrArg (List.count ' ') h
  have hone : List.count ' ' "could ".toList = 1 := by decide
  rw [hone, List.count_append, List.count_cons_self] at hcount
  have hv : ∀ c ∈ v, (c != ' ') = true := by
    intro c hc
    rw [bne_iff_ne]
    rintro rfl
    have := List.count_pos_iff.mpr hc
    omega
  have ht := congrArg (List.takeWhile (· != ' ')) h
  rw [List.takeWhile_append_of_pos hv] at ht
  simpa using ht.symm

/-- A name that continues to the closing words is the word that they start with. -/
theorem eq_could_of_isPrefix (hn : isTableName name = true) (hf : FollowsName rest)
    (h : "could ".toList <+: name ++ (rest ++ closing)) :
    name = "could".toList ∧ (rest ++ closing).head? = some ' ' := by
  have hs : ' ' ∉ name := not_mem_name hn (by decide +kernel)
  obtain ⟨r, hr⟩ := h
  obtain ⟨w, rfl, -⟩ | ⟨w, hw, he⟩ := List.append_eq_append_iff.mp hr
  · exact absurd (by simp) hs
  · cases w with
    | nil =>
      rw [List.append_nil] at hw
      exact absurd (by simp [← hw]) hs
    | cons d w =>
      have hd : d = ' ' := by
        have hm : d ∈ "could ".toList := by simp [hw]
        rcases List.mem_append.mp (show d ∈ "could".toList ++ [' '] from hm) with hword | hblank
        · exact absurd (head_append_closing hf (by simp [he])) (not_head_of_all hword (by decide))
        · exact List.mem_singleton.mp hblank
      subst hd
      exact ⟨eq_could_of_append hw, by simp [he]⟩

/-- The sentence does not end within the blanks and the name. -/
theorem skips_closing_name (hl : AllBlank lead) (hn : isTableName name = true)
    (hf : FollowsName rest) (hc : ¬ReadsAsClosing lead name rest) :
    Skips " could ".toList (lead ++ name) (rest ++ closing) := by
  have hs : ' ' ∉ name := not_mem_name hn (by decide +kernel)
  intro u v he hv hp
  cases v with
  | nil => exact hv rfl
  | cons d v =>
    obtain ⟨rfl, hq⟩ : ' ' = d ∧ "could ".toList <+: v ++ (rest ++ closing) :=
      List.cons_prefix_cons.mp hp
    obtain ⟨w, -, rfl⟩ | ⟨w, rfl, hw⟩ := List.append_eq_append_iff.mp he
    · exact hs (by simp)
    · cases w with
      | nil =>
        rw [List.nil_append] at hw
        exact hs (by simp [← hw])
      | cons e w =>
        obtain ⟨rfl, rfl⟩ := List.cons.inj hw
        cases w with
        | nil => exact hc ⟨by simp, eq_could_of_isPrefix hn hf hq⟩
        | cons g w =>
          have hg : 'c' = g := (List.cons_prefix_cons.mp hq).1
          subst hg
          exact hl.not_mem (by decide : isBlank 'c' = false) (by simp)

/-- Outside of brackets and closing words the review starts with the name. -/
theorem reviewedName_of_name (hl : AllBlank lead) (hn : isTableName name = true)
    (hf : FollowsName rest) (hb : ']' ∉ rest) (hc : ¬ReadsAsClosing lead name rest) :
    reviewedName (lead ++ (name ++ rest)) =
      trim (lead ++ upTo ".proj".toList (name ++ upTo " could ".toList (rest ++ closing))) := by
  have hm : ']' ∉ lead ++ (name ++ rest) := by
    simp only [List.mem_append, not_or]
    exact ⟨hl.not_mem (by decide), not_mem_name hn (by decide +kernel), hb⟩
  have hd : Skips ".proj".toList lead (name ++ upTo " could ".toList (rest ++ closing)) :=
    skips_of_not_mem (hl.not_mem (by decide))
  rw [reviewedName, afterLast_of_not_mem hm, List.append_assoc, List.append_assoc,
    ← List.append_assoc lead, upTo_append (skips_closing_name hl hn hf hc), List.append_assoc,
    upTo_append hd]

/-- A projection in the name cuts it short. -/
theorem reviewedName_ne_of_projection (hl : AllBlank lead) (hn : isTableName name = true)
    (hf : FollowsName rest) (hb : ']' ∉ rest) (hc : ¬ReadsAsClosing lead name rest)
    (hp : ".proj".toList <:+: name) : reviewedName (lead ++ (name ++ rest)) ≠ name := by
  rw [reviewedName_of_name hl hn hf hb hc]
  cases hcut : cut? ".proj".toList name with
  | none => exact absurd hp (cut?_eq_none_iff.mp hcut)
  | some parts =>
    obtain ⟨before, after⟩ := parts
    have he := cut?_eq_some hcut
    have hu : ∀ t, upTo ".proj".toList (name ++ t) = before := by
      intro t
      rw [upTo, cut?_append_right hcut]
    have hblank : ∀ c ∈ before, isBlank c = false := by
      intro c hc
      exact isBlank_of_mem_name hn (by simp [he, hc])
    rw [hu, trim_blank_append hl hblank]
    intro h
    have hlen := congrArg List.length (h.trans he)
    simp at hlen

/-- What follows the name in the wording, up to the end of the sentence, starts like what follows
it on the line. -/
theorem head_upTo_closing (hf : FollowsName rest) {c : Char}
    (hc : c ∈ (upTo " could ".toList (rest ++ closing)).head?) :
    isBlank c = true ∨ c = '#' ∨ c = '.' := by
  obtain ⟨t, ht⟩ := upTo_isPrefix " could ".toList (rest ++ closing)
  apply head_append_closing hf
  rw [← ht]
  exact head?_append_of_some hc

/-- What the review reads after the name. -/
def reviewedTail (rest : List Char) : List Char :=
  upTo ".proj".toList (upTo " could ".toList (rest ++ closing))

theorem reviewedName_of_noProjection (hl : AllBlank lead) (hn : isTableName name = true)
    (hf : FollowsName rest) (hb : ']' ∉ rest) (hc : ¬ReadsAsClosing lead name rest)
    (hp : ¬".proj".toList <:+: name) :
    reviewedName (lead ++ (name ++ rest)) = trim (lead ++ (name ++ reviewedTail rest)) := by
  have hs : Skips ".proj".toList name (upTo " could ".toList (rest ++ closing)) := by
    apply skips_of_not_isInfix hp
    intro c hh hm
    exact not_head_of_all hm (by decide) (head_upTo_closing hf hh)
  rw [reviewedName_of_name hl hn hf hb hc, upTo_append hs, reviewedTail]

/-- Nothing is read of a projection. -/
theorem reviewedTail_of_projection (h : ".proj(".toList <+: rest) : reviewedTail rest = [] := by
  obtain ⟨t, rfl⟩ := h
  have hs : Skips " could ".toList ".proj(".toList (t ++ closing) := skips_of_not_mem (by decide)
  rw [reviewedTail, List.append_assoc, upTo_append hs]
  exact upTo_append_self ".proj".toList _

/-- Blanks up to the end of the line are followed by the end of the sentence. -/
theorem reviewedTail_of_allBlank (h : AllBlank rest) : reviewedTail rest = rest := by
  have hs : Skips " could ".toList rest closing := skips_closing_of_allBlank h (by decide)
  have hc : upTo " could ".toList closing = [] :=
    upTo_append_self " could ".toList "not be resolved".toList
  have hd : ¬".proj".toList <:+: rest := by
    intro hi
    exact h.not_mem (by decide : isBlank '.' = false) (hi.subset (by decide))
  rw [reviewedTail, upTo_append hs, hc, List.append_nil, upTo_of_not_isInfix hd]

/-- A comment is read, at least its hash. -/
theorem mem_reviewedTail_of_comment (h : (trimStart rest).head? = some '#') :
    '#' ∈ reviewedTail rest := by
  obtain ⟨x, hx, he⟩ := exists_eq_append_trimStart rest
  obtain ⟨t, ht⟩ : ∃ t, trimStart rest = '#' :: t := List.head?_eq_some_iff.mp h
  have hr : rest ++ closing = (x ++ ['#']) ++ (t ++ closing) := by
    rw [he, ht]
    simp
  have hs : Skips " could ".toList (x ++ ['#']) (t ++ closing) :=
    skips_append (skips_closing_of_allBlank hx (by simp)) (skips_of_not_mem (by decide))
  have hm : '.' ∉ x ++ ['#'] := by simp [hx.not_mem (by decide : isBlank '.' = false)]
  have hd : Skips ".proj".toList (x ++ ['#']) (upTo " could ".toList (t ++ closing)) :=
    skips_of_not_mem hm
  rw [reviewedTail, hr, upTo_append hs, upTo_append hd]
  simp

/-- A name taken for the end of the sentence is lost. -/
theorem reviewedName_of_closing (hl : AllBlank lead) (hb : ']' ∉ rest)
    (hc : ReadsAsClosing lead name rest) : reviewedName (lead ++ (name ++ rest)) = [] := by
  obtain ⟨hlast, rfl, hh⟩ := hc
  obtain ⟨u, rfl⟩ : ∃ u, lead = u ++ [' '] := List.getLast?_eq_some_iff.mp hlast
  obtain ⟨t, ht⟩ : ∃ t, rest ++ closing = ' ' :: t := List.head?_eq_some_iff.mp hh
  have hu : AllBlank u := (allBlank_append.mp hl).1
  have hm : ']' ∉ u ++ [' '] ++ ("could".toList ++ rest) := by
    simp only [List.mem_append, not_or]
    exact ⟨⟨hu.not_mem (by decide), by decide⟩, by decide, hb⟩
  have he : u ++ [' '] ++ ("could".toList ++ rest) ++ closing = u ++ (" could ".toList ++ t) := by
    simp only [List.append_assoc, ht]
    rfl
  have hs : Skips " could ".toList u (" could ".toList ++ t) :=
    skips_closing_of_allBlank hu (by simp)
  have hd : ¬".proj".toList <:+: u := by
    intro hi
    exact hu.not_mem (by decide : isBlank '.' = false) (hi.subset (by decide))
  rw [reviewedName, afterLast_of_not_mem hm, he, upTo_append hs, upTo_append_self, List.append_nil,
    upTo_of_not_isInfix hd, trim_eq_nil hu]

/-- The review finds the name of the table if the reference is legible. -/
theorem reviewedName_of_legible (hl : AllBlank lead) (hn : isTableName name = true)
    (hf : FollowsName rest) (h : Legible lead name rest) :
    reviewedName (lead ++ (name ++ rest)) = name := by
  have hblank : ∀ c ∈ name, isBlank c = false := fun c hc => isBlank_of_mem_name hn hc
  rw [reviewedName_of_noProjection hl hn hf h.noBracket h.noClosing h.noProjection]
  rcases hf with ht | hp
  · have hb : AllBlank rest := by
      rw [← trimStart_eq_nil_iff]
      cases hs : trimStart rest with
      | nil => rfl
      | cons c t =>
        have hc : c = '#' := ht c (by simp [hs])
        exact absurd (by simp [hs, hc]) h.noComment
    rw [reviewedTail_of_allBlank hb, ← List.append_assoc]
    exact trim_blank_append_blank hl hb hblank
  · rw [reviewedTail_of_projection hp, List.append_nil]
    exact trim_blank_append hl hblank

/-- Without a closing bracket after the name, only legible references are read right. -/
theorem reviewedName_eq_iff (hl : AllBlank lead) (hn : isTableName name = true)
    (hf : FollowsName rest) (hb : ']' ∉ rest) :
    reviewedName (lead ++ (name ++ rest)) = name ↔ Legible lead name rest := by
  constructor
  · intro h
    have hc : ¬ReadsAsClosing lead name rest := by
      intro hc
      rw [reviewedName_of_closing hl hb hc] at h
      exact ne_nil_of_isTableName hn h.symm
    have hp : ¬".proj".toList <:+: name := by
      intro hp
      exact reviewedName_ne_of_projection hl hn hf hb hc hp h
    refine ⟨hb, ?_, hp, hc⟩
    intro hh
    rw [reviewedName_of_noProjection hl hn hf hb hc hp] at h
    have hm : '#' ∈ trim (lead ++ (name ++ reviewedTail rest)) := by
      apply mem_trim _ (by decide)
      simp [mem_reviewedTail_of_comment hh]
    rw [h] at hm
    exact not_mem_name hn (by decide +kernel) hm
  · exact reviewedName_of_legible hl hn hf

/-- The review cuts nothing off. -/
structure Uncut (reference : List Char) : Prop where
  noBracket : ']' ∉ reference
  noProjection : ¬".proj".toList <:+: reference
  noClosing : ¬" could ".toList <:+: reference ++ [' ']

/-- The closing words overlap with a text in front of them in one blank at most. -/
theorem skips_closing_of_not_isInfix {s : List Char}
    (h : ¬" could ".toList <:+: s ++ [' ']) : Skips " could ".toList s closing := by
  rintro u v rfl hv ⟨r, hr⟩
  obtain ⟨w, rfl, -⟩ | ⟨w, hw, he⟩ := List.append_eq_append_iff.mp hr
  · exact h ⟨u, w ++ [' '], by simp⟩
  · cases w with
    | nil => exact h ⟨u, [' '], by simp [hw]⟩
    | cons d w =>
      obtain ⟨rfl, -⟩ : ' ' = d ∧ _ := List.cons.inj he
      cases v with
      | nil => exact hv rfl
      | cons e v =>
        obtain ⟨rfl, htail⟩ : ' ' = e ∧ "could ".toList = v ++ ' ' :: w := List.cons.inj hw
        exact h ⟨u, [], by simp [eq_could_of_append htail]⟩

theorem reviewedName_of_uncut {reference : List Char} (h : Uncut reference) :
    reviewedName reference = trim reference := by
  have hc : upTo " could ".toList closing = [] :=
    upTo_append_self " could ".toList "not be resolved".toList
  rw [reviewedName, afterLast_of_not_mem h.noBracket,
    upTo_append (skips_closing_of_not_isInfix h.noClosing), hc, List.append_nil,
    upTo_of_not_isInfix h.noProjection]

/-- A table name read without cutting is all of the reference. -/
theorem names_of_uncut {reference : List Char} (h : Uncut reference)
    (hn : isTableName (reviewedName reference) = true) :
    Names (withoutComment reference) (reviewedName reference) [] := by
  rw [reviewedName_of_uncut h] at hn ⊢
  have hm : '#' ∉ reference := by
    intro hm
    exact not_mem_name hn (by decide +kernel) (mem_trim hm (by decide))
  rw [withoutComment_of_not_mem hm]
  exact .table _ hn

end TableLint.Rule
