import TableLint.Definition.Context
import TableLint.Proofs.Cutting

/-!
The grammar of references. A reference is a table name, alone or with a projection, between blanks
and followed by an optional comment; `readReference` accepts exactly these texts. The characters of
a table name are few, so everything that may surround it can be told apart from it.
-/
namespace TableLint.Definition

open Text

/-- The characters that table names are made of. -/
def isTableChar (c : Char) : Bool := c == '.' || c == '_' || isAlphanumeric c

/-- A table name has no other characters. -/
theorem isTableChar_of_mem {name : List Char} (h : isTableName name = true) {c : Char}
    (hc : c ∈ name) : isTableChar c = true := by
  by_cases hd : c = '.'
  · simp [isTableChar, hd]
  · obtain ⟨piece, hp, hcp⟩ := mem_splitAt hc hd
    have hs := List.all_eq_true.mp h piece hp
    cases piece with
    | nil => cases hcp
    | cons d rest =>
      simp only [Bool.and_eq_true, Bool.or_eq_true, List.all_eq_true] at hs
      rcases List.mem_cons.mp hcp with rfl | hr
      · simp only [isTableChar, isAlphanumeric, Bool.or_eq_true]
        tauto
      · have := hs.2 c hr
        simp only [isTableChar, Bool.or_eq_true]
        tauto

theorem ne_nil_of_isTableName {name : List Char} (h : isTableName name = true) : name ≠ [] := by
  rintro rfl
  cases h

/-- The numbers of the blank characters. -/
def blankNumbers : List Nat :=
  [9, 10, 11, 12, 13, 0x20, 0x85, 0xA0, 0x1680, 0x2000, 0x2001, 0x2002, 0x2003, 0x2004, 0x2005,
    0x2006, 0x2007, 0x2008, 0x2009, 0x200A, 0x2028, 0x2029, 0x202F, 0x205F, 0x3000]

theorem toNat_mem_blankNumbers {c : Char} (h : isBlank c = true) : c.toNat ∈ blankNumbers := by
  simp only [isBlank, Bool.or_eq_true, Bool.and_eq_true, decide_eq_true_eq, beq_iff_eq] at h
  simp only [blankNumbers, List.mem_cons, List.not_mem_nil, or_false]
  omega

/-- What holds of none of these numbers holds of no blank. -/
theorem eq_false_of_isBlank {p : Char → Bool} (hp : ∀ n ∈ blankNumbers, p (Char.ofNat n) = false)
    {c : Char} (h : isBlank c = true) : p c = false := by
  have hc := hp c.toNat (toNat_mem_blankNumbers h)
  rwa [Char.ofNat_toNat] at hc

/-- So a character of which it holds is no blank. -/
theorem isBlank_eq_false {p : Char → Bool} (hp : ∀ n ∈ blankNumbers, p (Char.ofNat n) = false)
    {c : Char} (h : p c = true) : isBlank c = false := by
  cases hb : isBlank c with
  | false => rfl
  | true =>
    rw [eq_false_of_isBlank hp hb] at h
    cases h

theorem isBlank_of_isAlpha {c : Char} (h : c.isAlpha = true) : isBlank c = false :=
  isBlank_eq_false (by decide) h

/-- No blank belongs to a table name. -/
theorem isBlank_of_mem_name {name : List Char} (h : isTableName name = true) {c : Char}
    (hc : c ∈ name) : isBlank c = false :=
  isBlank_eq_false (by decide +kernel) (isTableChar_of_mem h hc)

/-- A character outside of the alphabet of names is in no table name. -/
theorem not_mem_name {name : List Char} (h : isTableName name = true) {c : Char}
    (hc : isTableChar c = false) : c ∉ name := by
  intro hm
  rw [isTableChar_of_mem h hm] at hc
  cases hc

/-- The opening of a projection. -/
theorem not_isInfix_projection {name : List Char} (h : isTableName name = true) :
    ¬".proj(".toList <:+: name := by
  intro hi
  exact not_mem_name h (by decide +kernel : isTableChar '(' = false) (hi.subset (by decide))

/-- The text names the table, alone or through a projection with these renamings. -/
inductive Names : List Char → List Char → Renames → Prop where
  | table (name : List Char) (hn : isTableName name = true) : Names name name []
  | projection (name arguments : List Char) (renames : Renames) (hn : isTableName name = true)
      (hr : projectionRenames arguments = some renames) :
      Names (name ++ (".proj(".toList ++ (arguments ++ [')']))) name renames

theorem Names.isTableName {expression name : List Char} {renames : Renames}
    (h : Names expression name renames) : isTableName name = true := by
  cases h with
  | table _ hn => exact hn
  | projection _ _ _ hn _ => exact hn

/-- The projection of a table name is cut off at the end of the name. -/
theorem cut?_projection {name : List Char} (h : isTableName name = true) (rest : List Char) :
    cut? ".proj(".toList (name ++ (".proj(".toList ++ rest)) = some (name, rest) := by
  have hs : Skips ".proj(".toList name (".proj(".toList ++ rest) := by
    apply skips_of_not_isInfix (not_isInfix_projection h)
    intro c hc
    cases hc
    decide
  rw [cut?_append hs, cut?_append_self]
  simp

theorem readReference_of_names {reference name : List Char} {renames : Renames}
    (h : Names (withoutComment reference) name renames) :
    readReference reference = some (name, renames) := by
  rw [readReference]
  generalize withoutComment reference = expression at h
  cases h with
  | table _ hn => simp only [cut?_eq_none_iff.mpr (not_isInfix_projection hn), hn, if_true]
  | projection _ arguments _ hn hr =>
    simp only [cut?_projection hn, List.reverse_append, List.reverse_cons, List.reverse_nil,
      List.nil_append, List.singleton_append, List.reverse_reverse, hr, Option.bind_some, hn,
      if_true]

theorem names_of_readReference {reference name : List Char} {renames : Renames}
    (h : readReference reference = some (name, renames)) :
    Names (withoutComment reference) name renames := by
  rw [readReference] at h
  generalize withoutComment reference = expression at h ⊢
  split at h
  · next base rest hc =>
    split at h
    · next arguments hr =>
      obtain ⟨renames', hp, hi⟩ := Option.bind_eq_some_iff.mp h
      split at hi
      · next hn =>
        cases hi
        have he : rest = arguments.reverse ++ [')'] := by
          simpa using congrArg List.reverse hr
        rw [cut?_eq_some hc, he, List.append_assoc]
        exact .projection name arguments.reverse renames hn hp
      · cases hi
    · cases h
  · split at h
    · next hn =>
      cases h
      exact .table _ hn
    · cases h

/-- The split at a target outside quotes cuts the text in front of a target. -/
theorem splitUnquotedFrom_eq_some {target : Char} {inside : Option Char}
    {s before rest : List Char} (h : splitUnquotedFrom target inside s = some (before, rest)) :
    s = before ++ rest ∧ rest.head? = some target := by
  induction s generalizing inside before with
  | nil => cases inside <;> cases h
  | cons c s ih =>
    cases inside with
    | some quote =>
      obtain ⟨⟨b, r⟩, hs, he⟩ := Option.map_eq_some_iff.mp h
      cases he
      obtain ⟨rfl, ht⟩ := ih hs
      exact ⟨rfl, ht⟩
    | none =>
      rw [splitUnquotedFrom] at h
      split at h
      · next hc =>
        cases h
        exact ⟨rfl, by simpa using hc⟩
      · obtain ⟨⟨b, r⟩, hs, he⟩ := Option.map_eq_some_iff.mp h
        cases he
        obtain ⟨rfl, ht⟩ := ih hs
        exact ⟨rfl, ht⟩

/-- Without a hash there is no comment to take off. -/
theorem withoutComment_of_not_mem {reference : List Char} (h : '#' ∉ reference) :
    withoutComment reference = trim reference := by
  rw [withoutComment]
  split
  · next before rest hs =>
    obtain ⟨he, ht⟩ := splitUnquotedFrom_eq_some hs
    have hm : '#' ∈ rest := List.mem_of_mem_head? ht
    exact absurd (by simp [he, hm]) h
  · rfl

/-- The text is blank up to a comment or up to its end. -/
def IsTrail (s : List Char) : Prop := ∀ c ∈ (trimStart s).head?, c = '#'

theorem isTrail_append {blank comment : List Char} (hb : AllBlank blank)
    (hc : ∀ c ∈ comment.head?, c = '#') : IsTrail (blank ++ comment) := by
  rw [IsTrail, trimStart_append hb]
  cases comment with
  | nil => simp
  | cons d comment =>
    obtain rfl := hc d rfl
    rw [trimStart_cons (by decide)]
    exact hc

/-- A reference is its expression between blanks and a trail. -/
theorem exists_eq_append_withoutComment (reference : List Char) :
    ∃ lead trail, AllBlank lead ∧ IsTrail trail ∧
      reference = lead ++ withoutComment reference ++ trail := by
  rw [withoutComment]
  split
  · next before rest hs =>
    obtain ⟨he, ht⟩ := splitUnquotedFrom_eq_some hs
    obtain ⟨lead, blank, hl, hb, hx⟩ := exists_eq_append_trim before
    refine ⟨lead, blank ++ rest, hl, isTrail_append hb (by simp [ht, eq_comm]), ?_⟩
    rw [he]
    nth_rewrite 1 [hx]
    simp
  · obtain ⟨lead, blank, hl, hb, hx⟩ := exists_eq_append_trim reference
    have ht := isTrail_append hb (by simp : ∀ c ∈ ([] : List Char).head?, c = '#')
    exact ⟨lead, blank, hl, by simpa using ht, hx⟩

/-- What may stand after the name of the table. -/
def FollowsName (rest : List Char) : Prop := IsTrail rest ∨ ".proj(".toList <+: rest

/-- The parts of a reference: blanks, the name, and a projection or a trail. -/
theorem exists_eq_append_name {reference name : List Char} {renames : Renames}
    (h : readReference reference = some (name, renames)) :
    ∃ lead rest, AllBlank lead ∧ FollowsName rest ∧ reference = lead ++ (name ++ rest) := by
  obtain ⟨lead, trail, hl, ht, he⟩ := exists_eq_append_withoutComment reference
  have hn := names_of_readReference h
  generalize withoutComment reference = expression at hn he
  cases hn with
  | table _ hn => exact ⟨lead, trail, hl, .inl ht, by simp [he]⟩
  | projection _ arguments _ hn hr =>
    refine ⟨lead, ".proj(".toList ++ (arguments ++ ([')'] ++ trail)), hl, .inr ⟨_, rfl⟩, ?_⟩
    simp [he]

/-- The character after the name ends it. -/
theorem FollowsName.head {rest : List Char} (h : FollowsName rest) {c : Char}
    (hc : c ∈ rest.head?) : isBlank c = true ∨ c = '#' ∨ c = '.' := by
  cases rest with
  | nil => cases hc
  | cons d rest =>
    cases hc
    rcases h with ht | ⟨r, hr⟩
    · by_cases hb : isBlank c = true
      · exact .inl hb
      · have hh : c ∈ (trimStart (c :: rest)).head? := by
          rw [trimStart_cons (by simpa using hb)]
          rfl
        exact .inr (.inl (ht c hh))
    · injection hr with hd
      exact .inr (.inr hd.symm)

end TableLint.Definition
