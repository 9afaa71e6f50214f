import Mathlib.Data.List.Infix
import Mathlib.Data.List.TakeWhile
import TableLint.Text.Blank
import TableLint.Text.Split

/-!
Cutting and trimming, stated on concatenations. `cut?` finds the first occurrence of a piece, so a
text whose beginning holds no start of an occurrence is cut where the remaining text is cut. An
occurrence may run from one part of a concatenation into the next; `Skips` excludes that too.
-/
namespace TableLint.Text

variable {piece s t x y before after : List Char}

/-- The text is made of blanks. -/
def AllBlank (s : List Char) : Prop := ∀ c ∈ s, isBlank c = true

instance (s : List Char) : Decidable (AllBlank s) :=
  decidable_of_iff (s.all isBlank = true) List.all_eq_true

theorem allBlank_append : AllBlank (x ++ y) ↔ AllBlank x ∧ AllBlank y := by
  simp only [AllBlank, List.mem_append]
  constructor
  · intro h
    exact ⟨fun c hc => h c (.inl hc), fun c hc => h c (.inr hc)⟩
  · rintro ⟨hx, hy⟩ c (hc | hc)
    · exact hx c hc
    · exact hy c hc

theorem AllBlank.not_mem {c : Char} (h : AllBlank s) (hc : isBlank c = false) : c ∉ s := by
  intro hm
  rw [h c hm] at hc
  cases hc

/-- Each character but the separator is in one of the pieces. -/
theorem mem_splitAt {separator c : Char} (hc : c ∈ s) (hn : c ≠ separator) :
    ∃ piece ∈ splitAt separator s, c ∈ piece := by
  induction s with
  | nil => cases hc
  | cons d s ih =>
    rw [splitAt]
    split
    · next hd =>
      have hs : c ∈ s := by
        rcases List.mem_cons.mp hc with rfl | hs
        · exact absurd (beq_iff_eq.mp hd) hn
        · exact hs
      obtain ⟨piece, hp, hcp⟩ := ih hs
      exact ⟨piece, by simp [hp], hcp⟩
    · split
      · next he =>
        rcases List.mem_cons.mp hc with rfl | hs
        · exact ⟨[c], by simp, by simp⟩
        · obtain ⟨piece, hp, -⟩ := ih hs
          simp [he] at hp
      · next first others he =>
        rcases List.mem_cons.mp hc with rfl | hs
        · exact ⟨c :: first, by simp, by simp⟩
        · obtain ⟨piece, hp, hcp⟩ := ih hs
          rcases List.mem_cons.mp (he ▸ hp) with rfl | ho
          · exact ⟨d :: piece, by simp, by simp [hcp]⟩
          · exact ⟨piece, by simp [ho], hcp⟩

theorem cut?_eq_some (h : cut? piece s = some (before, after)) : s = before ++ piece ++ after := by
  induction s generalizing before with
  | nil =>
    simp only [cut?, Option.map_eq_some_iff] at h
    obtain ⟨rest, hr, he⟩ := h
    cases he
    simpa using (List.isPrefixOf?_eq_some_iff_append_eq.mp hr).symm
  | cons c s ih =>
    rw [cut?] at h
    split at h
    · next rest hr =>
      cases h
      exact (List.isPrefixOf?_eq_some_iff_append_eq.mp hr).symm
    · obtain ⟨⟨b, a⟩, hb, he⟩ := Option.map_eq_some_iff.mp h
      cases he
      rw [ih hb]
      rfl

/-- A piece at the very start is found there. -/
theorem cut?_append_self (piece t : List Char) : cut? piece (piece ++ t) = some ([], t) := by
  cases hs : piece ++ t with
  | nil =>
    obtain ⟨rfl, rfl⟩ := List.append_eq_nil_iff.mp hs
    rfl
  | cons c s =>
    have hr : piece.isPrefixOf? (c :: s) = some t :=
      List.isPrefixOf?_eq_some_iff_append_eq.mpr hs
    simp only [cut?, hr]

/-- One character is passed over unless the piece starts with it. -/
theorem cut?_cons {c : Char} (h : ¬piece <+: c :: s) :
    cut? piece (c :: s) = (cut? piece s).map fun (before, after) => (c :: before, after) := by
  have hn : piece.isPrefixOf? (c :: s) = none := by
    rw [Option.eq_none_iff_forall_not_mem]
    intro rest hr
    exact h ⟨rest, List.isPrefixOf?_eq_some_iff_append_eq.mp hr⟩
  simp only [cut?, hn]

/-- No occurrence of the piece in `x ++ y` starts inside `x`. -/
def Skips (piece x y : List Char) : Prop := ∀ u v, x = u ++ v → v ≠ [] → ¬piece <+: v ++ y

theorem skips_cons {c : Char} (h : Skips piece (c :: x) y) :
    ¬piece <+: c :: (x ++ y) ∧ Skips piece x y := by
  refine ⟨h [] (c :: x) rfl (by simp), ?_⟩
  intro u v he hv
  exact h (c :: u) v (by simp [he]) hv

theorem skips_append (hx : Skips piece x (y ++ t)) (hy : Skips piece y t) :
    Skips piece (x ++ y) t := by
  intro u v he hv hp
  obtain ⟨w, -, rfl⟩ | ⟨w, rfl, rfl⟩ := List.append_eq_append_iff.mp he
  · exact hy w v rfl hv hp
  · cases w with
    | nil => exact hy [] y rfl (by simpa using hv) (by simpa using hp)
    | cons c w => exact hx u (c :: w) rfl (by simp) (by simpa using hp)

/-- Passing over a text without a start of the piece. -/
theorem cut?_append (h : Skips piece x y) :
    cut? piece (x ++ y) = (cut? piece y).map fun (before, after) => (x ++ before, after) := by
  induction x with
  | nil => simp
  | cons c x ih =>
    obtain ⟨hc, hx⟩ := skips_cons h
    rw [List.cons_append, cut?_cons hc, ih hx]
    cases cut? piece y <;> rfl

/-- An occurrence stays the first one when text is appended. -/
theorem cut?_append_right (h : cut? piece s = some (before, after)) :
    cut? piece (s ++ t) = some (before, after ++ t) := by
  induction s generalizing before with
  | nil =>
    obtain ⟨rfl, rfl, rfl⟩ : before = [] ∧ piece = [] ∧ after = [] := by
      simpa using (cut?_eq_some h).symm
    exact cut?_append_self [] t
  | cons c s ih =>
    by_cases hp : piece <+: c :: s
    · obtain ⟨rest, hr⟩ := hp
      rw [← hr, cut?_append_self] at h
      cases h
      rw [← hr, List.append_assoc, cut?_append_self]
    · rw [cut?_cons hp] at h
      obtain ⟨⟨b, a⟩, hb, he⟩ := Option.map_eq_some_iff.mp h
      cases he
      -- The piece is no longer than the text in which it was found, so it cannot run out of it.
      have hlen : piece.length ≤ (c :: s).length := by
        have := congrArg List.length (cut?_eq_some hb)
        simp only [List.length_append, List.length_cons] at this ⊢
        omega
      have hpt : ¬piece <+: c :: (s ++ t) := by
        intro hpt
        exact hp (List.prefix_of_prefix_length_le hpt (List.prefix_append (c :: s) t) hlen)
      rw [List.cons_append, cut?_cons hpt, ih hb]
      rfl

theorem upTo_append (h : Skips piece x y) : upTo piece (x ++ y) = x ++ upTo piece y := by
  rw [upTo, cut?_append h, upTo]
  cases cut? piece y <;> rfl

theorem upTo_append_self (piece t : List Char) : upTo piece (piece ++ t) = [] := by
  simp only [upTo, cut?_append_self]

/-- What is kept is the start of the text. -/
theorem upTo_isPrefix (piece s : List Char) : upTo piece s <+: s := by
  rw [upTo]
  split
  · next before after h => exact ⟨piece ++ after, by simp [cut?_eq_some h]⟩
  · exact List.prefix_rfl

/-- What is kept of a text with the piece in it ends where the piece begins, or before. -/
theorem upTo_append_isPrefix (piece s t : List Char) : upTo piece (s ++ (piece ++ t)) <+: s := by
  induction s with
  | nil =>
    rw [List.nil_append, upTo_append_self]
  | cons c s ih =>
    by_cases hp : piece <+: c :: (s ++ (piece ++ t))
    · obtain ⟨rest, hr⟩ := hp
      rw [List.cons_append, ← hr, upTo_append_self]
      exact List.nil_prefix
    · rw [upTo] at ih
      rw [List.cons_append, upTo, cut?_cons hp]
      cases hc : cut? piece (s ++ (piece ++ t)) with
      | none =>
        rw [hc] at ih
        exact List.cons_prefix_cons.mpr ⟨rfl, ih⟩
      | some parts =>
        rw [hc] at ih
        exact List.cons_prefix_cons.mpr ⟨rfl, ih⟩

theorem cut?_eq_none_iff : cut? piece s = none ↔ ¬piece <:+: s := by
  constructor
  · intro h
    rintro ⟨u, t, rfl⟩
    induction u with
    | nil => simp [cut?_append_self] at h
    | cons c u ih =>
      by_cases hp : piece <+: c :: (u ++ piece ++ t)
      · obtain ⟨rest, hr⟩ := hp
        simp only [List.cons_append] at h
        rw [← hr, cut?_append_self] at h
        cases h
      · simp only [List.cons_append] at h
        rw [cut?_cons hp, Option.map_eq_none_iff] at h
        exact ih h
  · intro h
    rw [Option.eq_none_iff_forall_not_mem]
    rintro ⟨b, a⟩ hc
    exact h ⟨b, a, (cut?_eq_some hc).symm⟩

theorem occursIn_iff : occursIn piece s = true ↔ piece <:+: s := by
  rw [occursIn, Option.isSome_iff_ne_none, ne_eq, cut?_eq_none_iff, not_not]

theorem upTo_of_not_isInfix (h : ¬piece <:+: s) : upTo piece s = s := by
  rw [upTo, cut?_eq_none_iff.mpr h]

/-- An occurrence that starts in `x` ends in `x` if the next text begins with a character that the
piece has only as its first. -/
theorem prefix_of_prefix_append (hx : x ≠ []) (hy : ∀ c ∈ y.head?, c ∉ piece.tail)
    (h : piece <+: x ++ y) : piece <+: x := by
  obtain ⟨r, hr⟩ := h
  obtain ⟨w, rfl, -⟩ | ⟨w, rfl, rfl⟩ := List.append_eq_append_iff.mp hr
  · exact List.prefix_append piece w
  · cases w with
    | nil => simp
    | cons c w =>
      have hc : c ∈ (x ++ c :: w).tail := by
        rw [List.tail_append_of_ne_nil hx]
        simp
      exact absurd hc (hy c (by simp))

/-- A text without the piece is passed over if no occurrence can run out of it. -/
theorem skips_of_not_isInfix (hx : ¬piece <:+: x) (hy : ∀ c ∈ y.head?, c ∉ piece.tail) :
    Skips piece x y := by
  rintro u v rfl hv hp
  have hpv := prefix_of_prefix_append hv hy hp
  exact hx (hpv.isInfix.trans (List.suffix_append u v).isInfix)

/-- A text without the first character of the piece is passed over. -/
theorem skips_of_not_mem {c : Char} (h : c ∉ x) : Skips (c :: piece) x y := by
  rintro u v rfl hv hp
  cases v with
  | nil => exact hv rfl
  | cons d v =>
    rw [List.cons_append, List.cons_prefix_cons] at hp
    exact h (by simp [hp.1])

/-- A text without the character is what is cut off before it. -/
theorem cut?_append_char {c : Char} (h : c ∉ x) (y : List Char) :
    cut? [c] (x ++ c :: y) = some (x, y) := by
  have hself : cut? [c] (c :: y) = some ([], y) := cut?_append_self [c] y
  rw [cut?_append (skips_of_not_mem h), hself]
  simp

theorem trimStart_append (h : AllBlank x) : trimStart (x ++ s) = trimStart s :=
  List.dropWhile_append_of_pos h

theorem trimEnd_append (h : AllBlank y) : trimEnd (s ++ y) = trimEnd s := by
  have hr : ∀ c ∈ y.reverse, isBlank c = true := by
    intro c hc
    exact h c (List.mem_reverse.mp hc)
  rw [trimEnd, List.reverse_append, List.dropWhile_append_of_pos hr, trimEnd]

/-- What no blank is, the start of a text is not if the text after its blanks does not start so. -/
theorem head?_blank_append {p : Char → Bool} (hp : ∀ c, isBlank c = true → p c = false)
    (hy : AllBlank y) (ht : ∀ c ∈ t.head?, p c = false) : ∀ c ∈ (y ++ t).head?, p c = false := by
  cases y with
  | nil => exact ht
  | cons d y =>
    intro c hc
    obtain rfl := Option.some.inj hc
    exact hp d (hy d List.mem_cons_self)

/-- The longest start of characters of a kind ends where the next character is not of the kind. -/
theorem span_append {p : Char → Bool} (hs : ∀ c ∈ s, p c = true)
    (ht : ∀ c ∈ t.head?, p c = false) :
    (s ++ t).takeWhile p = s ∧ (s ++ t).dropWhile p = t := by
  rw [List.takeWhile_append_of_pos hs, List.dropWhile_append_of_pos hs]
  cases t with
  | nil => simp
  | cons c t => simp [ht c rfl]

theorem bne_of_not_mem {c : Char} (h : c ∉ s) : ∀ d ∈ s, (d != c) = true := by
  intro d hd
  rw [bne_iff_ne]
  rintro rfl
  exact h hd

/-- A text without the character is what stands before the first occurrence. -/
theorem span_append_cons {c : Char} (h : c ∉ s) (t : List Char) :
    (s ++ c :: t).takeWhile (· != c) = s ∧ (s ++ c :: t).dropWhile (· != c) = c :: t :=
  span_append (bne_of_not_mem h) (by simp)

theorem trimStart_eq_nil_iff : trimStart s = [] ↔ AllBlank s := List.dropWhile_eq_nil_iff

/-- A text is its leading blanks and the rest. -/
theorem exists_eq_append_trimStart (s : List Char) : ∃ x, AllBlank x ∧ s = x ++ trimStart s :=
  ⟨s.takeWhile isBlank, fun _ h => List.mem_takeWhile_imp h, List.takeWhile_append_dropWhile.symm⟩

theorem exists_eq_trimEnd_append (s : List Char) : ∃ y, AllBlank y ∧ s = trimEnd s ++ y := by
  obtain ⟨x, hx, he⟩ := exists_eq_append_trimStart s.reverse
  refine ⟨x.reverse, fun c hc => hx c (List.mem_reverse.mp hc), ?_⟩
  have hs := congrArg List.reverse he
  rw [List.reverse_reverse, List.reverse_append] at hs
  exact hs

/-- A text is its trimmed part between blanks. -/
theorem exists_eq_append_trim (s : List Char) :
    ∃ x y, AllBlank x ∧ AllBlank y ∧ s = x ++ trim s ++ y := by
  obtain ⟨x, hx, hs⟩ := exists_eq_append_trimStart s
  obtain ⟨y, hy, ht⟩ := exists_eq_trimEnd_append (trimStart s)
  refine ⟨x, y, hx, hy, ?_⟩
  rw [List.append_assoc, trim, ← ht]
  exact hs

/-- Only blanks are trimmed away. -/
theorem mem_trim {c : Char} (h : c ∈ s) (hc : isBlank c = false) : c ∈ trim s := by
  obtain ⟨x, y, hx, hy, he⟩ := exists_eq_append_trim s
  rw [he, List.mem_append, List.mem_append] at h
  rcases h with (hm | hm) | hm
  · exact absurd hm (hx.not_mem hc)
  · exact hm
  · exact absurd hm (hy.not_mem hc)

theorem trimStart_cons {c : Char} (h : isBlank c = false) : trimStart (c :: s) = c :: s := by
  simp [trimStart, h]

theorem trimEnd_concat {c : Char} (h : isBlank c = false) : trimEnd (s ++ [c]) = s ++ [c] := by
  simp [trimEnd, h]

/-- A blank text trims to nothing. -/
theorem trim_eq_nil (h : AllBlank s) : trim s = [] := by
  rw [trim, trimStart_eq_nil_iff.mpr h]
  rfl

theorem allBlank_of_trim_eq_nil (h : trim s = []) : AllBlank s := by
  obtain ⟨x, y, hx, hy, he⟩ := exists_eq_append_trim s
  rw [he, h, List.append_nil]
  exact allBlank_append.mpr ⟨hx, hy⟩

/-- Blanks around a text without blanks are all that trimming takes away. -/
theorem trim_blank_append_blank (hx : AllBlank x) (hy : AllBlank y)
    (hs : ∀ c ∈ s, isBlank c = false) : trim (x ++ s ++ y) = s := by
  rw [List.append_assoc, trim, trimStart_append hx]
  cases hs' : s with
  | nil =>
    rw [List.nil_append, trimStart_eq_nil_iff.mpr hy]
    rfl
  | cons c r =>
    subst hs'
    rw [List.cons_append, trimStart_cons (hs c (by simp)), ← List.cons_append, trimEnd_append hy]
    rw [← List.dropLast_concat_getLast (l := c :: r) (by simp)]
    exact trimEnd_concat (hs _ (List.getLast_mem (by simp)))

theorem trim_blank_append (hx : AllBlank x) (hs : ∀ c ∈ s, isBlank c = false) :
    trim (x ++ s) = s := by
  have hnil : AllBlank [] := by
    intro c hc
    cases hc
  simpa using trim_blank_append_blank hx hnil hs

theorem bne_of_mem_reverse {c : Char} (h : c ∉ s) : ∀ d ∈ s.reverse, (d != c) = true :=
  bne_of_not_mem (mt List.mem_reverse.mp h)

theorem afterLast_append_cons {c : Char} (h : c ∉ t) : afterLast c (s ++ c :: t) = t := by
  rw [afterLast, List.reverse_append, List.reverse_cons, List.append_assoc,
    List.takeWhile_append_of_pos (bne_of_mem_reverse h)]
  simp

theorem afterLast_of_not_mem {c : Char} (h : c ∉ s) : afterLast c s = s := by
  rw [afterLast, List.takeWhile_eq_self_iff.mpr (bne_of_mem_reverse h), List.reverse_reverse]

theorem afterLast_isSuffix (c : Char) (s : List Char) : afterLast c s <:+ s := by
  rw [afterLast, ← List.reverse_prefix, List.reverse_reverse]
  exact List.takeWhile_prefix _

/-- A text splits at the last occurrence of a character. -/
theorem exists_eq_append_cons_last {c : Char} (h : c ∈ s) : ∃ u t, s = u ++ c :: t ∧ c ∉ t := by
  obtain ⟨t, u, he, ht⟩ := List.eq_append_cons_of_mem (List.mem_reverse.mpr h)
  refine ⟨u.reverse, t.reverse, ?_, fun hm => ht (List.mem_reverse.mp hm)⟩
  have hs := congrArg List.reverse he
  simpa using hs

/-- Text without the character is appended to what stands after its last occurrence. -/
theorem afterLast_append {c : Char} (h : c ∉ y) : afterLast c (x ++ y) = afterLast c x ++ y := by
  by_cases hx : c ∈ x
  · obtain ⟨u, t, rfl, ht⟩ := exists_eq_append_cons_last hx
    rw [List.append_assoc, List.cons_append, afterLast_append_cons (by simp [ht, h]),
      afterLast_append_cons ht]
  · rw [afterLast_of_not_mem (by simp [hx, h]), afterLast_of_not_mem hx]

/-- Text before an occurrence of the character does not count. -/
theorem afterLast_append_of_mem {c : Char} (h : c ∈ y) : afterLast c (x ++ y) = afterLast c y := by
  obtain ⟨u, t, rfl, ht⟩ := exists_eq_append_cons_last h
  rw [← List.append_assoc, afterLast_append_cons ht, afterLast_append_cons ht]

theorem not_mem_afterLast (c : Char) (s : List Char) : c ∉ afterLast c s := by
  intro h
  have hp := List.mem_takeWhile_imp (List.mem_reverse.mp h)
  simp at hp

end TableLint.Text
