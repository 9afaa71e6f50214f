import Mathlib.Data.List.Sort
import TableLint.Tree.Path

/-!
Sorting with ties, and orders of lists. A sort that keeps ties in order puts each element before all
those that it may precede; hence it can be done part by part where the parts are in order already,
and it does not matter whether elements are left out before or after.
-/
namespace TableLint.Tree

variable {α : Type} {le : α → α → Bool} {a : α} {l l₁ l₂ xs ys : List α}

/-- A comparison to sort by. Different elements may tie. -/
structure Sorts (le : α → α → Bool) : Prop where
  trans : ∀ a b c, le a b = true → le b c = true → le a c = true
  total : ∀ a b, (le a b || le b a) = true

/-- A comparison without ties. -/
structure Orders (le : α → α → Bool) : Prop extends Sorts le where
  antisymm : ∀ a b, le a b = true → le b a = true → a = b

theorem Sorts.refl (h : Sorts le) (a : α) : le a a = true := by simpa using h.total a a

/-! ### Stable sorting -/

/-- The place at which an element is sorted in: before the first one that it may precede. -/
theorem exists_mergeSort_cons (h : Sorts le) (a : α) (l : List α) :
    ∃ l₁ l₂, (a :: l).mergeSort le = l₁ ++ a :: l₂ ∧ l.mergeSort le = l₁ ++ l₂ ∧
      (∀ b ∈ l₁, le a b = false) ∧ ∀ b ∈ l₂, le a b = true := by
  obtain ⟨l₁, l₂, hc, hl, hlt⟩ := List.mergeSort_cons h.trans h.total a l
  refine ⟨l₁, l₂, hc, hl, fun b hb => by simpa using hlt b hb, ?_⟩
  have hs := List.pairwise_mergeSort h.trans h.total (a :: l)
  rw [hc, List.pairwise_append, List.pairwise_cons] at hs
  exact hs.2.1.1

/-- There is only one such place. -/
theorem mergeSort_cons_eq (h : Sorts le) (hl : l.mergeSort le = l₁ ++ l₂)
    (h₁ : ∀ b ∈ l₁, le a b = false) (h₂ : ∀ b ∈ l₂, le a b = true) :
    (a :: l).mergeSort le = l₁ ++ a :: l₂ := by
  obtain ⟨m₁, m₂, hm, hl', hm₁, hm₂⟩ := exists_mergeSort_cons h a l
  rw [hl] at hl'
  have hclash : ∀ b, le a b = false → le a b = true → False := by
    intro b hf ht
    rw [hf] at ht
    cases ht
  -- What lies between two such places would have to come both before and after the element.
  obtain ⟨w, rfl, rfl⟩ | ⟨w, rfl, rfl⟩ := List.append_eq_append_iff.mp hl'
  · cases w with
    | nil => simpa using hm
    | cons b w => exact (hclash b (hm₁ b (by simp)) (h₂ b (by simp))).elim
  · cases w with
    | nil => simpa using hm
    | cons b w => exact (hclash b (h₁ b (by simp)) (hm₂ b (by simp))).elim

/-- Parts that are in order are sorted one by one. -/
theorem mergeSort_append (h : Sorts le) (hxy : ∀ a ∈ xs, ∀ b ∈ ys, le a b = true) :
    (xs ++ ys).mergeSort le = xs.mergeSort le ++ ys.mergeSort le := by
  induction xs with
  | nil => simp
  | cons a xs ih =>
    have ih := ih fun b hb => hxy b (List.mem_cons_of_mem a hb)
    obtain ⟨l₁, l₂, hc, hl, h₁, h₂⟩ := exists_mergeSort_cons h a xs
    rw [hl, List.append_assoc] at ih
    rw [List.cons_append, mergeSort_cons_eq h ih h₁, hc, List.append_assoc, List.cons_append]
    intro b hb
    rcases List.mem_append.mp hb with hb | hb
    · exact h₂ b hb
    · exact hxy a List.mem_cons_self b (List.mem_mergeSort.mp hb)

theorem mergeSort_flatMap {β : Type} (h : Sorts le) {blocks : List β} {f : β → List α}
    (hb : blocks.Pairwise fun x y => ∀ a ∈ f x, ∀ b ∈ f y, le a b = true) :
    (blocks.flatMap f).mergeSort le = blocks.flatMap fun x => (f x).mergeSort le := by
  induction blocks with
  | nil => simp
  | cons x blocks ih =>
    rw [List.pairwise_cons] at hb
    rw [List.flatMap_cons, List.flatMap_cons, mergeSort_append h, ih hb.2]
    intro a ha b hm
    obtain ⟨y, hy, hm⟩ := List.mem_flatMap.mp hm
    exact hb.1 y hy a ha b hm

/-- Elements may be left out before sorting or after. -/
theorem filter_mergeSort (h : Sorts le) (p : α → Bool) (l : List α) :
    (l.mergeSort le).filter p = (l.filter p).mergeSort le := by
  induction l with
  | nil => simp
  | cons a l ih =>
    obtain ⟨l₁, l₂, hc, hl, h₁, h₂⟩ := exists_mergeSort_cons h a l
    rw [hl, List.filter_append] at ih
    rw [hc, List.filter_append]
    cases hp : p a with
    | false =>
      rw [List.filter_cons_of_neg (by simp [hp]), List.filter_cons_of_neg (by simp [hp]), ih]
    | true =>
      rw [List.filter_cons_of_pos hp, List.filter_cons_of_pos hp, mergeSort_cons_eq h ih.symm]
      · intro b hb
        exact h₁ b (List.mem_filter.mp hb).1
      · intro b hb
        exact h₂ b (List.mem_filter.mp hb).1

/-- So may elements be changed, if that does not change how they compare. -/
theorem filterMap_mergeSort (h : Sorts le) {f : α → Option α}
    (hf : ∀ a b a' b', f a = some a' → f b = some b' → le a' b' = le a b) (l : List α) :
    (l.mergeSort le).filterMap f = (l.filterMap f).mergeSort le := by
  have hfm : ∀ l : List α,
      l.filterMap f = (l.filter fun a => (f a).isSome).map fun a => (f a).getD a := by
    intro l
    induction l with
    | nil => rfl
    | cons a l ih => cases ha : f a <;> simp [ha, ih]
  rw [hfm, hfm, filter_mergeSort h]
  apply List.map_mergeSort
  intro a ha b hb
  obtain ⟨a', ha'⟩ := Option.isSome_iff_exists.mp (List.mem_filter.mp ha).2
  obtain ⟨b', hb'⟩ := Option.isSome_iff_exists.mp (List.mem_filter.mp hb).2
  simp [ha', hb', hf a b a' b' ha' hb']

/-- Comparisons that agree on the elements of a list sort it alike. -/
theorem mergeSort_congr {le' : α → α → Bool} (h : ∀ a ∈ l, ∀ b ∈ l, le a b = le' a b) :
    l.mergeSort le = l.mergeSort le' := by
  simpa using List.map_mergeSort (f := id) h

/-- Without ties the order in which elements come makes no difference. -/
theorem mergeSort_of_perm (h : Sorts le)
    (hs : ∀ a ∈ xs, ∀ b ∈ xs, le a b = true → le b a = true → a = b) (hp : xs.Perm ys) :
    xs.mergeSort le = ys.mergeSort le := by
  refine List.Perm.eq_of_pairwise ?_ (List.pairwise_mergeSort h.trans h.total xs)
    (List.pairwise_mergeSort h.trans h.total ys)
    ((List.mergeSort_perm xs le).trans (hp.trans (List.mergeSort_perm ys le).symm))
  intro a b ha hb
  exact hs a (List.mem_mergeSort.mp ha) b (hp.mem_iff.mpr (List.mem_mergeSort.mp hb))

/-! ### The order of lists -/

section Lex

variable [BEq α] [LawfulBEq α] {b : α}

theorem lexLE_cons_self (le : α → α → Bool) (a : α) (as bs : List α) :
    lexLE le (a :: as) (a :: bs) = lexLE le as bs := by
  simp [lexLE]

theorem lexLE_cons_of_ne (le : α → α → Bool) (h : a ≠ b) (as bs : List α) :
    lexLE le (a :: as) (b :: bs) = le a b := by
  simp [lexLE, h]

/-- What lists start with in common does not count. -/
theorem lexLE_append (le : α → α → Bool) (common as bs : List α) :
    lexLE le (common ++ as) (common ++ bs) = lexLE le as bs := by
  induction common with
  | nil => rfl
  | cons a common ih => rw [List.cons_append, List.cons_append, lexLE_cons_self, ih]

theorem Orders.lexLE (h : Orders le) : Orders (lexLE le) where
  trans := by
    intro as
    induction as with
    | nil => intro bs cs _ _; simp [Tree.lexLE]
    | cons a as ih =>
      rintro (_ | ⟨b, bs⟩) (_ | ⟨c, cs⟩) hab hbc
      · cases hab
      · cases hab
      · cases hbc
      · by_cases hb : a = b
        · subst hb
          by_cases hc : a = c
          · subst hc
            rw [lexLE_cons_self] at hab hbc ⊢
            exact ih _ _ hab hbc
          · rw [lexLE_cons_of_ne le hc] at hbc ⊢
            exact hbc
        · rw [lexLE_cons_of_ne le hb] at hab
          by_cases hc : b = c
          · subst hc
            rw [lexLE_cons_of_ne le hb]
            exact hab
          · rw [lexLE_cons_of_ne le hc] at hbc
            have hac : a ≠ c := by
              rintro rfl
              exact hb (h.antisymm a b hab hbc)
            rw [lexLE_cons_of_ne le hac]
            exact h.trans a b c hab hbc
  total := by
    intro as
    induction as with
    | nil => intro bs; simp [Tree.lexLE]
    | cons a as ih =>
      rintro (_ | ⟨b, bs⟩)
      · rfl
      · by_cases hb : a = b
        · subst hb
          rw [lexLE_cons_self, lexLE_cons_self]
          exact ih bs
        · rw [lexLE_cons_of_ne le hb, lexLE_cons_of_ne le (Ne.symm hb)]
          exact h.total a b
  antisymm := by
    intro as
    induction as with
    | nil =>
      rintro (_ | ⟨b, bs⟩) _ hba
      · rfl
      · cases hba
    | cons a as ih =>
      rintro (_ | ⟨b, bs⟩) hab hba
      · cases hab
      · by_cases hb : a = b
        · subst hb
          rw [lexLE_cons_self] at hab hba
          rw [ih bs hab hba]
        · rw [lexLE_cons_of_ne le hb] at hab
          rw [lexLE_cons_of_ne le (Ne.symm hb)] at hba
          exact absurd (h.antisymm a b hab hba) hb

end Lex

end TableLint.Tree
