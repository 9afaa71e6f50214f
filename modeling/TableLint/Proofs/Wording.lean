import Mathlib.Data.List.Infix
import TableLint.Proofs.Cutting
import TableLint.Rule.Review

/-!
The wording of problems, as far as a review depends on it: which problems are worded as problems
with a reference, and what else can be found in the wording of an unresolved reference.
-/
namespace TableLint.Rule

open Text Definition

/-- The end of the wording of an unresolved reference. -/
def closing : List Char := " could not be resolved".toList

theorem message_unresolved (reference : List Char) :
    (Problem.unresolvedReference reference).message =
      "Foreign key reference ".toList ++ (reference ++ closing) := List.append_assoc _ _ _

theorem head?_literal (c : Char) (s : List Char) :
    (String.ofList (c :: s)).toList.head? = some c := by
  rw [String.toList_ofList]
  rfl

theorem head?_append_of_some {c : Char} {s t : List Char} (h : s.head? = some c) :
    (s ++ t).head? = some c := by
  rw [List.head?_append, h]
  rfl

theorem head?_toList_append {c : Char} {s t : String} (h : s.toList.head? = some c) :
    (s ++ t).toList.head? = some c := by
  rw [String.toList_append]
  exact head?_append_of_some h

/-- The first letter of the wording of a problem. -/
def initial : Problem → Char
  | .tableComment => 'T'
  | .attributeLine _ _ _ => 'D'
  | .nullableKey _ => 'P'
  | .attributeComment _ => 'A'
  | .unsupportedType _ => 'U'
  | .filepathDisabled => 'T'
  | .unknownAdapter _ => 'A'
  | .serializedDefault _ => 'T'
  | .arrowMissing _ _ _ => 'P'
  | .unresolvedReference _ => 'F'
  | .invalidOption _ => 'I'
  | .nullableDependency _ => 'P'
  | .indexLine _ => 'P'

theorem head?_message (problem : Problem) : problem.message.head? = some (initial problem) := by
  -- Each wording starts with a literal; its other characters stay unread.
  cases problem with
  | tableComment => exact head?_literal _ _
  | attributeLine _ _ _ =>
    iterate 5 apply head?_append_of_some
    exact head?_literal _ _
  | nullableKey _ => exact head?_append_of_some (head?_append_of_some (head?_literal _ _))
  | attributeComment _ => exact head?_append_of_some (head?_append_of_some (head?_literal _ _))
  | unsupportedType _ => exact head?_append_of_some (head?_literal _ _)
  | filepathDisabled =>
    exact head?_toList_append (head?_toList_append (head?_literal _ _))
  | unknownAdapter _ => exact head?_append_of_some (head?_append_of_some (head?_literal _ _))
  | serializedDefault _ => exact head?_append_of_some (head?_literal _ _)
  | arrowMissing _ _ _ =>
    iterate 8 apply head?_append_of_some
    exact head?_literal _ _
  | unresolvedReference _ => exact head?_append_of_some (head?_append_of_some (head?_literal _ _))
  | invalidOption _ => exact head?_append_of_some (head?_append_of_some (head?_literal _ _))
  | nullableDependency _ => exact head?_append_of_some (head?_append_of_some (head?_literal _ _))
  | indexLine _ => exact head?_append_of_some (head?_append_of_some (head?_literal _ _))

/-- Only an unresolved reference is worded as a problem with a reference. -/
theorem isReferenceProblem_message_iff (problem : Problem) :
    isReferenceProblem problem.message = true ↔
      ∃ reference, problem = .unresolvedReference reference := by
  constructor
  · intro h
    obtain ⟨t, ht⟩ := List.isPrefixOf_iff_prefix.mp h
    have hi : initial problem = 'F' := by
      have hh := head?_message problem
      rw [← ht] at hh
      exact (Option.some.inj hh).symm
    cases problem with
    | unresolvedReference reference => exact ⟨reference, rfl⟩
    | _ => simp [initial] at hi
  · rintro ⟨reference, rfl⟩
    rfl

/-! ### Pieces between fixed words -/

variable {piece x y s opening ending : List Char}

/-- A piece that fits neither over the end of the first text nor over the start of the second is
found in one of them. -/
theorem isInfix_append_iff_of_splits
    (h : ∀ k < piece.length, 0 < k → ¬(piece.take k <:+ x ∧ piece.drop k <+: y)) :
    piece <:+: x ++ y ↔ piece <:+: x ∨ piece <:+: y := by
  rw [List.infix_append_iff_ne_nil]
  constructor
  · rintro (hx | hy | ⟨u, v, hu, hv, rfl, hux, hvy⟩)
    · exact .inl hx
    · exact .inr hy
    · have hlen : u.length < (u ++ v).length := by
        have := List.length_pos_iff.mpr hv
        simp only [List.length_append]
        omega
      refine absurd ?_ (h u.length hlen (List.length_pos_iff.mpr hu))
      simp [hux, hvy]
  · rintro (hx | hy)
    · exact .inl hx
    · exact .inr (.inl hy)

/-- A text is passed over if no end of it can be continued to the piece. -/
theorem skips_of_tails (h : ∀ v ∈ x.tails, v ≠ [] → ¬v <+: piece ∧ ¬piece <+: v) :
    Skips piece x y := by
  rintro u v rfl hv hp
  obtain ⟨hvp, hpv⟩ := h v ((List.mem_tails _ _).mpr (List.suffix_append u v)) hv
  rcases Nat.le_total v.length piece.length with hl | hl
  · exact hvp (List.prefix_of_prefix_length_le (List.prefix_append v y) hp hl)
  · exact hpv (List.prefix_of_prefix_length_le hp (List.prefix_append v y) hl)

theorem isInfix_append_iff_of_skips (h : Skips piece x y) : piece <:+: x ++ y ↔ piece <:+: y := by
  rw [← occursIn_iff, ← occursIn_iff, occursIn, occursIn, cut?_append h, Option.isSome_map]

/-- The piece does not run into a text that begins with another character. -/
theorem not_drop_isPrefix {c : Char} (h : c ∉ piece) (t : List Char) :
    ∀ k < piece.length, 0 < k → ¬piece.drop k <+: c :: t := by
  intro k hk _ hp
  cases hd : piece.drop k with
  | nil => exact absurd (List.drop_eq_nil_iff.mp hd) (Nat.not_le.mpr hk)
  | cons d rest =>
    rw [hd, List.cons_prefix_cons] at hp
    exact h (hp.1 ▸ List.mem_of_mem_drop (hd ▸ List.mem_cons_self))

/-- A piece that neither starts in the text before nor ends in the text after is found between. -/
theorem isInfix_framed_iff (ho : Skips piece opening (s ++ ending))
    (he : ∀ k < piece.length, 0 < k → ¬piece.drop k <+: ending) (hn : ¬piece <:+: ending) :
    piece <:+: opening ++ s ++ ending ↔ piece <:+: s := by
  rw [List.append_assoc, isInfix_append_iff_of_skips ho,
    isInfix_append_iff_of_splits fun k hk hp h => he k hk hp h.2]
  simp only [hn, or_false]

/-- The mark of the filepath problem is in the wording only if it is in the reference. -/
theorem filepathMark_in_unresolved_iff (reference : List Char) :
    occursIn "filepath data".toList (Problem.unresolvedReference reference).message = true ↔
      "filepath data".toList <:+: reference := by
  have ho : ∀ y, Skips "filepath data".toList "Foreign key reference ".toList y :=
    fun y => skips_of_tails (by decide +kernel)
  rw [occursIn_iff]
  exact isInfix_framed_iff (ho _) (by decide) (by decide)

end TableLint.Rule
