import TableLint.Proofs.Paths
import TableLint.Tree.Exclude

/-!
Patterns that start with `**/`, tried on a path as a whole and on what lies below the root. What
follows the start is tried from every piece of a path on. So a pattern that excludes nothing below
the root can still exclude a path as a whole, but only from a piece of the root on.
-/
namespace TableLint.Tree

open Text

variable {root name s t : List Char} {names : List (List Char)} {ws : List Wildcard}

/-! ### From every piece on -/

theorem joinPieces_splitAt (s : List Char) : joinPieces (splitAt '/' s) = s := by
  induction s with
  | nil => rfl
  | cons c s ih =>
    obtain ⟨first, others, hs⟩ := List.exists_cons_of_ne_nil (splitAt_ne_nil '/' s)
    rw [hs] at ih
    by_cases hc : c = '/'
    · subst hc
      rw [splitAt_cons_self, hs, ← ih]
      rfl
    · rw [splitAt_cons_of_ne hc hs, ← ih]
      cases others <;> rfl

/-- The ends that start a piece are those that consist of the last pieces. -/
theorem mem_pieceEnds :
    t ∈ pieceEnds s ↔
      t = [] ∨ ∃ last, last ≠ [] ∧ last <:+ (splitAt '/' s).tail ∧ t = joinPieces last := by
  induction s with
  | nil => simp [pieceEnds, splitAt]
  | cons c s ih =>
    obtain ⟨first, others, hs⟩ := List.exists_cons_of_ne_nil (splitAt_ne_nil '/' s)
    by_cases hc : c = '/'
    · -- A slash: all that follows it is one more such end.
      subst hc
      have hjoin : joinPieces (first :: others) = s := by rw [← hs, joinPieces_splitAt]
      rw [pieceEnds, if_pos (by rfl), List.mem_cons, ih, splitAt_cons_self, hs, List.tail_cons,
        List.tail_cons]
      constructor
      · rintro (rfl | rfl | ⟨last, hne, hlast, rfl⟩)
        · exact .inr ⟨_, by simp, List.suffix_rfl, hjoin.symm⟩
        · exact .inl rfl
        · exact .inr ⟨last, hne, hlast.trans (List.suffix_cons first others), rfl⟩
      · rintro (rfl | ⟨last, hne, hlast, rfl⟩)
        · exact .inr (.inl rfl)
        · rcases List.suffix_cons_iff.mp hlast with rfl | hlast
          · exact .inl hjoin
          · exact .inr (.inr ⟨last, hne, hlast, rfl⟩)
    · rw [pieceEnds, if_neg (by simpa using hc), ih, hs, splitAt_cons_of_ne hc hs]
      rfl

theorem covers_anyPieces :
    covers (.anyPieces :: ws) s = true ↔
      covers ws [] = true ∨
        ∃ last, last ≠ [] ∧ last <:+ splitAt '/' s ∧ covers ws (joinPieces last) = true := by
  obtain ⟨first, others, hs⟩ := List.exists_cons_of_ne_nil (splitAt_ne_nil '/' s)
  have hjoin : joinPieces (first :: others) = s := by rw [← hs, joinPieces_splitAt]
  simp only [covers, Wildcard.rest, List.any_cons, Bool.or_eq_true, List.any_eq_true, mem_pieceEnds,
    hs, List.tail_cons]
  constructor
  · rintro (hc | ⟨_, rfl | ⟨last, hne, hlast, rfl⟩, hc⟩)
    · exact .inr ⟨_, by simp, List.suffix_rfl, hjoin ▸ hc⟩
    · exact .inl hc
    · exact .inr ⟨last, hne, hlast.trans (List.suffix_cons first others), hc⟩
  · rintro (hc | ⟨last, hne, hlast, hc⟩)
    · exact .inr ⟨[], .inl rfl, hc⟩
    · rcases List.suffix_cons_iff.mp hlast with rfl | hlast
      · exact .inl (hjoin ▸ hc)
      · exact .inr ⟨_, .inr ⟨last, hne, hlast, rfl⟩, hc⟩

/-- The last of two lists of pieces are some of the second or all of them after some of the
first. -/
theorem suffix_append_iff {last front back : List (List Char)} :
    last <:+ front ++ back ↔
      last <:+ back ∨ ∃ above, above ≠ [] ∧ above <:+ front ∧ last = above ++ back := by
  induction front with
  | nil =>
    simp only [List.nil_append, List.suffix_nil]
    constructor
    · exact .inl
    · rintro (h | ⟨above, hne, rfl, -⟩)
      · exact h
      · exact absurd rfl hne
  | cons piece front ih =>
    rw [List.cons_append, List.suffix_cons_iff, ih]
    constructor
    · rintro (rfl | h | ⟨above, hne, ha, rfl⟩)
      · exact .inr ⟨piece :: front, by simp, List.suffix_rfl, rfl⟩
      · exact .inl h
      · exact .inr ⟨above, hne, ha.trans (List.suffix_cons piece front), rfl⟩
    · rintro (h | ⟨above, hne, ha, rfl⟩)
      · exact .inr (.inl h)
      · rcases List.suffix_cons_iff.mp ha with rfl | ha
        · exact .inl rfl
        · exact .inr (.inr ⟨above, hne, ha, rfl⟩)

/-- From a piece of the root on, the wildcards cover the path along the names. -/
def CoversAbove (ws : List Wildcard) (root : List Char) (names : List (List Char)) : Prop :=
  ∃ above, above ≠ [] ∧ above <:+ frontPieces root ∧
    covers ws (joinPieces (above ++ names)) = true

theorem covers_goDown (hr : root ≠ []) (h : ∀ name ∈ names, IsName name) (hne : names ≠ []) :
    covers (.anyPieces :: ws) (goDown root names) = true ↔
      covers (.anyPieces :: ws) (joinPieces names) = true ∨ CoversAbove ws root names := by
  rw [covers_anyPieces, covers_anyPieces, splitAt_goDown hr h hne,
    splitAt_joinPieces (fun name hm => (h name hm).noSlash) hne]
  simp only [suffix_append_iff]
  constructor
  · rintro (hc | ⟨last, hl, hlast | ⟨above, ha, hfront, rfl⟩, hc⟩)
    · exact .inl (.inl hc)
    · exact .inl (.inr ⟨last, hl, hlast, hc⟩)
    · exact .inr ⟨above, ha, hfront, hc⟩
  · rintro ((hc | ⟨last, hl, hlast, hc⟩) | ⟨above, ha, hfront, hc⟩)
    · exact .inl hc
    · exact .inr ⟨last, hl, .inl hlast, hc⟩
    · exact .inr ⟨above ++ names, by simp [ha], .inr ⟨above, ha, hfront, rfl⟩, hc⟩

/-! ### Patterns with such a start -/

namespace ExcludePattern

variable {p : ExcludePattern} {text : List Char}

theorem wildcards?_start (rest : List Char) :
    wildcards? true ("**/".toList ++ rest) = (wildcards? true rest).map (.anyPieces :: ·) := by
  change wildcards? true ('*' :: '*' :: '/' :: rest) = _
  rw [wildcards?]
  simp

theorem exists_wildcards_of_parse? (h : "**/".toList <+: text) (hp : parse? text = some p) :
    ∃ ws, p.wildcards = .anyPieces :: ws := by
  obtain ⟨rest, rfl⟩ := h
  obtain ⟨wildcards, hw, rfl⟩ := Option.map_eq_some_iff.mp hp
  rw [wildcards?_start] at hw
  obtain ⟨ws, -, rfl⟩ := Option.map_eq_some_iff.mp hw
  exact ⟨ws, rfl⟩

/-- The pattern excludes a path because of what lies below the root. -/
def excludesBelow (p : ExcludePattern) (relative : List Char) : Bool :=
  covers p.wildcards relative ||
    p.bareName?.any fun name => (components relative).any fun c => componentText c == name

/-- What follows the start of the pattern covers the path from a piece of the root on. -/
def ReachesAbove (p : ExcludePattern) (root : List Char) (names : List (List Char)) : Prop :=
  CoversAbove p.wildcards.tail root names

theorem excludes_goDown (hp : ∃ ws, p.wildcards = .anyPieces :: ws) (hr : root ≠ [])
    (h : ∀ name ∈ names, IsName name) (hne : names ≠ []) :
    p.excludes (goDown root names) (joinPieces names) = true ↔
      p.excludesBelow (joinPieces names) = true ∨ p.ReachesAbove root names := by
  obtain ⟨ws, hw⟩ := hp
  rw [excludes, excludesBelow, ReachesAbove, hw, Bool.or_eq_true, Bool.or_eq_true, Bool.or_eq_true,
    covers_goDown hr h hne, List.tail_cons]
  tauto

/-! ### Patterns for a name -/

/-- The text stands for itself in a pattern, and for one piece. -/
def isPlain (name : List Char) : Bool :=
  name.all fun c => c != '*' && c != '?' && c != '[' && c != '/'

/-- The pattern for all that lies in a directory of this name. -/
def barring (name : List Char) : List Char := "**/".toList ++ (name ++ "/**".toList)

/-- The same pattern, read. -/
def forName (name : List Char) : ExcludePattern where
  text := barring name
  wildcards := .anyPieces :: (name.map .char ++ [.char '/', .anyPieces])

theorem wildcards?_char {c : Char} (hstar : c ≠ '*') (hany : c ≠ '?') (hclass : c ≠ '[')
    (atPiece : Bool) (s : List Char) :
    wildcards? atPiece (c :: s) = (wildcards? (c == '/') s).map (.char c :: ·) := by
  rw [wildcards?]
  · exact fun _ hc _ => hstar hc
  · exact fun _ hc _ => hstar hc
  · exact hstar
  · exact hany
  · exact hclass

theorem wildcards?_plain (h : isPlain name = true) (atPiece : Bool) (s : List Char) :
    wildcards? atPiece (name ++ '/' :: s) =
      (wildcards? true s).map fun ws => name.map .char ++ .char '/' :: ws := by
  induction name generalizing atPiece with
  | nil => exact wildcards?_char (by decide) (by decide) (by decide) atPiece s
  | cons c name ih =>
    simp only [isPlain, List.all_cons, Bool.and_eq_true, bne_iff_ne, ne_eq] at h
    obtain ⟨⟨⟨⟨hstar, hany⟩, hclass⟩, -⟩, hname⟩ := h
    rw [List.cons_append, wildcards?_char hstar hany hclass, ih (by simpa [isPlain] using hname),
      Option.map_map]
    rfl

theorem covers_chars (name : List Char) (ws : List Wildcard) (s : List Char) :
    covers (name.map .char ++ ws) s = true ↔ ∃ t, s = name ++ t ∧ covers ws t = true := by
  induction name generalizing s with
  | nil => simp
  | cons c name ih =>
    rw [List.map_cons, List.cons_append, covers]
    cases s with
    | nil => simp [Wildcard.rest]
    | cons d s =>
      by_cases hd : c = d
      · subst hd
        simp [Wildcard.rest, ih]
      · simp [Wildcard.rest, hd, Ne.symm hd]

/-- What follows the start of the pattern for a name covers what starts with the name. -/
theorem covers_name (name s : List Char) :
    covers (name.map .char ++ [.char '/', .anyPieces]) s = true ↔ ∃ t, s = name ++ '/' :: t := by
  have hrest : ∀ t, covers [.anyPieces] t = true := fun t => covers_anyPieces.mpr (.inl rfl)
  have hchars := covers_chars (name ++ ['/']) [.anyPieces] s
  simpa [hrest] using hchars

theorem parse?_barring (h : isPlain name = true) :
    parse? (barring name) = some (forName name) := by
  have hend : wildcards? true "**".toList = some [.anyPieces] := by
    change wildcards? true ['*', '*'] = _
    rw [wildcards?]
    simp
  rw [parse?, barring, wildcards?_start]
  change ((wildcards? true (name ++ '/' :: "**".toList)).map _).map _ = _
  rw [wildcards?_plain h, hend]
  rfl

theorem mapM_barring (h : ∀ name ∈ names, isPlain name = true) :
    (names.map barring).mapM parse? = some (names.map forName) := by
  induction names with
  | nil => rfl
  | cons name names ih =>
    rw [List.map_cons, List.mapM_cons, parse?_barring (h name List.mem_cons_self),
      ih fun other hm => h other (List.mem_cons_of_mem name hm)]
    rfl

theorem noSlash_of_isPlain (h : isPlain name = true) : '/' ∉ name := by
  intro hm
  simpa using List.all_eq_true.mp h '/' hm

/-- Such a pattern reaches above the root just if the name is a piece of the root; and then all that
lies below the root is excluded. -/
theorem reachesAbove_forName (h : isPlain name = true) (hne : names ≠ []) :
    (forName name).ReachesAbove root names ↔ name ∈ frontPieces root := by
  simp only [ReachesAbove, CoversAbove, forName, List.tail_cons, covers_name]
  constructor
  · rintro ⟨above, ha, hfront, t, ht⟩
    obtain ⟨first, others, rfl⟩ := List.exists_cons_of_ne_nil ha
    have hfirst : first ∈ frontPieces root := hfront.subset List.mem_cons_self
    have hslash : '/' ∉ first := not_mem_of_mem_splitAt hfirst
    rw [List.cons_append, joinPieces_cons first (by simp [hne])] at ht
    have hsplit := congrArg (splitAt '/') ht
    rw [splitAt_append_cons, splitAt_append_cons, splitAt_of_not_mem hslash,
      splitAt_of_not_mem (noSlash_of_isPlain h)] at hsplit
    exact (List.cons.inj hsplit).1 ▸ hfirst
  · intro hm
    obtain ⟨front, back, hf⟩ := List.append_of_mem hm
    exact ⟨name :: back, by simp, ⟨front, hf.symm⟩, joinPieces (back ++ names),
      joinPieces_cons name (by simp [hne])⟩

end ExcludePattern

end TableLint.Tree
