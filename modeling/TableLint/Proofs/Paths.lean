import TableLint.Proofs.Lines
import TableLint.Proofs.Sorting

/-!
Paths and their components. Paths are ordered by their components, so paths below one directory are
ordered by what comes after it; and what comes after it is what the path relative to the directory
consists of.
-/
namespace TableLint.Tree

open Text

variable {base path root : List Char} {pieces names : List (List Char)}

/-! ### The order of paths -/

theorem orders_textLE : Orders textLE := by
  apply Orders.lexLE
  refine ⟨⟨?_, ?_⟩, ?_⟩
  · intro a b c hab hbc
    simp only [decide_eq_true_eq] at *
    omega
  · intro a b
    simp only [Bool.or_eq_true, decide_eq_true_eq]
    omega
  · intro a b hab hba
    simp only [decide_eq_true_eq] at hab hba
    exact Char.toNat_inj.mp (Nat.le_antisymm hab hba)

theorem orders_componentLE : Orders Component.le := by
  refine ⟨⟨?_, ?_⟩, ?_⟩
  · intro a b c hab hbc
    cases a <;> cases b <;> cases c <;> simp [Component.le, Component.rank] at hab hbc ⊢
    exact orders_textLE.trans _ _ _ hab hbc
  · intro a b
    cases a <;> cases b <;> simp [Component.le, Component.rank]
    simpa using orders_textLE.total _ _
  · intro a b hab hba
    cases a <;> cases b <;> simp [Component.le, Component.rank] at hab hba ⊢
    exact orders_textLE.antisymm _ _ hab hba

theorem orders_componentsLE : Orders componentsLE := orders_componentLE.lexLE

theorem sorts_pathLE : Sorts pathLE where
  trans _ _ _ := orders_componentsLE.trans _ _ _
  total _ _ := orders_componentsLE.total _ _

/-- Paths that come before each other have the same components. -/
theorem components_eq_of_pathLE {p q : List Char} (hpq : pathLE p q = true)
    (hqp : pathLE q p = true) : components p = components q :=
  orders_componentsLE.antisymm _ _ hpq hqp

/-! ### Pieces that do not count -/

theorem filter_isReal_dropWhile (pieces : List (List Char)) :
    (pieces.dropWhile (!isReal ·)).filter isReal = pieces.filter isReal := by
  induction pieces with
  | nil => rfl
  | cons piece pieces ih => cases h : isReal piece <;> simp [h, ih]

theorem trimPieces_isPrefix (pieces : List (List Char)) : trimPieces pieces <+: pieces := by
  rw [trimPieces, ← List.reverse_suffix, List.reverse_reverse]
  exact List.dropWhile_suffix _

theorem filter_isReal_trimPieces (pieces : List (List Char)) :
    (trimPieces pieces).filter isReal = pieces.filter isReal := by
  rw [trimPieces, List.filter_reverse, filter_isReal_dropWhile, List.filter_reverse,
    List.reverse_reverse]

theorem filter_isReal_dropReal (n : Nat) (pieces : List (List Char)) :
    (dropReal n pieces).filter isReal = (pieces.filter isReal).drop n := by
  induction pieces generalizing n with
  | nil => cases n <;> rfl
  | cons piece pieces ih =>
    cases n with
    | zero => rfl
    | succ n => cases h : isReal piece <;> simp [dropReal, h, ih]

theorem isSuffix_dropReal (n : Nat) (pieces : List (List Char)) :
    dropReal n pieces <:+ pieces := by
  induction pieces generalizing n with
  | nil => cases n <;> exact List.suffix_rfl
  | cons piece pieces ih =>
    cases n with
    | zero => exact List.suffix_rfl
    | succ n =>
      rw [dropReal]
      split
      · exact (ih n).trans (List.suffix_cons piece pieces)
      · exact (ih (n + 1)).trans (List.suffix_cons piece pieces)

/-- Without the pieces at either end that do not count, the first piece counts. -/
theorem exists_cons_trimPieces (h : pieces.filter isReal ≠ []) :
    ∃ first others, trimPieces (pieces.dropWhile (!isReal ·)) = first :: others ∧
      isReal first = true := by
  have hne : trimPieces (pieces.dropWhile (!isReal ·)) ≠ [] := by
    intro he
    rw [← filter_isReal_dropWhile, ← filter_isReal_trimPieces, he] at h
    exact h rfl
  obtain ⟨first, others, he⟩ := List.exists_cons_of_ne_nil hne
  obtain ⟨rest, hr⟩ := trimPieces_isPrefix (pieces.dropWhile (!isReal ·))
  refine ⟨first, others, he, ?_⟩
  have hd := List.head?_dropWhile_not (!isReal ·) pieces
  rw [← hr, he] at hd
  simpa using hd

/-! ### Joined pieces -/

theorem eq_nil_of_splitAt {separator : Char} {s : List Char} (h : splitAt separator s = [[]]) :
    s = [] := by
  cases s with
  | nil => rfl
  | cons c s =>
    obtain ⟨first, others, hs⟩ := List.exists_cons_of_ne_nil (splitAt_ne_nil separator s)
    by_cases hc : c = separator
    · subst hc
      rw [splitAt_cons_self, hs] at h
      cases h
    · rw [splitAt_cons_of_ne hc hs] at h
      cases h

theorem joinPieces_cons (piece : List Char) (h : pieces ≠ []) :
    joinPieces (piece :: pieces) = piece ++ '/' :: joinPieces pieces := by
  cases pieces with
  | nil => exact absurd rfl h
  | cons second others => rfl

theorem joinPieces_eq_intercalate (pieces : List (List Char)) :
    joinPieces pieces = ['/'].intercalate pieces := by
  fun_induction joinPieces pieces with
  | case1 => rfl
  | case2 piece => simp
  | case3 piece pieces hp ih =>
    obtain ⟨second, others, rfl⟩ := List.exists_cons_of_ne_nil hp
    rw [ih, List.intercalate_cons_cons, List.append_assoc, List.singleton_append]

theorem splitAt_joinPieces (h : ∀ piece ∈ pieces, '/' ∉ piece) (hne : pieces ≠ []) :
    splitAt '/' (joinPieces pieces) = pieces := by
  rw [joinPieces_eq_intercalate]
  exact splitAt_intercalate h hne

/-- A path that starts with a piece that counts has no other start than its pieces. -/
theorem piecesOf_joinPieces {first : List Char} {others : List (List Char)}
    (h : ∀ piece ∈ first :: others, '/' ∉ piece) (hf : isReal first = true) :
    piecesOf (joinPieces (first :: others)) = ⟨none, first :: others⟩ := by
  rw [piecesOf, splitAt_joinPieces h (by simp)]
  split
  · next he =>
    obtain ⟨rfl, -⟩ := List.cons.inj he
    simp [isReal] at hf
  · next he =>
    obtain ⟨rfl, -⟩ := List.cons.inj he
    simp [isReal] at hf
  · rfl

theorem components_joinPieces {first : List Char} {others : List (List Char)}
    (h : ∀ piece ∈ first :: others, '/' ∉ piece) (hf : isReal first = true) :
    components (joinPieces (first :: others)) =
      ((first :: others).filter isReal).map Component.ofPiece := by
  rw [components, piecesOf_joinPieces h hf]
  rfl

theorem body_subset (path : List Char) : (piecesOf path).body ⊆ splitAt '/' path := by
  rw [piecesOf]
  split <;> next h => simp [h]

/-! ### Paths seen from a directory -/

theorem components_eq (path : List Char) :
    components path = (piecesOf path).head.toList ++
      ((piecesOf path).body.filter isReal).map Component.ofPiece := rfl

/-- The path lies below the directory and is not the directory itself. -/
def LiesBelow (base path : List Char) : Prop :=
  ∃ rest, rest ≠ [] ∧ components path = components base ++ rest

/-- What a path below a directory consists of, seen from there. -/
theorem components_relativeTo {rest : List Component} (hb : components base ≠ []) (hr : rest ≠ [])
    (h : components path = components base ++ rest) :
    components (relativeTo base path) = rest := by
  have hn : 0 < (components base).length := List.length_pos_iff.mpr hb
  have hlen : (piecesOf path).head.toList.length ≤ (components base).length := by
    have : (piecesOf path).head.toList.length ≤ 1 := by cases (piecesOf path).head <;> simp
    omega
  -- The pieces that are left after as many as the directory has components.
  generalize hleft : dropReal ((components base).length - (piecesOf path).head.toList.length)
    (piecesOf path).body = left
  have hreal : (left.filter isReal).map Component.ofPiece = rest := by
    have he := congrArg (List.drop (components base).length) h
    rw [List.drop_left, components_eq path, List.drop_append, List.drop_eq_nil_of_le hlen] at he
    rw [← hleft, filter_isReal_dropReal, List.map_drop]
    exact he
  have hleftne : left.filter isReal ≠ [] := by
    intro hnil
    rw [hnil] at hreal
    exact hr hreal.symm
  obtain ⟨first, others, hcons, hfirst⟩ := exists_cons_trimPieces hleftne
  have hslash : ∀ piece ∈ first :: others, '/' ∉ piece := by
    intro piece hm
    rw [← hcons] at hm
    have hleftm := (List.dropWhile_suffix _).subset ((trimPieces_isPrefix _).subset hm)
    rw [← hleft] at hleftm
    exact not_mem_of_mem_splitAt (body_subset path ((isSuffix_dropReal _ _).subset hleftm))
  have hbelow : below? base path = some (joinPieces (first :: others)) := by
    have hp : (components base).isPrefixOf (components path) = true := by
      rw [List.isPrefixOf_iff_prefix, h]
      exact List.prefix_append _ _
    have hz : ((components base).length == 0) = false := by simpa using hn.ne'
    simp only [below?, hp, hz, hleft, hcons, if_true, Bool.false_eq_true, if_false]
  have hcomponents : components (joinPieces (first :: others)) = rest := by
    rw [components_joinPieces hslash hfirst, ← hcons, filter_isReal_trimPieces,
      filter_isReal_dropWhile, hreal]
  have hne : (joinPieces (first :: others)).isEmpty = false := by
    rw [Bool.eq_false_iff, ne_eq, List.isEmpty_iff]
    intro he
    rw [he] at hcomponents
    exact hr hcomponents.symm
  simp only [relativeTo, hbelow, hne, Bool.false_eq_true, if_false, hcomponents]

/-! ### Paths made by going down -/

/-- The text is a name that a file can have. -/
structure IsName (name : List Char) : Prop where
  real : isReal name = true
  noParent : name ≠ ['.', '.']
  noSlash : '/' ∉ name

instance (name : List Char) : Decidable (IsName name) :=
  decidable_of_iff (isReal name = true ∧ name ≠ ['.', '.'] ∧ '/' ∉ name)
    ⟨fun h => ⟨h.1, h.2.1, h.2.2⟩, fun h => ⟨h.real, h.noParent, h.noSlash⟩⟩

theorem IsName.ofPiece {name : List Char} (h : IsName name) :
    Component.ofPiece name = .name name := by
  simp [Component.ofPiece, h.noParent]

theorem IsName.ne_nil {name : List Char} (h : IsName name) : name ≠ [] := by
  rintro rfl
  cases h.real

/-- The path that leads from a place along names. -/
def goDown (root : List Char) (names : List (List Char)) : List Char := join root (joinPieces names)

theorem filter_isReal_names (h : ∀ name ∈ names, IsName name) : names.filter isReal = names :=
  List.filter_eq_self.mpr fun name hm => (h name hm).real

theorem map_ofPiece_names (h : ∀ name ∈ names, IsName name) :
    names.map Component.ofPiece = names.map Component.name :=
  List.map_congr_left fun name hm => (h name hm).ofPiece

theorem components_joinPieces_names (h : ∀ name ∈ names, IsName name) (hne : names ≠ []) :
    components (joinPieces names) = names.map Component.name := by
  obtain ⟨first, others, rfl⟩ := List.exists_cons_of_ne_nil hne
  rw [components_joinPieces (fun name hm => (h name hm).noSlash) (h first List.mem_cons_self).real,
    filter_isReal_names h, map_ofPiece_names h]

theorem IsName.isAbsolute_append {name : List Char} (h : IsName name) (s : List Char) :
    isAbsolute (name ++ s) = false := by
  cases name with
  | nil => exact absurd rfl h.ne_nil
  | cons c name =>
    have hc : c ≠ '/' := by
      rintro rfl
      exact h.noSlash List.mem_cons_self
    simp [isAbsolute, hc]

theorem isAbsolute_joinPieces (h : ∀ name ∈ names, IsName name) :
    isAbsolute (joinPieces names) = false := by
  fun_induction joinPieces names with
  | case1 => rfl
  | case2 name => simpa using (h name List.mem_cons_self).isAbsolute_append []
  | case3 name names hp ih => exact (h name List.mem_cons_self).isAbsolute_append _

/-- The pieces of a path without an empty one at its end. -/
def frontPieces (path : List Char) : List (List Char) :=
  splitAt '/' (if path.getLast? == some '/' then path.dropLast else path)

theorem frontPieces_ne_nil (path : List Char) : frontPieces path ≠ [] := splitAt_ne_nil '/' _

theorem exists_splitAt_frontPieces (path : List Char) :
    ∃ last, splitAt '/' path = frontPieces path ++ last ∧ ∀ piece ∈ last, piece = [] := by
  rw [frontPieces]
  cases hl : path.getLast? == some '/' with
  | true =>
    obtain ⟨front, rfl⟩ := List.getLast?_eq_some_iff.mp (beq_iff_eq.mp hl)
    rw [if_pos rfl, List.dropLast_concat]
    exact ⟨[[]], splitAt_append_cons '/' front [], by simp⟩
  | false => exact ⟨[], by simp, by simp⟩

/-- Names on the way down are pieces of the path. -/
theorem splitAt_goDown (hr : root ≠ []) (h : ∀ name ∈ names, IsName name) (hne : names ≠ []) :
    splitAt '/' (goDown root names) = frontPieces root ++ names := by
  have hsplit : splitAt '/' (joinPieces names) = names :=
    splitAt_joinPieces (fun name hm => (h name hm).noSlash) hne
  have hempty : root.isEmpty = false := by simp [hr]
  rw [goDown, join, isAbsolute_joinPieces h, frontPieces]
  cases hl : root.getLast? == some '/' with
  | true =>
    obtain ⟨front, rfl⟩ := List.getLast?_eq_some_iff.mp (beq_iff_eq.mp hl)
    simp only [hempty, Bool.or_true, Bool.false_eq_true, if_false, if_true, List.dropLast_concat]
    rw [List.append_assoc, List.singleton_append, splitAt_append_cons, hsplit]
  | false =>
    simp only [hempty, Bool.or_false, Bool.false_eq_true, if_false]
    rw [splitAt_append_cons, hsplit]

/-- Going down changes nothing at the start of a path. -/
theorem exists_piecesOf_goDown (hr : root ≠ []) (h : ∀ name ∈ names, IsName name)
    (hne : names ≠ []) :
    ∃ head body last, piecesOf root = ⟨head, body ++ last⟩ ∧ (∀ piece ∈ last, piece = []) ∧
      piecesOf (goDown root names) = ⟨head, body ++ names⟩ := by
  obtain ⟨last, hroot, hlast⟩ := exists_splitAt_frontPieces root
  obtain ⟨first, others, hfront⟩ := List.exists_cons_of_ne_nil (frontPieces_ne_nil root)
  obtain ⟨name, rest, rfl⟩ := List.exists_cons_of_ne_nil hne
  rw [hfront] at hroot
  rw [piecesOf, piecesOf, hroot, splitAt_goDown hr h hne, hfront]
  by_cases hnil : first = []
  · subst hnil
    refine ⟨some .root, others, last, ?_, hlast, ?_⟩
    · cases hol : others ++ last with
      | nil =>
        rw [List.cons_append, hol] at hroot
        exact absurd (eq_nil_of_splitAt hroot) hr
      | cons second more => simp [hol]
    · cases others <;> rfl
  · by_cases hdot : first = ['.']
    · subst hdot
      exact ⟨some .here, others, last, rfl, hlast, rfl⟩
    · refine ⟨none, first :: others, last, ?_, hlast, ?_⟩
      · simp [hnil, hdot]
      · simp [hnil, hdot]

theorem components_ne_nil (h : path ≠ []) : components path ≠ [] := by
  obtain ⟨first, others, hs⟩ := List.exists_cons_of_ne_nil (splitAt_ne_nil '/' path)
  intro hc
  rw [components, piecesOf, hs] at hc
  by_cases hnil : first = []
  · subst hnil
    cases others with
    | nil => exact h (eq_nil_of_splitAt hs)
    | cons second others => cases hc
  · by_cases hdot : first = ['.']
    · subst hdot
      cases hc
    · have hreal : isReal first = true := by simp [isReal, hnil, hdot]
      simp [hnil, hdot, hreal] at hc

/-- Going down adds the names to the components. -/
theorem components_goDown (hr : root ≠ []) (h : ∀ name ∈ names, IsName name) (hne : names ≠ []) :
    components (goDown root names) = components root ++ names.map Component.name := by
  obtain ⟨head, body, last, hroot, hlast, hdown⟩ := exists_piecesOf_goDown hr h hne
  have hempty : last.filter isReal = [] := filter_of_empty rfl hlast
  simp only [components, hroot, hdown, List.filter_append, hempty, List.append_nil,
    filter_isReal_names h, List.map_append, map_ofPiece_names h, List.append_assoc]

/-- After the pieces of the place, the names are left. -/
theorem dropWhile_dropReal {body : List (List Char)} (h : ∀ name ∈ names, IsName name) :
    (dropReal (body.filter isReal).length (body ++ names)).dropWhile (!isReal ·) = names := by
  induction body with
  | nil =>
    cases names with
    | nil => rfl
    | cons name names => simp [dropReal, (h name List.mem_cons_self).real]
  | cons piece body ih =>
    cases hp : isReal piece with
    | true => simpa [dropReal, hp] using ih
    | false =>
      rw [List.filter_cons_of_neg (by simp [hp]), List.cons_append]
      cases hn : (body.filter isReal).length with
      | zero =>
        rw [hn] at ih
        simpa [dropReal, hp] using ih
      | succ n =>
        rw [hn] at ih
        simpa [dropReal, hp] using ih

theorem trimPieces_names (h : ∀ name ∈ names, IsName name) : trimPieces names = names := by
  rw [trimPieces]
  cases hr : names.reverse with
  | nil => simpa using hr.symm
  | cons name rest =>
    have hm : name ∈ names := by
      rw [← List.mem_reverse, hr]
      exact List.mem_cons_self
    rw [List.dropWhile_cons_of_neg (by simp [(h name hm).real]), ← hr, List.reverse_reverse]

/-- Seen from the place, the path is the names. -/
theorem below?_goDown (hr : root ≠ []) (h : ∀ name ∈ names, IsName name) (hne : names ≠ []) :
    below? root (goDown root names) = some (joinPieces names) := by
  obtain ⟨head, body, last, hroot, hlast, hdown⟩ := exists_piecesOf_goDown hr h hne
  have hp : (components root).isPrefixOf (components (goDown root names)) = true := by
    rw [List.isPrefixOf_iff_prefix, components_goDown hr h hne]
    exact List.prefix_append _ _
  have hn : ((components root).length == 0) = false := by
    simpa using components_ne_nil hr
  have hlen : (components root).length = head.toList.length + (body.filter isReal).length := by
    have hempty : last.filter isReal = [] := filter_of_empty rfl hlast
    simp [components, hroot, hempty]
  simp only [below?, hp, hn, if_true, Bool.false_eq_true, if_false]
  rw [hdown, hlen, Nat.add_sub_cancel_left, dropWhile_dropReal h, trimPieces_names h]

theorem joinPieces_ne_nil (h : ∀ name ∈ names, IsName name) (hne : names ≠ []) :
    joinPieces names ≠ [] := by
  intro he
  have hs := splitAt_joinPieces (fun name hm => (h name hm).noSlash) hne
  rw [he] at hs
  obtain rfl : [[]] = names := hs
  exact (h [] List.mem_cons_self).ne_nil rfl

theorem relativeTo_goDown (hr : root ≠ []) (h : ∀ name ∈ names, IsName name) (hne : names ≠ []) :
    relativeTo root (goDown root names) = joinPieces names := by
  simp [relativeTo, below?_goDown hr h hne, joinPieces_ne_nil h hne]

end TableLint.Tree
