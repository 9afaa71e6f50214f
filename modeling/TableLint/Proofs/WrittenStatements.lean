import TableLint.Proofs.Cutting
import TableLint.Source.Outline

/-!
Statements and the text they are written as. A tree of statements is written in a text if each has a
piece of it, pieces of bodies lie inside, pieces of neighbours follow one another, and the spans of
imports and class heads are the places of their pieces. The outline of any such tree lists its
imports and classes in the order of the text, whatever read the tree, and each class statement once.
-/
namespace TableLint.Source

open Text

variable {before piece text : List Char} {low middle high : Nat} {o o' : Outline}

/-! ### Places -/

/-- The span of a piece of text: the line is one more than the line feeds before it, and the column
counts the bytes since the last of them. -/
def spanAt (before piece : List Char) : Span :=
  { line := 1 + before.count '\n', column := byteLength (afterLast '\n' before)
    offset := byteLength before, length := byteLength piece }

def Span.Covers (span : Span) (text piece : List Char) : Prop :=
  ∃ before after, text = before ++ (piece ++ after) ∧ span = spanAt before piece

/-- The word `class`, the name, and what stands between them. -/
def classHeadText (gap name : List Char) : List Char := "class".toList ++ (gap ++ name)

mutual

/-- The statement is written as the piece, which comes after `before`. -/
def Statement.WrittenAs (before piece : List Char) : Statement → Prop
  | .imports i => piece ≠ [] ∧ i.span = spanAt before piece
  | .assignment _ _ | .other => True
  | .function body | .compound body => WrittenIn before piece body
  | .classDef head body => ∃ gap rest, piece = classHeadText gap head.name ++ rest ∧
      head.span = spanAt before (classHeadText gap head.name) ∧
      WrittenIn (before ++ classHeadText gap head.name) rest body

/-- The statements are written in the piece, one after another, with other text between them. -/
def WrittenIn (before piece : List Char) : List Statement → Prop
  | [] => True
  | s :: ss => ∃ gap own rest, piece = gap ++ (own ++ rest) ∧ s.WrittenAs (before ++ gap) own ∧
      WrittenIn (before ++ gap ++ own) rest ss

end

theorem WrittenIn.append_left {statements : List Statement} {front : List Char}
    (h : WrittenIn (before ++ front) piece statements) :
    WrittenIn before (front ++ piece) statements := by
  cases statements with
  | nil => trivial
  | cons s ss =>
    obtain ⟨gap, own, rest, rfl, hs, hss⟩ := h
    refine ⟨front ++ gap, own, rest, by rw [List.append_assoc], ?_, ?_⟩
    · rwa [← List.append_assoc]
    · rwa [← List.append_assoc before]

theorem WrittenIn.append_right {statements : List Statement}
    (h : WrittenIn before piece statements) (after : List Char) :
    WrittenIn before (piece ++ after) statements := by
  induction statements generalizing before piece with
  | nil => trivial
  | cons s ss ih =>
    obtain ⟨gap, own, rest, rfl, hs, hss⟩ := h
    exact ⟨gap, own, rest ++ after, by simp, hs, ih hss⟩

/-! ### Offsets -/

/-- The numbers increase, from `low` on and below `high`. -/
def IncreaseWithin (low high : Nat) (offsets : List Nat) : Prop :=
  offsets.Pairwise (· < ·) ∧ ∀ n ∈ offsets, low ≤ n ∧ n < high

theorem increaseWithin_nil (low high : Nat) : IncreaseWithin low high [] :=
  ⟨.nil, by simp⟩

theorem increaseWithin_singleton (h : low < high) : IncreaseWithin low high [low] :=
  ⟨List.pairwise_singleton _ _, by simpa using h⟩

theorem IncreaseWithin.append {l r : List Nat} (h : IncreaseWithin low middle l)
    (h' : IncreaseWithin middle high r) (hlow : low ≤ middle) (hhigh : middle ≤ high) :
    IncreaseWithin low high (l ++ r) := by
  refine ⟨List.pairwise_append.mpr ⟨h.1, h'.1, ?_⟩, ?_⟩
  · intro m hm n hn
    have hm := h.2 m hm
    have hn := h'.2 n hn
    omega
  · intro n hn
    rcases List.mem_append.mp hn with hn | hn
    · have := h.2 n hn
      omega
    · have := h'.2 n hn
      omega

/-! ### Outlines of written statements -/

/-- Imports and classes are listed in the order of the text, each with its place. -/
structure Outline.Located (text : List Char) (low high : Nat) (o : Outline) : Prop where
  imports_increase : IncreaseWithin low high (o.imports.map (·.span.offset))
  classes_increase : IncreaseWithin low high (o.classes.map (·.span.offset))
  imports_covered : ∀ i ∈ o.imports, ∃ piece, piece ≠ [] ∧ i.span.Covers text piece
  classes_covered : ∀ c ∈ o.classes, ∃ gap, c.span.Covers text (classHeadText gap c.name)

theorem Outline.located_empty (text : List Char) (low high : Nat) :
    ({} : Outline).Located text low high :=
  ⟨increaseWithin_nil low high, increaseWithin_nil low high, by simp, by simp⟩

theorem Outline.Located.append (h : o.Located text low middle) (h' : o'.Located text middle high)
    (hlow : low ≤ middle) (hhigh : middle ≤ high) : (o.append o').Located text low high := by
  refine ⟨?_, ?_, ?_, ?_⟩
  · rw [Outline.append, List.map_append]
    exact h.imports_increase.append h'.imports_increase hlow hhigh
  · rw [Outline.append, List.map_append]
    exact h.classes_increase.append h'.classes_increase hlow hhigh
  · intro i hi
    rcases List.mem_append.mp hi with hi | hi
    · exact h.imports_covered i hi
    · exact h'.imports_covered i hi
  · intro c hc
    rcases List.mem_append.mp hc with hc | hc
    · exact h.classes_covered c hc
    · exact h'.classes_covered c hc

theorem Outline.Located.of_le {low' : Nat} (h : o.Located text low high) (hlow : low' ≤ low)
    (hhigh : low ≤ high) : o.Located text low' high := by
  have h' := (Outline.located_empty text low' low).append h hlow hhigh
  rwa [Outline.append, List.nil_append, List.nil_append] at h'

theorem byteLength_pos (h : piece ≠ []) : 0 < byteLength piece := by
  cases piece with
  | nil => exact absurd rfl h
  | cons c piece =>
    have := c.utf8Size_pos
    rw [byteLength_cons]
    omega

theorem located_import (i : Import) (hne : piece ≠ []) (hspan : i.span = spanAt before piece)
    (after : List Char) :
    ({ imports := [i] } : Outline).Located (before ++ (piece ++ after)) (byteLength before)
      (byteLength (before ++ piece)) := by
  have hpos := byteLength_pos hne
  refine ⟨?_, increaseWithin_nil _ _, ?_, by simp⟩
  · rw [List.map_singleton, hspan]
    exact increaseWithin_singleton (by rw [byteLength_append]; omega)
  · intro j hj
    rw [List.mem_singleton.mp hj]
    exact ⟨piece, hne, before, after, rfl, hspan⟩

theorem located_class (c : ClassInfo) {gap : List Char}
    (hspan : c.span = spanAt before (classHeadText gap c.name)) (after : List Char) :
    ({ classes := [c] } : Outline).Located (before ++ (classHeadText gap c.name ++ after))
      (byteLength before) (byteLength (before ++ classHeadText gap c.name)) := by
  have hne : classHeadText gap c.name ≠ [] :=
    List.append_ne_nil_of_left_ne_nil (by decide) (gap ++ c.name)
  have hpos := byteLength_pos hne
  refine ⟨increaseWithin_nil _ _, ?_, by simp, ?_⟩
  · rw [List.map_singleton, hspan]
    exact increaseWithin_singleton (by rw [byteLength_append]; omega)
  · intro d hd
    rw [List.mem_singleton.mp hd]
    exact ⟨gap, before, after, rfl, hspan⟩

mutual

theorem Statement.located (enclosing : Option (List Char)) (before piece after : List Char) :
    (s : Statement) → s.WrittenAs before piece →
      (s.outline enclosing).Located (before ++ (piece ++ after)) (byteLength before)
        (byteLength (before ++ piece))
  | .imports i, h => by
    rw [Statement.outline]
    exact located_import i h.1 h.2 after
  | .assignment _ _, _ | .other, _ => by
    rw [Statement.outline]
    exact Outline.located_empty _ _ _
  | .function body, h => by
    rw [Statement.outline]
    exact located_of_writtenIn none before piece after body h
  | .compound body, h => by
    rw [Statement.outline]
    exact located_of_writtenIn enclosing before piece after body h
  | .classDef head body, h => by
    obtain ⟨gap, rest, rfl, hspan, hbody⟩ := h
    -- the head of the class ends where its body may start
    have hhead := located_class
      ⟨head.name, head.bases, definitionIn body, head.span, enclosing⟩ hspan (rest ++ after)
    have hbody := located_of_writtenIn (some head.name) _ rest after body hbody
    rw [Statement.outline]
    simp only [List.append_assoc] at hbody ⊢
    exact hhead.append hbody (by simp) (by simp)

theorem located_of_writtenIn (enclosing : Option (List Char)) (before piece after : List Char) :
    (ss : List Statement) → WrittenIn before piece ss →
      (outlineOf enclosing ss).Located (before ++ (piece ++ after)) (byteLength before)
        (byteLength (before ++ piece))
  | [], _ => by
    rw [outlineOf]
    exact Outline.located_empty _ _ _
  | s :: ss, h => by
    obtain ⟨gap, own, rest, rfl, hs, hss⟩ := h
    have hs := s.located enclosing (before ++ gap) own (rest ++ after) hs
    have hss := located_of_writtenIn enclosing (before ++ gap ++ own) rest after ss hss
    rw [outlineOf]
    simp only [List.append_assoc] at hs hss ⊢
    exact (hs.append hss (by simp) (by simp)).of_le (by simp) (by simp)

end

/-! ### Class statements -/

/-- What a body belongs to. -/
inductive Scope where
  | classDef (name : List Char)
  | function
  | other
deriving DecidableEq

/-- The innermost class with no function in between, given the scopes around, innermost first. -/
def enclosingClass : List Scope → Option (List Char)
  | [] => none
  | .classDef name :: _ => some name
  | .function :: _ => none
  | .other :: above => enclosingClass above

/-- A class statement and the scopes around it. -/
structure ClassStatement where
  above : List Scope
  head : ClassHead
  body : List Statement

def ClassStatement.info (c : ClassStatement) : ClassInfo :=
  ⟨c.head.name, c.head.bases, definitionIn c.body, c.head.span, enclosingClass c.above⟩

mutual

/-- The class statements of a statement, at any depth. -/
def Statement.classStatements (above : List Scope) : Statement → List ClassStatement
  | .imports _ | .assignment _ _ | .other => []
  | .function body => classStatementsIn (.function :: above) body
  | .compound body => classStatementsIn (.other :: above) body
  | .classDef head body =>
    ⟨above, head, body⟩ :: classStatementsIn (.classDef head.name :: above) body

def classStatementsIn (above : List Scope) : List Statement → List ClassStatement
  | [] => []
  | s :: ss => s.classStatements above ++ classStatementsIn above ss

end

mutual

theorem Statement.classes_outline (above : List Scope) : (s : Statement) →
    (s.outline (enclosingClass above)).classes =
      (s.classStatements above).map ClassStatement.info
  | .imports _ | .assignment _ _ | .other => rfl
  | .function body => classes_outlineOf (.function :: above) body
  | .compound body => classes_outlineOf (.other :: above) body
  | .classDef head body => by
    have hbody := classes_outlineOf (.classDef head.name :: above) body
    rw [Statement.outline, Outline.append, Statement.classStatements, List.map_cons, ← hbody]
    rfl

/-- An outline has one class for each class statement. -/
theorem classes_outlineOf (above : List Scope) : (ss : List Statement) →
    (outlineOf (enclosingClass above) ss).classes =
      (classStatementsIn above ss).map ClassStatement.info
  | [] => rfl
  | s :: ss => by
    rw [outlineOf, Outline.append, classStatementsIn, List.map_append, s.classes_outline above,
      classes_outlineOf above ss]

end

end TableLint.Source
