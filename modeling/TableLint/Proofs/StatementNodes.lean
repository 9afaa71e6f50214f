import TableLint.Proofs.TokenPlaces
import TableLint.Proofs.WrittenStatements

/-!
Statements and the nodes they are made of. Nodes tile the text, so statements that are made of nodes
are written in the text of the nodes. Main statement: `writtenIn_of_madeIn`.
-/
namespace TableLint.Source

variable {nodes : List Node}

mutual

/-- The statement is made of the nodes. A body comes after the word that its statement starts with,
the body of a class after the name. -/
def Statement.MadeOf (nodes : List Node) : Statement → Prop
  | .imports i => nodes ≠ [] ∧ i.span = spanOfNodes nodes
  | .assignment _ _ | .other => nodes ≠ []
  | .function body | .compound body => ∃ word rest, nodes = word :: rest ∧ MadeIn rest body
  | .classDef head body => ∃ word name rest, nodes = word :: name :: rest ∧
      word.isWord "class" ∧ name.isName ∧ head.name = name.first.text ∧
      head.span = spanOfNodes [word, name] ∧ MadeIn rest body

/-- The statements are made of runs of the nodes, one after another. -/
def MadeIn (nodes : List Node) : List Statement → Prop
  | [] => True
  | s :: ss => ∃ gap own rest, nodes = gap ++ (own ++ rest) ∧ s.MadeOf own ∧ MadeIn rest ss

end

theorem MadeIn.append_left {statements : List Statement} (h : MadeIn nodes statements)
    (front : List Node) : MadeIn (front ++ nodes) statements := by
  cases statements with
  | nil => trivial
  | cons s ss =>
    obtain ⟨gap, own, rest, rfl, hs, hss⟩ := h
    exact ⟨front ++ gap, own, rest, by rw [List.append_assoc], hs, hss⟩

theorem MadeIn.append {ms : List Node} {a b : List Statement} (ha : MadeIn nodes a)
    (hb : MadeIn ms b) : MadeIn (nodes ++ ms) (a ++ b) := by
  induction a generalizing nodes with
  | nil => exact hb.append_left nodes
  | cons s ss ih =>
    obtain ⟨gap, own, rest, rfl, hs, hss⟩ := ha
    exact ⟨gap, own, rest ++ ms, by simp, hs, ih hss⟩

theorem madeIn_singleton {statement : Statement} (h : statement.MadeOf nodes) :
    MadeIn nodes [statement] :=
  ⟨[], nodes, [], by simp, h, trivial⟩

theorem Statement.MadeOf.exists_cons {statement : Statement} (h : statement.MadeOf nodes) :
    ∃ n ns, nodes = n :: ns := by
  cases statement with
  | imports i => exact List.exists_cons_of_ne_nil h.1
  | assignment name value => exact List.exists_cons_of_ne_nil h
  | other => exact List.exists_cons_of_ne_nil h
  | function body | compound body =>
    obtain ⟨word, rest, hnodes, -⟩ := h
    exact ⟨word, rest, hnodes⟩
  | classDef head body =>
    obtain ⟨word, name, rest, hnodes, -⟩ := h
    exact ⟨word, name :: rest, hnodes⟩

/-! ### Places of nodes -/

/-- The span of nodes is the place of their text. -/
theorem spanOfNodes_eq {n : Node} {ns : List Node} {before : List Char}
    (h : n.first.start = ({} : Position).advance (before ++ n.first.gap)) :
    spanOfNodes (n :: ns) = spanAt (before ++ n.first.gap) (sourceText (n :: ns)) := by
  rw [advance_start] at h
  simp [spanOfNodes, Position.spanOf, spanAt, h]

theorem exists_sourceText_class {word name : Node} (hword : word.isWord "class")
    (hname : name.isName) :
    ∃ gap, sourceText [word, name] = classHeadText gap name.first.text := by
  cases word with
  | group => cases hword
  | leaf t =>
    cases name with
    | group => cases hname
    | leaf u =>
      have htext : t.text = "class".toList := by
        rw [Node.isWord, Token.isWord, Bool.and_eq_true, beq_iff_eq] at hword
        simpa using hword.2
      refine ⟨u.gap, ?_⟩
      rw [classHeadText, ← htext]
      simp [sourceText, rawText, Node.raw, Token.raw, Node.first]

/-- Text that starts with nodes holds what is written in the text of the nodes after them. -/
theorem WrittenIn.of_after {before : List Char} {n : Node} {ns ms : List Node}
    {statements : List Statement}
    (h : WrittenIn (before ++ rawText (n :: ns)) (rawText ms) statements) :
    WrittenIn (before ++ n.first.gap) (sourceText (n :: (ns ++ ms))) statements := by
  rw [rawText_cons, ← List.append_assoc] at h
  rw [sourceText_cons_append]
  exact h.append_left

mutual

theorem Statement.writtenAs_of_madeOf (before s : List Char) (n : Node) (ns : List Node) :
    (statement : Statement) → statement.MadeOf (n :: ns) →
      Tiles (({} : Position).advance before) (tokensOf (n :: ns)) s →
      statement.WrittenAs (before ++ n.first.gap) (sourceText (n :: ns))
  | .imports i, h, ht => by
    obtain ⟨hstart, hne⟩ := ht.cons_nodes
    exact ⟨hne, h.2.trans (spanOfNodes_eq hstart)⟩
  | .assignment _ _, _, _ | .other, _, _ => trivial
  | .function body, h, ht | .compound body, h, ht => by
    obtain ⟨word, rest, hnodes, hbody⟩ := h
    obtain ⟨rfl, rfl⟩ := List.cons.inj hnodes
    obtain ⟨-, _, hrest⟩ := Tiles.append_nodes [n] ht
    exact WrittenIn.of_after (writtenIn_of_madeIn _ _ ns body hbody hrest)
  | .classDef head body, h, ht => by
    obtain ⟨word, name, rest, hnodes, hword, hname, hhead, hspan, hbody⟩ := h
    obtain ⟨rfl, rfl⟩ := List.cons.inj hnodes
    obtain ⟨gap, hgap⟩ := exists_sourceText_class hword hname
    obtain ⟨-, _, hrest⟩ := Tiles.append_nodes [n, name] ht
    have hbody := writtenIn_of_madeIn _ _ rest body hbody hrest
    rw [rawText_cons, hgap, ← hhead, ← List.append_assoc] at hbody
    refine ⟨gap, rawText rest, ?_, ?_, hbody⟩
    · rw [hhead, ← hgap]
      exact sourceText_cons_append n [name] rest
    · rw [hspan, spanOfNodes_eq ht.cons_nodes.1, hgap, hhead]

/-- Statements that are made of nodes are written in their text. -/
theorem writtenIn_of_madeIn (before s : List Char) (nodes : List Node) :
    (statements : List Statement) → MadeIn nodes statements →
      Tiles (({} : Position).advance before) (tokensOf nodes) s →
      WrittenIn before (rawText nodes) statements
  | [], _, _ => trivial
  | statement :: statements, h, ht => by
    obtain ⟨gap, own, rest, rfl, hown, hmore⟩ := h
    obtain ⟨n, ns, rfl⟩ := hown.exists_cons
    -- in the text, the gap of the first node belongs to what stands before the statement
    obtain ⟨-, _, ht⟩ := ht.append_nodes gap
    obtain ⟨hn, _, hrest⟩ := ht.append_nodes (n :: ns)
    have hown := statement.writtenAs_of_madeOf _ _ n ns hown hn
    have hmore := writtenIn_of_madeIn _ _ rest statements hmore hrest
    rw [rawText_cons] at hmore
    refine ⟨rawText gap ++ n.first.gap, sourceText (n :: ns), rawText rest, ?_, ?_, ?_⟩
    · rw [rawText_append, rawText_append, rawText_cons]
      simp
    · rwa [← List.append_assoc]
    · simpa using hmore

end

end TableLint.Source
