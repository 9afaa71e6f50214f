import TableLint.Proofs.Cutting
import TableLint.Source.Lexer
import TableLint.Source.Node

/-!
Where tokens and nodes stand in the text. The tokens tile the text: each starts where the one before
ends, after its gap, and none is empty. Brackets only group them. So the span of nodes is the place
of their text.
-/
namespace TableLint.Source

open Text

variable {p : Position} {s : List Char} {t : Token} {ts l r : List Token}

/-! ### Places -/

/-- The place after a text: its line feeds give the line, what follows the last the column. -/
theorem advance_start (s : List Char) :
    ({} : Position).advance s =
      { line := 1 + s.count '\n', column := byteLength (afterLast '\n' s)
        offset := byteLength s } := by
  induction s using List.reverseRecOn with
  | nil => rfl
  | append_singleton s c ih =>
    rw [Position.advance_append, ih]
    by_cases hc : c = '\n'
    · subst hc
      have hlast : afterLast '\n' (s ++ ['\n']) = [] := afterLast_append_cons (by simp)
      have hsize : ('\n').utf8Size = 1 := rfl
      simp [Position.advance, Position.step, hlast, hsize]
      omega
    · have hlast : afterLast '\n' (s ++ [c]) = afterLast '\n' s ++ [c] :=
        afterLast_append (by simpa using Ne.symm hc)
      simp [Position.advance, Position.step, hc, hlast]

/-! ### Tokens -/

/-- The tokens stand in the text one after another, the first gap starting at `p`. -/
inductive Tiles : Position → List Token → List Char → Prop where
  | nil (p : Position) (s : List Char) : Tiles p [] s
  | cons {p : Position} {t : Token} {ts : List Token} {s : List Char}
      (start : t.start = p.advance t.gap) (text : t.text ≠ [])
      (next : Tiles (t.start.advance t.text) ts s) : Tiles p (t :: ts) (t.raw ++ s)

theorem tiles_of_tokensFrom {first : Bool} {enclosures : List Enclosure}
    (h : tokensFrom p first enclosures s = some ts) : Tiles p ts s := by
  fun_induction tokensFrom p first enclosures s generalizing ts with
  | case1 => cases h; exact .nil _ _
  | case2 | case3 | case4 => cases h
  | case5 p first enclosures s gap c rest hrest lexeme hlexeme hlen start text token =>
    rename_i ih
    obtain ⟨more, hmore, rfl⟩ := Option.map_eq_some_iff.mp h
    have htext : token.text ≠ [] := by
      intro hnil
      rcases List.take_eq_nil_iff.mp hnil with hz | hz
      · exact hlen hz
      · cases hz
    have hs : token.raw ++ (c :: rest).drop lexeme.length = s :=
      calc token.raw ++ (c :: rest).drop lexeme.length
          = s.take gap.length ++ ((c :: rest).take lexeme.length ++
              (c :: rest).drop lexeme.length) := List.append_assoc _ _ _
        _ = s.take gap.length ++ s.drop gap.length := by rw [List.take_append_drop, hrest]
        _ = s := List.take_append_drop _ _
    rw [← hs]
    exact .cons rfl htext (ih hmore)

theorem Tiles.of_append_left (h : Tiles p (l ++ r) s) : Tiles p l s := by
  induction l generalizing p s with
  | nil => exact .nil p s
  | cons t l ih =>
    cases h with
    | cons start text next => exact .cons start text (ih next)

/-- What tokens leave of the text is tiled by the tokens after them. -/
theorem Tiles.of_append_right (h : Tiles p (l ++ r) s) :
    ∃ rest, s = l.flatMap Token.raw ++ rest ∧ Tiles (p.advance (l.flatMap Token.raw)) r rest := by
  induction l generalizing p s with
  | nil => exact ⟨s, rfl, h⟩
  | cons t l ih =>
    cases h with
    | cons start text next =>
      obtain ⟨rest, rfl, hrest⟩ := ih next
      refine ⟨rest, by simp, ?_⟩
      rwa [start, ← Position.advance_append, ← Position.advance_append,
        ← List.append_assoc] at hrest

/-! ### Nodes -/

mutual

/-- The tokens of a node. -/
def Node.tokens : Node → List Token
  | .leaf t => [t]
  | .group opening body closing => opening :: (tokensOf body ++ [closing])

/-- The tokens of nodes. -/
def tokensOf : List Node → List Token
  | [] => []
  | n :: ns => n.tokens ++ tokensOf ns

end

variable {n : Node} {ns nodes : List Node}

@[simp] theorem tokensOf_append (ns ms : List Node) :
    tokensOf (ns ++ ms) = tokensOf ns ++ tokensOf ms := by
  induction ns with
  | nil => rfl
  | cons n ns ih => simp [tokensOf, ih]

theorem Node.exists_tokens (n : Node) : ∃ more, n.tokens = n.first :: more := by
  cases n with
  | leaf t => exact ⟨[], rfl⟩
  | group opening body closing => exact ⟨tokensOf body ++ [closing], rfl⟩

mutual

theorem Node.raw_eq : (n : Node) → n.raw = n.tokens.flatMap Token.raw
  | .leaf t => by simp [Node.raw, Node.tokens]
  | .group opening body closing => by simp [Node.raw, Node.tokens, rawText_eq body]

theorem rawText_eq : (ns : List Node) → rawText ns = (tokensOf ns).flatMap Token.raw
  | [] => rfl
  | n :: ns => by simp [rawText, tokensOf, Node.raw_eq n, rawText_eq ns]

end

/-- The tokens of groups that are still open. -/
def openTokens : List (Token × List Node) → List Token
  | [] => []
  | (opening, before) :: outer => openTokens outer ++ (tokensOf before.reverse ++ [opening])

/-- Grouping keeps the tokens in their order. -/
theorem tokensOf_nest {outer : List (Token × List Node)} {done : List Node}
    (h : nest outer done ts = some nodes) :
    tokensOf nodes = openTokens outer ++ (tokensOf done.reverse ++ ts) := by
  fun_induction nest outer done ts with
  | case1 outer done hempty =>
    obtain rfl := Option.some.inj h
    obtain rfl : outer = [] := by simpa using hempty
    simp [openTokens]
  | case2 => cases h
  | case3 outer done t ts hkind ih =>
    rw [ih h]
    simp [openTokens, tokensOf]
  | case4 done t ts hkind opening before outer ih =>
    rw [ih h]
    simp [openTokens, tokensOf, Node.tokens]
  | case5 => cases h
  | case6 outer done t ts hopen hclose ih =>
    rw [ih h]
    simp [tokensOf, Node.tokens]

/-! ### Texts of nodes -/

theorem rawText_append (ns ms : List Node) : rawText (ns ++ ms) = rawText ns ++ rawText ms := by
  simp [rawText_eq]

theorem Node.exists_raw (n : Node) : ∃ more, n.raw = n.first.gap ++ (n.first.text ++ more) := by
  cases n with
  | leaf t => exact ⟨[], by simp [Node.raw, Token.raw, first]⟩
  | group opening body closing =>
    exact ⟨rawText body ++ closing.raw, by simp [Node.raw, Token.raw, first]⟩

theorem exists_sourceText (n : Node) :
    ∃ more, ∀ ns, sourceText (n :: ns) = n.first.text ++ (more ++ rawText ns) ∧
      rawText (n :: ns) = n.first.gap ++ sourceText (n :: ns) := by
  obtain ⟨more, hn⟩ := n.exists_raw
  refine ⟨more, fun ns => ?_⟩
  have hsource : sourceText (n :: ns) = n.first.text ++ (more ++ rawText ns) := by
    simp [sourceText, rawText, hn]
  exact ⟨hsource, by simp [hsource, rawText, hn]⟩

theorem rawText_cons (n : Node) (ns : List Node) :
    rawText (n :: ns) = n.first.gap ++ sourceText (n :: ns) := by
  obtain ⟨more, h⟩ := exists_sourceText n
  exact (h ns).2

theorem sourceText_cons_append (n : Node) (ns ms : List Node) :
    sourceText (n :: (ns ++ ms)) = sourceText (n :: ns) ++ rawText ms := by
  obtain ⟨more, h⟩ := exists_sourceText n
  rw [(h _).1, (h _).1, rawText_append]
  simp

/-- The first token of nodes starts after its gap, and the nodes have a text. -/
theorem Tiles.cons_nodes {before : List Char}
    (h : Tiles (p.advance before) (tokensOf (n :: ns)) s) :
    n.first.start = p.advance (before ++ n.first.gap) ∧ sourceText (n :: ns) ≠ [] := by
  obtain ⟨tokens, hn⟩ := n.exists_tokens
  rw [tokensOf, hn, List.cons_append] at h
  cases h with
  | cons start text next =>
    obtain ⟨more, hsource⟩ := exists_sourceText n
    refine ⟨by rw [start, Position.advance_append], ?_⟩
    rw [(hsource ns).1]
    exact List.append_ne_nil_of_left_ne_nil text _

/-- Nodes that follow one another: each stands where those before it end. -/
theorem Tiles.append_nodes (ns : List Node) {ms : List Node} {before : List Char}
    (h : Tiles (p.advance before) (tokensOf (ns ++ ms)) s) :
    Tiles (p.advance before) (tokensOf ns) s ∧
      ∃ rest, Tiles (p.advance (before ++ rawText ns)) (tokensOf ms) rest := by
  rw [tokensOf_append] at h
  obtain ⟨rest, -, hrest⟩ := h.of_append_right
  rw [← rawText_eq, ← Position.advance_append] at hrest
  exact ⟨h.of_append_left, rest, hrest⟩

end TableLint.Source
