import TableLint.Proofs.Blocks
import TableLint.Proofs.LineShapes

/-!
What an outline lists. The statements of a module are made of its lines one after another, so they
are written in its text, and the outline has the places and the order of the text. The lines form a
tree; each line that starts with `class` gives one class of the outline, and the class around it is
the nearest line above that starts a class, unless a function comes first.
-/
namespace TableLint.Source

open Text

variable {line : List Node} {above : List (List Node)} {enclosing : Option (List Char)}

/-! ### The tree of lines -/

/-- The lines of a module in their blocks. -/
def tree? (text : List Char) : Option (List Entry) := do
  let tokens ← tokens? text
  let nodes ← nest [] [] tokens
  return layout (logicalLines nodes)

theorem outline?_eq (text : List Char) :
    outline? text = (tree? text).bind fun tree =>
      (statements? false .free tree).map (outlineOf none) := by
  simp only [outline?, tree?, Option.bind_eq_bind, Option.bind_assoc, Option.pure_def,
    Option.bind_some, Option.map_eq_bind]
  rfl

/-- The tree of a module holds all its tokens in their order. -/
theorem tree?_spec {text : List Char} {tree : List Entry} (h : tree? text = some tree) :
    OpenBlocks tree ∧ tokens? text = some (tokensOf (linesOf tree).flatten) := by
  simp only [tree?, Option.bind_eq_bind, Option.bind_eq_some_iff] at h
  obtain ⟨tokens, htokens, nodes, hnodes, h⟩ := h
  obtain rfl := Option.some.inj h
  obtain ⟨hopen, hlines⟩ := layout_spec (logicalLines nodes)
  refine ⟨hopen, ?_⟩
  rw [hlines, (logicalLines_spec nodes).1, tokensOf_nest hnodes, htokens]
  rfl

/-- The name, the span and the surrounding class of the class that a line starts. -/
def classAt? (placed : List (List Node) × List Node) :
    Option (List Char × Span × Option (List Char)) :=
  match scopeOf placed.2 with
  | .classDef name =>
    some (name, spanOfNodes (placed.2.take 2), enclosingClass (placed.1.map scopeOf))
  | _ => none

def ClassInfo.place (c : ClassInfo) : List Char × Span × Option (List Char) :=
  (c.name, c.span, c.enclosing)

theorem classAt?_eq_none (h : ∀ name, scopeOf line ≠ .classDef name) :
    classAt? (above, line) = none := by
  unfold classAt?
  split
  · next name hname => exact absurd hname (h name)
  · rfl

/-! ### Statements of lines -/

/-- The statements are made of the lines one after another, and their outline has one class for each
line that starts one. -/
structure ReadFrom (placed : List (List (List Node) × List Node)) (enclosing : Option (List Char))
    (statements : List Statement) : Prop where
  made : MadeIn (placed.map Prod.snd).flatten statements
  classes : (outlineOf enclosing statements).classes.map ClassInfo.place =
    placed.filterMap classAt?

@[simp] theorem Outline.append_empty (o : Outline) : o.append {} = o := by
  simp [Outline.append]

@[simp] theorem Outline.empty_append (o : Outline) : Outline.append {} o = o := by
  simp [Outline.append]

theorem Outline.append_assoc (a b c : Outline) :
    (a.append b).append c = a.append (b.append c) := by
  simp [Outline.append]

theorem outlineOf_append (enclosing : Option (List Char)) (a b : List Statement) :
    outlineOf enclosing (a ++ b) = (outlineOf enclosing a).append (outlineOf enclosing b) := by
  induction a with
  | nil => simp [outlineOf]
  | cons s a ih => simp [outlineOf, ih, Outline.append_assoc]

theorem readFrom_nil (enclosing : Option (List Char)) : ReadFrom [] enclosing [] :=
  ⟨trivial, rfl⟩

theorem ReadFrom.append {placed placed' : List (List (List Node) × List Node)}
    {a b : List Statement} (ha : ReadFrom placed enclosing a) (hb : ReadFrom placed' enclosing b) :
    ReadFrom (placed ++ placed') enclosing (a ++ b) := by
  refine ⟨?_, ?_⟩
  · rw [List.map_append, List.flatten_append]
    exact ha.made.append hb.made
  · rw [outlineOf_append, Outline.append, List.map_append, ha.classes, hb.classes,
      List.filterMap_append]

/-- The statements of a line without a body give no class. -/
theorem SimpleIn.readFrom {statements : List Statement} (h : SimpleIn line statements)
    (hstart : scopeOf line = .other) (enclosing : Option (List Char)) :
    ReadFrom [(above, line)] enclosing statements := by
  refine ⟨by simpa using h.madeIn, ?_⟩
  rw [h.classes_eq_nil, List.filterMap_cons_none (classAt?_eq_none (by simp [hstart]))]
  rfl

/-- The classes of a body are those of the block, since the statements after the colon give none. -/
theorem ReadFrom.classes_body {placed : List (List (List Node) × List Node)} {rest : List Node}
    {suite below : List Statement} (hbelow : ReadFrom placed enclosing below)
    (hsuite : SimpleIn rest suite) :
    (outlineOf enclosing (suite ++ below)).classes.map ClassInfo.place =
      placed.filterMap classAt? := by
  rw [outlineOf_append, Outline.append, hsuite.classes_eq_nil, List.nil_append, hbelow.classes]

/-- A statement with a body that is no class adds nothing to the classes of its body. -/
theorem ReadFrom.cons {placed : List (List (List Node) × List Node)} {word : Node}
    {rest : List Node} {suite below : List Statement} {inner : Option (List Char)}
    {statement : Statement} (hbelow : ReadFrom placed inner below) (hsuite : SimpleIn rest suite)
    (hstart : ∀ name, scopeOf (word :: rest) ≠ .classDef name)
    (hmade : ∀ nodes, MadeIn nodes (suite ++ below) → statement.MadeOf (word :: nodes))
    (houtline : statement.outline enclosing = outlineOf inner (suite ++ below)) :
    ReadFrom ((above, word :: rest) :: placed) enclosing [statement] := by
  refine ⟨madeIn_singleton (hmade _ (hsuite.madeIn.append hbelow.made)), ?_⟩
  rw [outlineOf, outlineOf, Outline.append_empty, houtline, hbelow.classes_body hsuite,
    List.filterMap_cons_none (classAt?_eq_none hstart)]

theorem statements_compound {header : Header} (h : header.isCompound = true)
    (suite block : List Statement) :
    (Line.header header suite).statements block = [.compound (suite ++ block)] := by
  cases header with
  | function => cases h
  | classDef head => cases h
  | _ => rfl

/-- What a line and the block below it give, from what the block gives. -/
theorem LineOf.readFrom {l : Line} {block : List Entry} {below : List Statement}
    (h : LineOf line l) (hblock : block ≠ [] → opensBlock line = true)
    (hbelow : ∀ above, ReadFrom (placedIn above block) (enclosingClass (above.map scopeOf)) below) :
    ReadFrom ((Entry.entry line block).placed above) (enclosingClass (above.map scopeOf))
      (l.statements below) := by
  have hbelow := hbelow (line :: above)
  -- what is not a head does not end in a colon, and has no block
  have hno (hends : Ended line) : block = [] := by
    by_contra hne
    exact absurd (hblock hne) (by simp [hends.2])
  rw [Entry.placed]
  cases h with
  | simple hstart hends hin =>
    rw [hno hends, placedIn]
    exact hin.readFrom hstart _
  | decorator hstart hends =>
    have hin : SimpleIn line [] := ⟨[], .nil line, .nil⟩
    rw [hno hends, placedIn]
    exact hin.readFrom hstart _
  | @compound word rest header suite hstart hheader hin =>
    rw [List.map_cons, hstart, enclosingClass] at hbelow
    rw [statements_compound hheader]
    exact hbelow.cons hin (by simp [hstart]) (fun nodes h => ⟨word, nodes, rfl, h⟩) rfl
  | @function word rest suite hstart hin =>
    rw [List.map_cons, hstart, enclosingClass] at hbelow
    rw [Line.statements]
    exact hbelow.cons hin (by simp [hstart]) (fun nodes h => ⟨word, nodes, rfl, h⟩) rfl
  | @classDef word name rest bases suite hword hname hin =>
    have hstart := scopeOf_of_classWord hword name rest
    rw [List.map_cons, hstart, enclosingClass] at hbelow
    rw [Line.statements]
    refine ⟨madeIn_singleton ⟨word, name, _, rfl, hword, hname, rfl, rfl,
      hin.madeIn.append hbelow.made⟩, ?_⟩
    have hclass : classAt? (above, word :: name :: rest) = some (name.first.text,
        spanOfNodes [word, name], enclosingClass (above.map scopeOf)) := by
      simp [classAt?, hstart]
    rw [outlineOf, outlineOf, Outline.append_empty, Statement.outline, Outline.append,
      List.map_append, hbelow.classes_body hin, List.filterMap_cons_some hclass]
    rfl

theorem Entry.exists_lineOf {inChoice : Bool} {after next : After} {block : List Entry}
    {statements : List Statement}
    (h : (Entry.entry line block).statements? inChoice after = some (statements, next)) :
    ∃ l below, LineOf line l ∧ Source.statements? l.isChoice .free block = some below ∧
      statements = l.statements below := by
  -- the two ways to read a line differ in nothing that follows
  have hread : ∃ l, LineOf line l ∧ ((after.next? l).bind fun next =>
      (Source.statements? l.isChoice .free block).bind fun below =>
        some (l.statements below, next)) = some (statements, next) := by
    rw [Entry.statements?] at h
    split at h
    · obtain ⟨l, hl, h⟩ := Option.bind_eq_some_iff.mp h
      exact ⟨l, lineOf_of_choiceLine? hl, h⟩
    · obtain ⟨l, hl, h⟩ := Option.bind_eq_some_iff.mp h
      exact ⟨l, lineOf_of_line? hl, h⟩
  obtain ⟨l, hline, h⟩ := hread
  simp only [Option.bind_eq_some_iff] at h
  obtain ⟨_, -, below, hbelow, h⟩ := h
  obtain ⟨rfl, -⟩ := Prod.mk.inj (Option.some.inj h)
  exact ⟨l, below, hline, hbelow, rfl⟩

mutual

theorem Entry.readFrom {inChoice : Bool} {after next : After} {statements : List Statement}
    (above : List (List Node)) :
    (e : Entry) → e.OpensBlocks → e.statements? inChoice after = some (statements, next) →
      ReadFrom (e.placed above) (enclosingClass (above.map scopeOf)) statements
  | .entry line block, hopen, h => by
    obtain ⟨l, below, hline, hbelow, rfl⟩ := Entry.exists_lineOf h
    exact hline.readFrom hopen.1 fun above => readFrom_of_statements? above block hopen.2 hbelow

theorem readFrom_of_statements? {inChoice : Bool} {after : After} {statements : List Statement}
    (above : List (List Node)) :
    (es : List Entry) → OpenBlocks es → statements? inChoice after es = some statements →
      ReadFrom (placedIn above es) (enclosingClass (above.map scopeOf)) statements
  | [], _, h => by
    rw [statements?] at h
    split at h
    · obtain rfl := Option.some.inj h
      exact readFrom_nil _
    · cases h
  | e :: es, hopen, h => by
    simp only [statements?, Option.bind_eq_bind, Option.bind_eq_some_iff] at h
    obtain ⟨⟨first, next⟩, hfirst, more, hmore, h⟩ := h
    obtain rfl := Option.some.inj h
    rw [placedIn]
    exact (e.readFrom above hopen.1 hfirst).append (readFrom_of_statements? above es hopen.2 hmore)

end

/-! ### Outlines -/

/-- Statements made of all the tokens of a text are written in the text. -/
theorem writtenIn_of_tokens? {text : List Char} {nodes : List Node} {statements : List Statement}
    (h : tokens? text = some (tokensOf nodes)) (hmade : MadeIn nodes statements) :
    WrittenIn [] text statements := by
  have htiles : Tiles {} (tokensOf nodes ++ []) text := by
    rw [List.append_nil]
    exact tiles_of_tokensFrom h
  obtain ⟨after, htext, -⟩ := htiles.of_append_right
  have hwritten := writtenIn_of_madeIn [] text nodes statements hmade htiles.of_append_left
  rw [htext, ← rawText_eq]
  exact hwritten.append_right after

/-- Imports and classes are listed in the order of the text, with the places where they stand. Each
class statement is listed once, however deep it stands, with the innermost class around it unless a
function lies between. This holds of every tree of statements that is written in the text, and the
statements read from a text are such a tree: their classes are the lines that start with `class`. -/
theorem outline_inOrder :
    (∀ text statements, WrittenIn [] text statements →
      (outlineOf none statements).Located text 0 (byteLength text) ∧
      (outlineOf none statements).classes =
        (classStatementsIn [] statements).map ClassStatement.info) ∧
    ∀ text o, outline? text = some o → ∃ tree statements,
      tree? text = some tree ∧ tokens? text = some (tokensOf (linesOf tree).flatten) ∧
      statements? false .free tree = some statements ∧ o = outlineOf none statements ∧
      WrittenIn [] text statements ∧
      o.classes.map ClassInfo.place = (placedIn [] tree).filterMap classAt? := by
  refine ⟨?_, ?_⟩
  · intro text statements h
    have hlocated := located_of_writtenIn none [] text [] statements h
    rw [List.nil_append, List.append_nil] at hlocated
    exact ⟨hlocated, classes_outlineOf [] statements⟩
  · intro text o h
    rw [outline?_eq, Option.bind_eq_some_iff] at h
    obtain ⟨tree, htree, h⟩ := h
    obtain ⟨statements, hread, rfl⟩ := Option.map_eq_some_iff.mp h
    obtain ⟨hopen, htokens⟩ := tree?_spec htree
    have hfrom : ReadFrom (placedIn [] tree) none statements :=
      readFrom_of_statements? [] tree hopen hread
    exact ⟨tree, statements, htree, htokens, hread, rfl,
      writtenIn_of_tokens? htokens hfrom.made, hfrom.classes⟩

/-- A class below a condition in a class, and one in a function of the class. -/
def nestedClasses : List Char :=
  "import a\nclass A(b):\n if x:\n  class B: pass\n def f():\n  class C: import d\n".toList

theorem outline_inOrder_nested : ∃ o statements, outline? nestedClasses = some o ∧
    o.imports.map (·.span.offset) = [0, 65] ∧
    o.classes.map (fun c => (c.name, c.span.offset, c.enclosing)) =
      [(['A'], 9, none), (['B'], 30, some ['A']), (['C'], 56, none)] ∧
    WrittenIn [] nestedClasses statements ∧
    o.Located nestedClasses 0 (byteLength nestedClasses) ∧
    o.classes = (classStatementsIn [] statements).map ClassStatement.info := by
  have hread : (outline? nestedClasses).map (fun o => (o.imports.map (·.span.offset),
      o.classes.map (fun c => (c.name, c.span.offset, c.enclosing)))) =
      some ([0, 65], [(['A'], 9, none), (['B'], 30, some ['A']), (['C'], 56, none)]) := by
    decide +kernel
  obtain ⟨o, ho, hlists⟩ := Option.map_eq_some_iff.mp hread
  obtain ⟨himports, hclasses⟩ := Prod.mk.inj hlists
  obtain ⟨tree, statements, -, -, -, rfl, hwritten, -⟩ := outline_inOrder.2 nestedClasses o ho
  obtain ⟨hlocated, hlisted⟩ := outline_inOrder.1 nestedClasses statements hwritten
  exact ⟨_, statements, ho, himports, hclasses, hwritten, hlocated, hlisted⟩

end TableLint.Source
