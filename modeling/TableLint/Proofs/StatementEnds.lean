import Mathlib.Data.List.Forall2
import Mathlib.Data.Option.Basic
import TableLint.Proofs.ExpressionEnds
import TableLint.Proofs.StatementNodes

/-!
Where statements without a body end, and what they are made of. None ends in a colon, and those of a
line are made of runs of its nodes that follow one another. Main statement: `simpleLine?_spec`.
-/
namespace TableLint.Source

variable {nodes rest piece : List Node} {n : Node} {mark : String}

/-! ### Ends -/

/-- There are nodes, and the last is not a colon. -/
def Ended (nodes : List Node) : Prop := nodes ≠ [] ∧ opensBlock nodes = false

theorem Ended.of_suffix (h : Ended rest) (hs : rest <:+ nodes) : Ended nodes := by
  obtain ⟨front, rfl⟩ := hs
  obtain ⟨hne, hends⟩ := h
  refine ⟨List.append_ne_nil_of_right_ne_nil front hne, ?_⟩
  rwa [opensBlock, List.getLast?_append_of_ne_nil front hne]

theorem Ended.cons (h : Ended nodes) (n : Node) : Ended (n :: nodes) :=
  h.of_suffix (List.suffix_cons n nodes)

theorem ended_singleton (hn : n.isMark ":" = false) : Ended [n] :=
  ⟨List.cons_ne_nil n [], hn⟩

theorem Node.isMark_of_isAnyWord (hn : n.isAnyWord) (mark : String) : n.isMark mark = false := by
  cases n with
  | group => rfl
  | leaf t =>
    have hk : t.kind = .word := by simpa [isAnyWord] using hn
    simp [isMark, Token.isMark, hk]

theorem Node.isAnyWord_of_isName (hn : n.isName) : n.isAnyWord := by
  cases n with
  | group => cases hn
  | leaf t =>
    rw [isName, Token.isName, Bool.and_eq_true] at hn
    exact hn.1

/-- A name ends nodes. -/
theorem ended_name (hn : n.isName) : Ended [n] :=
  ended_singleton (n.isMark_of_isAnyWord (n.isAnyWord_of_isName hn) ":")

/-! ### Expressions -/

/-- Expressions that take all the nodes are there, and do not end in a colon. -/
theorem ended_of_scan {commas : Bool}
    (h : scan (.plain commas) (Ground.plain commas).start nodes = some []) : Ended nodes := by
  refine ⟨?_, not_opensBlock_of_scan rfl h⟩
  rintro rfl
  cases h

theorem eq_some_nil_of_any {o : Option (List Node)} (h : o.any List.isEmpty) : o = some [] := by
  cases o with
  | none => cases h
  | some rest => rw [List.isEmpty_iff.mp h]

theorem ended_of_areExpressions (h : areExpressions nodes) : Ended nodes :=
  ended_of_scan (eq_some_nil_of_any h)

theorem ended_of_isAssigned (h : isAssigned nodes) : Ended nodes := by
  fun_induction isAssigned nodes with
  | case1 => cases h
  | case2 nodes hafter => exact ended_of_scan hafter
  | case3 nodes n rest hafter ih =>
    rw [Bool.and_eq_true] at h
    obtain ⟨-, h⟩ := h
    split at h
    · next hlt => exact ((ih hlt h).cons n).of_suffix (scan_isSuffix hafter)
    · cases h

theorem ended_of_annotatedValue? {value : Value} (h : annotatedValue? nodes = some value)
    (hne : nodes ≠ []) : Ended nodes := by
  cases nodes with
  | nil => exact absurd rfl hne
  | cons n nodes =>
    rw [annotatedValue?] at h
    split at h
    · next hassigned =>
      rw [Bool.and_eq_true] at hassigned
      exact (ended_of_isAssigned hassigned.2).cons n
    · cases h

theorem ended_of_isRaised (h : isRaised nodes) (hne : nodes ≠ []) : Ended nodes := by
  rw [isRaised, Bool.or_eq_true] at h
  rcases h with hempty | h
  · exact absurd (List.isEmpty_iff.mp hempty) hne
  · split at h
    · next hafter => exact ended_of_scan hafter
    · next n cause hafter =>
      rw [Bool.and_eq_true] at h
      have hcause := ended_of_scan (eq_some_nil_of_any h.2)
      exact (hcause.cons n).of_suffix (scan_isSuffix hafter)
    · cases h

theorem ended_of_isPrinted (h : isPrinted nodes) : Ended nodes := by
  cases nodes with
  | nil => cases h
  | cons n nodes =>
    have hends := ended_of_areExpressions h
    split at hends
    · exact hends.cons n
    · exact hends

theorem ended_of_isTypeAlias (h : isTypeAlias nodes) : Ended nodes := by
  cases nodes with
  | nil => cases h
  | cons n ns =>
    simp only [isTypeAlias, Bool.and_eq_true] at h
    obtain ⟨-, h⟩ := h
    split at h
    · next m value hrest =>
      rw [Bool.and_eq_true] at h
      have hvalue := (ended_of_scan (eq_some_nil_of_any h.2)).cons m
      refine Ended.cons (hvalue.of_suffix ?_) n
      rw [← hrest]
      split
      · split
        · exact List.suffix_cons _ _
        · exact List.suffix_rfl
      · exact List.suffix_rfl
    · cases h

/-! ### Pieces between marks -/

/-- The pieces are runs of nodes that follow one another in the list, with other nodes between them
left out. -/
inductive Stretches : List Node → List (List Node) → Prop where
  | nil (nodes : List Node) : Stretches nodes []
  | skip (n : Node) {nodes : List Node} {pieces : List (List Node)} (h : Stretches nodes pieces) :
      Stretches (n :: nodes) pieces
  | take {piece nodes : List Node} {pieces : List (List Node)} (hne : piece ≠ [])
      (h : Stretches nodes pieces) : Stretches (piece ++ nodes) (piece :: pieces)

theorem Stretches.append_left {pieces : List (List Node)} (h : Stretches nodes pieces)
    (front : List Node) : Stretches (front ++ nodes) pieces := by
  induction front with
  | nil => exact h
  | cons n front ih => exact .skip n ih

theorem Stretches.of_sublist_cons {pieces : List (List Node)}
    (h : ∀ runs, runs.Sublist pieces → (∀ run ∈ runs, run ≠ []) → Stretches rest runs)
    (runs : List (List Node)) (hruns : runs.Sublist (piece :: pieces))
    (hne : ∀ run ∈ runs, run ≠ []) : Stretches (piece ++ rest) runs := by
  cases hruns with
  | cons _ hruns => exact (h runs hruns hne).append_left piece
  | cons_cons _ hruns =>
    obtain ⟨hpiece, hmore⟩ := List.forall_mem_cons.mp hne
    exact .take hpiece (h _ hruns hmore)

/-- The first piece starts the nodes, and the others that are not empty are runs of what follows. -/
theorem splitAtMark_spec (mark : String) (nodes : List Node) :
    ∃ piece pieces rest, splitAtMark mark nodes = piece :: pieces ∧ nodes = piece ++ rest ∧
      (pieces = [] → rest = []) ∧
      ∀ runs, runs.Sublist pieces → (∀ run ∈ runs, run ≠ []) → Stretches rest runs := by
  induction nodes with
  | nil =>
    refine ⟨[], [], [], rfl, rfl, fun _ => rfl, ?_⟩
    intro runs hruns _
    rw [List.sublist_nil.mp hruns]
    exact .nil []
  | cons n ns ih =>
    obtain ⟨piece, pieces, rest, hsplit, rfl, hlast, hrest⟩ := ih
    rw [splitAtMark, hsplit]
    split
    · refine ⟨[], piece :: pieces, n :: (piece ++ rest), rfl, rfl, by simp, ?_⟩
      intro runs hruns hne
      exact .skip n (.of_sublist_cons hrest runs hruns hne)
    · exact ⟨n :: piece, pieces, rest, rfl, rfl, hlast, hrest⟩

theorem stretches_splitAtMark {runs : List (List Node)}
    (hruns : runs.Sublist (splitAtMark mark nodes)) (hne : ∀ run ∈ runs, run ≠ []) :
    Stretches nodes runs := by
  obtain ⟨piece, pieces, rest, hsplit, rfl, -, hrest⟩ := splitAtMark_spec mark nodes
  rw [hsplit] at hruns
  exact .of_sublist_cons hrest runs hruns hne

theorem Node.isMark_of_ne {other : String} (hn : n.isMark mark) (hne : mark ≠ other) :
    n.isMark other = false := by
  cases n with
  | group => rfl
  | leaf t => exact Token.isMark_of_ne hn hne

/-- Marks other than colons do not change whether the nodes end in a colon. -/
theorem any_opensBlock_splitAtMark (hmark : mark ≠ ":") (nodes : List Node) :
    (splitAtMark mark nodes).getLast?.any opensBlock = opensBlock nodes := by
  induction nodes with
  | nil => rfl
  | cons n ns ih =>
    obtain ⟨piece, pieces, rest, hsplit, hns, hlast, -⟩ := splitAtMark_spec mark ns
    rw [hsplit] at ih
    rw [splitAtMark, hsplit]
    split
    · next hn =>
      rw [List.getLast?_cons_cons, ih]
      cases ns with
      | nil => exact (n.isMark_of_ne hn hmark).symm
      | cons m ns => rw [opensBlock, opensBlock, List.getLast?_cons_cons]
    · cases pieces with
      | nil =>
        obtain rfl : ns = piece := by rw [hns, hlast rfl, List.append_nil]
        rfl
      | cons next pieces =>
        rw [List.getLast?_cons_cons] at ih ⊢
        rw [ih]
        cases ns with
        | nil => cases hsplit
        | cons m ns => rw [opensBlock, opensBlock, List.getLast?_cons_cons]

/-- The pieces between marks, without the empty one after a last mark. -/
def keptPieces (mark : String) (nodes : List Node) : List (List Node) :=
  let pieces := splitAtMark mark nodes
  if pieces.length > 1 && pieces.getLast?.any List.isEmpty then pieces.dropLast else pieces

theorem keptPieces_sublist (mark : String) (nodes : List Node) :
    (keptPieces mark nodes).Sublist (splitAtMark mark nodes) := by
  rw [keptPieces]
  split
  · exact List.dropLast_sublist _
  · exact List.Sublist.refl _

/-- Nodes end where the last of their pieces ends, or in the mark after it. -/
theorem ended_of_keptPieces (hmark : mark ≠ ":")
    (h : ∀ piece ∈ keptPieces mark nodes, Ended piece) : Ended nodes := by
  refine ⟨?_, ?_⟩
  · rintro rfl
    exact (h [] (by simp [keptPieces, splitAtMark])).1 rfl
  · rw [← any_opensBlock_splitAtMark hmark]
    obtain ⟨piece, pieces, rest, hsplit, -⟩ := splitAtMark_spec mark nodes
    have hne : splitAtMark mark nodes ≠ [] := by simp [hsplit]
    rw [List.getLast?_eq_getLast_of_ne_nil hne, Option.any_some]
    rw [keptPieces] at h
    split at h
    · next hempty =>
      rw [Bool.and_eq_true, List.getLast?_eq_getLast_of_ne_nil hne] at hempty
      rw [List.isEmpty_iff.mp hempty.2]
      rfl
    · exact (h _ (List.getLast_mem hne)).2

theorem forall₂_of_mapM {α β : Type} {f : α → Option β} {as : List α} {bs : List β}
    (h : as.mapM f = some bs) : List.Forall₂ (fun a b => f a = some b) as bs := by
  induction as generalizing bs with
  | nil =>
    obtain rfl : [] = bs := by simpa using h
    exact .nil
  | cons a as ih =>
    simp only [List.mapM_cons, Option.bind_eq_bind, Option.bind_eq_some_iff, Option.pure_def,
      Option.some.injEq] at h
    obtain ⟨b, hb, bs, hbs, rfl⟩ := h
    exact .cons hb (ih hbs)

theorem ended_of_mapM {α : Type} {f : List Node → Option α} {as : List α} (hmark : mark ≠ ":")
    (hf : ∀ piece a, f piece = some a → Ended piece)
    (h : (keptPieces mark nodes).mapM f = some as) : Ended nodes := by
  refine ended_of_keptPieces hmark ?_
  have hpieces := (forall₂_of_mapM h).imp fun piece a ha => And.intro (hf piece a ha) ha
  exact ((List.forall₂_and_left _ _).mp hpieces).1

/-! ### Imports -/

theorem ended_of_isDotted (h : isDotted nodes) : Ended nodes := by
  fun_induction isDotted nodes with
  | case1 => cases h
  | case2 n => exact ended_name h
  | case3 n m ns ih =>
    rw [Bool.and_eq_true] at h
    exact ((ih h.2).cons m).cons n

theorem ended_of_importedName? {name : ImportedName} (h : importedName? nodes = some name) :
    Ended nodes := by
  simp only [importedName?] at h
  split at h
  · next hdotted =>
    have hends := ended_of_isDotted hdotted
    split at h
    · next hdrop =>
      have hname : nodes.takeWhile (fun n => !n.isWord "as") <+: nodes := List.takeWhile_prefix _
      rwa [hname.eq_of_length_le (List.drop_eq_nil_iff.mp hdrop)] at hends
    · next m n hdrop =>
      split at h
      · next hn =>
        have hsuffix := List.drop_suffix (nodes.takeWhile fun n => !n.isWord "as").length nodes
        rw [hdrop] at hsuffix
        exact ((ended_name hn).cons m).of_suffix hsuffix
      · cases h
    · cases h
  · cases h

theorem ended_of_importedNames? {names : List ImportedName}
    (h : importedNames? nodes = some names) : Ended nodes :=
  ended_of_mapM (by decide) (fun _ _ => ended_of_importedName?) h

theorem ended_of_importList? {names : List ImportedName} (h : importList? nodes = some names) :
    Ended nodes := by
  unfold importList? at h
  split at h
  · exact ended_singleton rfl
  · exact ended_of_importedNames? h

theorem guard_bind_eq_some_iff {α : Type} {p : Prop} [Decidable p] {f : Unit → Option α} {a : α} :
    ((guard p : Option Unit) >>= f) = some a ↔ p ∧ f () = some a := by
  rw [Option.bind_eq_bind, Option.bind_eq_some_iff]
  simp only [Option.guard_eq_some']
  exact ⟨fun ⟨_, hp, h⟩ => ⟨hp, h⟩, fun ⟨hp, h⟩ => ⟨(), hp, h⟩⟩

/-- The statement has no body; if it is an import, its span is that of the nodes. -/
inductive SimpleAt (nodes : List Node) : Statement → Prop where
  | imports (imported : Imported) : SimpleAt nodes (.imports ⟨imported, spanOfNodes nodes⟩)
  | assignment (name : List Char) (value : Value) : SimpleAt nodes (.assignment name value)
  | other : SimpleAt nodes .other

theorem ended_of_star (h : (nodes.length == 1 && nodes.all (·.isMark "*")) = true) :
    Ended nodes := by
  rw [Bool.and_eq_true, beq_iff_eq, List.length_eq_one_iff] at h
  obtain ⟨⟨n, rfl⟩, hn⟩ := h
  exact ended_singleton (n.isMark_of_ne (List.all_eq_true.mp hn n List.mem_cons_self) (by decide))

theorem fromImport?_spec {st : Statement} (h : fromImport? (spanOfNodes nodes) rest = some st) :
    Ended rest ∧ SimpleAt nodes st := by
  unfold fromImport? at h
  extract_lets path list tail source at h
  rw [guard_bind_eq_some_iff, guard_bind_eq_some_iff] at h
  obtain ⟨-, -, h⟩ := h
  have hsuffix := (List.drop_suffix 1 _).trans
    (List.drop_suffix (rest.takeWhile fun n => !n.isWord "import").length rest)
  split at h
  · rw [Option.bind_eq_bind, Option.bind_eq_some_iff] at h
    obtain ⟨names, hnames, h⟩ := h
    obtain rfl := Option.some.inj h
    exact ⟨(ended_of_importList? hnames).of_suffix hsuffix, .other⟩
  · split at h
    · next hstar =>
      obtain rfl := Option.some.inj h
      exact ⟨(ended_of_star hstar).of_suffix hsuffix, .imports _⟩
    · rw [Option.bind_eq_bind, Option.bind_eq_some_iff] at h
      obtain ⟨names, hnames, h⟩ := h
      obtain rfl := Option.some.inj h
      exact ⟨(ended_of_importList? hnames).of_suffix hsuffix, .imports _⟩

theorem assignTo_simpleAt (nodes left : List Node) (value : Value) :
    SimpleAt nodes (assignTo left value) := by
  unfold assignTo
  split
  · exact .assignment _ value
  · exact .other

theorem expressionStatement?_spec {st : Statement} (h : expressionStatement? nodes = some st) :
    Ended nodes ∧ SimpleAt nodes st := by
  rw [expressionStatement?, Option.bind_eq_bind, Option.bind_eq_some_iff] at h
  obtain ⟨rest, hafter, h⟩ := h
  have hsuffix := scan_isSuffix hafter
  split at h
  · obtain rfl : Statement.other = st := by simpa using h
    exact ⟨ended_of_scan hafter, .other⟩
  · next n value =>
    rw [guard_bind_eq_some_iff] at h
    obtain ⟨-, h⟩ := h
    split at h
    · rw [guard_bind_eq_some_iff] at h
      obtain ⟨hassigned, h⟩ := h
      obtain rfl := Option.some.inj h
      exact ⟨((ended_of_isAssigned hassigned).cons n).of_suffix hsuffix, assignTo_simpleAt _ _ _⟩
    · split at h
      · simp only [Option.bind_eq_bind, Option.bind_eq_some_iff] at h
        obtain ⟨tail, htail, typed, htyped, h⟩ := h
        obtain rfl := Option.some.inj h
        refine ⟨Ended.of_suffix (Ended.cons ?_ n) hsuffix, assignTo_simpleAt _ _ _⟩
        cases tail with
        | nil => exact ended_of_scan htail
        | cons m tail =>
          exact (ended_of_annotatedValue? htyped (by simp)).of_suffix
            (scan_isSuffix htail)
      · rw [guard_bind_eq_some_iff, Bool.and_eq_true] at h
        obtain ⟨⟨-, hvalue⟩, h⟩ := h
        obtain rfl := Option.some.inj h
        exact ⟨((ended_of_areExpressions hvalue).cons n).of_suffix hsuffix, .other⟩

/-! ### Statements without a body -/

theorem ended_of_global (h : (splitAtMark "," nodes).all fun piece =>
      match piece with
      | [n] => n.isName
      | _ => false) : Ended nodes := by
  have hpieces : ∀ piece ∈ splitAtMark "," nodes, Ended piece := by
    intro piece hp
    have hone := List.all_eq_true.mp h piece hp
    split at hone
    · next n => exact ended_name hone
    · cases hone
  refine ended_of_keptPieces (show "," ≠ ":" by decide) ?_
  intro piece hp
  exact hpieces piece ((keptPieces_sublist "," nodes).mem hp)

theorem ended_after_word {t : Token} (hk : t.kind = .word) (h : rest ≠ [] → Ended rest) :
    Ended (.leaf t :: rest) := by
  cases rest with
  | nil => exact ended_singleton (Node.isMark_of_isAnyWord (by simp [Node.isAnyWord, hk]) ":")
  | cons n rest => exact (h (List.cons_ne_nil n rest)).cons _

theorem plainIf_spec {ok : Bool} {st : Statement} (h : plainIf ok = some st)
    (hends : ok = true → Ended nodes) : Ended nodes ∧ SimpleAt nodes st := by
  unfold plainIf at h
  split at h
  · next hok =>
    obtain rfl := Option.some.inj h
    exact ⟨hends hok, .other⟩
  · cases h

/-- A statement without a body does not end in a colon. -/
theorem simple?_spec {st : Statement} (h : simple? nodes = some st) :
    Ended nodes ∧ SimpleAt nodes st := by
  unfold simple? at h
  split at h
  · next t rest =>
    split at h
    · next hk =>
      rw [beq_iff_eq] at hk
      split at h
      case h_1 | h_2 | h_3 =>
        refine plainIf_spec h fun hok => ended_after_word hk fun hne => ?_
        exact absurd (List.isEmpty_iff.mp hok) hne
      case h_4 =>
        refine plainIf_spec h fun hok => ended_after_word hk fun hne => ?_
        rcases Bool.or_eq_true_iff.mp hok with hempty | hexpressions
        · exact absurd (List.isEmpty_iff.mp hempty) hne
        · exact ended_of_areExpressions hexpressions
      case h_5 | h_6 =>
        exact plainIf_spec h fun hok => (ended_of_areExpressions hok).cons _
      case h_7 =>
        exact plainIf_spec h fun hok => ended_after_word hk (ended_of_isRaised hok)
      case h_8 | h_9 => exact plainIf_spec h fun hok => (ended_of_global hok).cons _
      case h_10 =>
        obtain ⟨names, hnames, rfl⟩ := Option.map_eq_some_iff.mp h
        exact ⟨(ended_of_importedNames? hnames).cons _, .imports _⟩
      case h_11 =>
        obtain ⟨hends, hst⟩ := fromImport?_spec h
        exact ⟨hends.cons _, hst⟩
      case h_12 =>
        split at h
        · next halias =>
          obtain rfl := Option.some.inj h
          exact ⟨(ended_of_isTypeAlias halias).cons _, .other⟩
        · exact expressionStatement?_spec h
      case h_13 | h_14 =>
        rw [Option.orElse_eq_orElse, Option.orElse_eq_or, Option.or_eq_some_iff] at h
        rcases h with h | ⟨-, h⟩
        · exact expressionStatement?_spec h
        · exact plainIf_spec h fun hok => (ended_of_isPrinted hok).cons _
      case h_15 => exact expressionStatement?_spec h
    · exact expressionStatement?_spec h
  · exact expressionStatement?_spec h

/-- The statements have no bodies and stand in runs of the nodes, one after another. -/
def SimpleIn (nodes : List Node) (statements : List Statement) : Prop :=
  ∃ pieces, Stretches nodes pieces ∧ List.Forall₂ SimpleAt pieces statements

theorem SimpleIn.of_suffix {statements : List Statement} (h : SimpleIn rest statements)
    (hs : rest <:+ nodes) : SimpleIn nodes statements := by
  obtain ⟨front, rfl⟩ := hs
  obtain ⟨pieces, hpieces, hstatements⟩ := h
  exact ⟨pieces, hpieces.append_left front, hstatements⟩

theorem SimpleAt.madeOf {st : Statement} (h : SimpleAt nodes st) (hne : nodes ≠ []) :
    st.MadeOf nodes := by
  cases h with
  | imports imported => exact ⟨hne, rfl⟩
  | assignment name value => exact hne
  | other => exact hne

theorem SimpleIn.madeIn {statements : List Statement} (h : SimpleIn nodes statements) :
    MadeIn nodes statements := by
  obtain ⟨pieces, hpieces, hsimple⟩ := h
  induction hpieces generalizing statements with
  | nil nodes =>
    cases hsimple
    trivial
  | skip n h ih => exact (ih hsimple).append_left [n]
  | @take piece nodes pieces hne h ih =>
    cases hsimple with
    | cons hst hmore => exact ⟨[], piece, nodes, rfl, hst.madeOf hne, ih hmore⟩

theorem SimpleIn.classes_eq_nil {statements : List Statement} (h : SimpleIn nodes statements)
    (enclosing : Option (List Char)) : (outlineOf enclosing statements).classes = [] := by
  obtain ⟨pieces, -, hsimple⟩ := h
  induction hsimple with
  | nil => rfl
  | cons hst hmore ih =>
    rw [outlineOf, Outline.append, ih, List.append_nil]
    cases hst <;> rfl

theorem simpleLine?_spec {statements : List Statement} (h : simpleLine? nodes = some statements) :
    Ended nodes ∧ SimpleIn nodes statements := by
  have hread := forall₂_of_mapM (show (keptPieces ";" nodes).mapM simple? = some statements from h)
  have hpieces := hread.imp fun piece st hst => simple?_spec hst
  obtain ⟨hends, hsimple⟩ := (List.forall₂_and_left _ _).mp hpieces
  have hruns := stretches_splitAtMark (keptPieces_sublist ";" nodes) fun run h => (hends run h).1
  exact ⟨ended_of_keptPieces (by decide) hends, _, hruns, hsimple⟩

end TableLint.Source
