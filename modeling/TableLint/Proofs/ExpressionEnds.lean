import TableLint.Source.Expression
import TableLint.Source.Layout

/-!
Where expressions end. What follows an expression is what is left of the nodes after it, and an
expression that takes all the nodes does not end in a colon: outside brackets a colon only closes
the parameters of a lambda, whose body must follow.
-/
namespace TableLint.Source

variable {ground : Ground} {s : State} {n : Node} {nodes rest : List Node}

theorem scan_isSuffix (h : scan ground s nodes = some rest) : rest <:+ nodes := by
  induction nodes generalizing s with
  | nil =>
    rw [scan] at h
    split at h
    · cases h
      exact List.suffix_rfl
    · cases h
  | cons n ns ih =>
    rw [scan] at h
    split at h
    · exact (ih h).trans (List.suffix_cons n ns)
    · split at h
      · exact (ih h).trans (List.suffix_cons n ns)
      · cases h
    · split at h
      · cases h
        exact List.suffix_rfl
      · cases h

/-! ### Outside replacement fields -/

/-- The pass is behind the conversion of a replacement field, or just before it. -/
def Expect.isConversion : Expect → Bool
  | .conversion | .converted => true
  | _ => false

/-- The pass stops, or goes on with something other than the conversion of a field. -/
def Move.NoConversion : Move → Prop
  | .next s | .enter _ s => s.expect.isConversion = false
  | .stop => True

theorem wordAsOperand_noConversion (s : State) (t : Token) (low item : Bool) :
    (wordAsOperand s t low item).NoConversion := by
  unfold wordAsOperand
  split <;> (repeat' split) <;> trivial

theorem markAsOperand_noConversion (ground : Ground) (s : State) (t : Token) (item : Bool) :
    (markAsOperand ground s t item).NoConversion := by
  unfold markAsOperand
  split <;> (repeat' split) <;> trivial

theorem operandStep_noConversion (ground : Ground) (s : State) (low item : Bool) (n : Node) :
    (operandStep ground s low item n).NoConversion := by
  cases n with
  | group opening body closing => trivial
  | leaf t =>
    rw [operandStep]
    split
    · trivial
    · split
      case h_3 => exact wordAsOperand_noConversion s t low item
      case h_4 => exact markAsOperand_noConversion ground s t item
      all_goals trivial

theorem inStep_noConversion (ground : Ground) (s : State) : (inStep ground s).NoConversion := by
  unfold inStep
  split <;> trivial

theorem forStep_noConversion (ground : Ground) (s : State) : (forStep ground s).NoConversion := by
  unfold forStep
  (repeat' split) <;> trivial

theorem commaStep_noConversion (ground : Ground) (s : State) :
    (commaStep ground s).NoConversion := by
  unfold commaStep
  (repeat' split) <;> trivial

theorem colonStep_noConversion (ground : Ground) (s : State) :
    (colonStep ground s).NoConversion := by
  unfold colonStep
  split <;> trivial

theorem equalsStep_noConversion (hg : ground ≠ .field) (s : State) (last : Last) :
    (equalsStep ground s last).NoConversion := by
  unfold equalsStep
  split
  case h_4 => exact absurd rfl hg
  all_goals (repeat' split) <;> trivial

theorem wordStep_noConversion (ground : Ground) (s : State) (t : Token) :
    (wordStep ground s t).NoConversion := by
  unfold wordStep
  split
  case h_3 => exact inStep_noConversion ground s
  case h_9 => exact forStep_noConversion ground s
  all_goals (repeat' split) <;> trivial

theorem markStep_noConversion (hg : ground ≠ .field) (s : State) (last : Last) (t : Token) :
    (markStep ground s last t).NoConversion := by
  unfold markStep
  split
  · trivial
  · exact commaStep_noConversion ground s
  · exact colonStep_noConversion ground s
  · exact equalsStep_noConversion hg s last
  · split <;> trivial
  · simp [hg, Move.NoConversion]
  · split <;> trivial

theorem operatorStep_noConversion (hg : ground ≠ .field) (hs : s.expect.isConversion = false)
    (last : Last) (n : Node) : (operatorStep ground s last n).NoConversion := by
  cases n with
  | group opening body closing =>
    rw [operatorStep]
    (repeat' split) <;> trivial
  | leaf t =>
    rw [operatorStep]
    split
    · trivial
    · split
      · split
        · exact hs
        · trivial
      · exact wordStep_noConversion ground s t
      · exact markStep_noConversion hg s last t
      · trivial

theorem bodyStep_noConversion (s : State) : (bodyStep s).NoConversion := by
  unfold bodyStep
  split <;> trivial

theorem parameterStep_noConversion (s : State) (mayEnd : Bool) (n : Node) :
    (parameterStep s mayEnd n).NoConversion := by
  cases n with
  | group opening body closing =>
    rw [parameterStep]
    split <;> trivial
  | leaf t =>
    rw [parameterStep]
    (repeat' split) <;> first | trivial | exact bodyStep_noConversion s

theorem namedStep_noConversion (ground : Ground) (s : State) (n : Node) :
    (namedStep ground s n).NoConversion := by
  rw [namedStep]
  (repeat' split) <;> first | trivial | exact bodyStep_noConversion s

theorem textStep_noConversion (hs : s.expect.isConversion = false) (n : Node) :
    (textStep s n).NoConversion := by
  cases n with
  | group opening body closing => exact hs
  | leaf t =>
    rw [textStep]
    split
    · exact hs
    · trivial

/-- Only a replacement field has a conversion. -/
theorem step_noConversion (hg : ground ≠ .field) (hs : s.expect.isConversion = false) (n : Node) :
    (step ground s n).NoConversion := by
  unfold step
  split
  · split
    · split
      · exact inStep_noConversion ground s
      · trivial
    · exact operandStep_noConversion ground s true true n
  · exact operandStep_noConversion ground s _ false n
  · exact operandStep_noConversion ground s true false n
  · split
    · trivial
    · exact operandStep_noConversion ground s false false n
  · split
    · trivial
    · exact operandStep_noConversion ground s true true n
  · split
    · exact operatorStep_noConversion hg hs _ n
    · exact operandStep_noConversion ground s false false n
  · split
    · split <;> trivial
    · trivial
  · exact operatorStep_noConversion hg hs _ n
  · split <;> trivial
  · split
    · exact forStep_noConversion ground s
    · trivial
  · exact parameterStep_noConversion s _ n
  · exact namedStep_noConversion ground s n
  · (repeat' split) <;> trivial
  · split <;> trivial
  · (repeat' split) <;> first | trivial | exact bodyStep_noConversion s
  · exact textStep_noConversion hs n
  · exact textStep_noConversion hs n
  · next he => rw [he] at hs; cases hs
  · next he => rw [he] at hs; cases hs

/-! ### Colons outside brackets -/

/-- The pass stops, or goes on with an operand. -/
def Move.AwaitsOperand : Move → Prop
  | .next s => s.expect = .operand true
  | .enter _ _ => False
  | .stop => True

theorem Token.isMark_iff {t : Token} {mark : String} :
    t.isMark mark ↔ t.kind = .mark ∧ String.ofList t.text = mark := by
  simp [Token.isMark, ← String.toList_inj]

theorem Token.not_isWord_of_mark {t : Token} (hk : t.kind = .mark) (word : String) :
    t.isWord word = false := by
  simp [Token.isWord, hk]

theorem Token.not_isName_of_mark {t : Token} (hk : t.kind = .mark) : t.isName = false := by
  simp [Token.isName, hk]

theorem Token.isMark_of_ne {t : Token} {mark other : String} (ht : t.isMark mark)
    (hne : mark ≠ other) : t.isMark other = false := by
  rw [Bool.eq_false_iff]
  intro h
  exact hne ((Token.isMark_iff.1 ht).2.symm.trans (Token.isMark_iff.1 h).2)

theorem bodyStep_awaitsOperand (s : State) : (bodyStep s).AwaitsOperand := by
  unfold bodyStep
  split <;> trivial

theorem colonStep_awaitsOperand (commas : Bool) (s : State) :
    (colonStep (.plain commas) s).AwaitsOperand := by
  unfold colonStep
  split
  case h_1 => rfl
  all_goals simp_all [Move.AwaitsOperand]

section Colon

variable {t : Token} (ht : t.isMark ":") (commas : Bool) (s : State)

include ht

theorem operandStep_colon (low item : Bool) :
    operandStep (.plain commas) s low item (.leaf t) = .stop := by
  obtain ⟨hk, htext⟩ := Token.isMark_iff.1 ht
  rw [operandStep]
  split
  · rfl
  · simp [hk, markAsOperand, htext]

theorem operatorStep_colon (last : Last) :
    (operatorStep (.plain commas) s last (.leaf t)).AwaitsOperand := by
  obtain ⟨hk, htext⟩ := Token.isMark_iff.1 ht
  rw [operatorStep]
  split
  · trivial
  · simp only [hk, markStep, htext]
    exact colonStep_awaitsOperand commas s

theorem parameterStep_colon (mayEnd : Bool) :
    (parameterStep s mayEnd (.leaf t)).AwaitsOperand := by
  rw [parameterStep]
  simp only [Token.not_isName_of_mark (Token.isMark_iff.1 ht).1,
    Token.isMark_of_ne ht (show ":" ≠ "*" by decide),
    Token.isMark_of_ne ht (show ":" ≠ "**" by decide),
    Token.isMark_of_ne ht (show ":" ≠ "/" by decide), Bool.false_eq_true, if_false]
  split
  · exact bodyStep_awaitsOperand s
  · trivial

theorem namedStep_colon : (namedStep (.plain commas) s (.leaf t)).AwaitsOperand := by
  have hground : ¬ ((Ground.plain commas == .parameters && s.frames.isEmpty) = true) := by simp
  simp only [namedStep, Node.isMark, Token.isMark_of_ne ht (show ":" ≠ "," by decide),
    Token.isMark_of_ne ht (show ":" ≠ "=" by decide), Bool.false_eq_true, if_false, ht,
    if_true, if_neg hground]
  exact bodyStep_awaitsOperand s

/-- Outside brackets a colon ends the expression, or the parameters of a lambda. -/
theorem step_colon (hs : s.expect.isConversion = false) :
    (step (.plain commas) s (.leaf t)).AwaitsOperand := by
  have hk := (Token.isMark_iff.1 ht).1
  have hword : ∀ word, (Node.leaf t).isWord word = false := Token.not_isWord_of_mark hk
  have hname : (Node.leaf t).isName = false := Token.not_isName_of_mark hk
  have hcomma : (Node.leaf t).isMark "," = false :=
    Token.isMark_of_ne ht (show ":" ≠ "," by decide)
  unfold step
  split
  · simp [hword, operandStep_colon ht, Move.AwaitsOperand]
  · simp [operandStep_colon ht, Move.AwaitsOperand]
  · simp [operandStep_colon ht, Move.AwaitsOperand]
  · simp [hword, operandStep_colon ht, Move.AwaitsOperand]
  · simp [hword, operandStep_colon ht, Move.AwaitsOperand]
  · rw [operandStep_colon ht]
    exact operatorStep_colon ht commas s _
  · simp [hk, Move.AwaitsOperand]
  · exact operatorStep_colon ht commas s _
  · simp [hword, Move.AwaitsOperand]
  · simp [hword, Move.AwaitsOperand]
  · exact parameterStep_colon ht s _
  · exact namedStep_colon ht commas s
  · simp [hname, hcomma, Move.AwaitsOperand]
  · simp [hname, Move.AwaitsOperand]
  · simp only [hcomma, Bool.false_eq_true, if_false]
    split
    · exact bodyStep_awaitsOperand s
    · trivial
  · simp [textStep, hk, Move.AwaitsOperand]
  · simp [textStep, hk, Move.AwaitsOperand]
  · simp [hname, Move.AwaitsOperand]
  · next he => rw [he] at hs; cases hs

end Colon

theorem scan_colon (commas : Bool) (hs : s.expect.isConversion = false) (hn : n.isMark ":") :
    scan (.plain commas) s [n] ≠ some [] := by
  cases n with
  | group opening body closing => cases hn
  | leaf t =>
    have hstep := step_colon hn commas s hs
    rw [scan]
    split
    · next s' he =>
      rw [he] at hstep
      have hexpect : s'.expect = .operand true := hstep
      simp [scan, State.isFinal, hexpect]
    · next he =>
      rw [he] at hstep
      exact hstep.elim
    · split <;> simp

/-- Expressions that take all the nodes do not end in a colon. -/
theorem not_opensBlock_of_scan {commas : Bool} (hs : s.expect.isConversion = false)
    (h : scan (.plain commas) s nodes = some []) : opensBlock nodes = false := by
  induction nodes generalizing s with
  | nil => rfl
  | cons n ns ih =>
    cases ns with
    | nil =>
      rw [opensBlock, List.getLast?_singleton, Option.any_some, Bool.eq_false_iff]
      intro hn
      exact scan_colon commas hs hn h
    | cons m ms =>
      rw [opensBlock, List.getLast?_cons_cons]
      have hground : Ground.plain commas ≠ .field := by simp
      have hstep := step_noConversion hground hs n
      rw [scan] at h
      split at h
      · next he =>
        rw [he] at hstep
        exact ih hstep h
      · next he =>
        rw [he] at hstep
        split at h
        · exact ih hstep h
        · cases h
      · split at h <;> cases h

end TableLint.Source
