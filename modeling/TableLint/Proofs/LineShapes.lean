import TableLint.Proofs.StatementEnds

/-!
What a line that is read can be. Only a head can have a block below it, and the words that a line
starts with tell whether it is the head of a class or of a function. Main statement:
`lineOf_of_line?`, one case for each kind of line.
-/
namespace TableLint.Source

variable {nodes rest : List Node} {n : Node}

/-- What the body below a line belongs to, by the first words of the line. -/
def scopeOf : List Node → Scope
  | [] => .other
  | word :: rest =>
    if word.isWord "class" then .classDef (rest.head?.elim [] (·.first.text))
    else if word.isWord "def" || (word.isWord "async" && rest.head?.any (·.isWord "def")) then
      .function
    else .other

/-- The statement of the head only holds its body. -/
def Header.isCompound : Header → Bool
  | .function | .classDef _ => false
  | _ => true

/-- What a line can be. Only a head may end in a colon. -/
inductive LineOf : List Node → Line → Prop where
  | simple {nodes : List Node} {statements : List Statement} (hstart : scopeOf nodes = .other)
      (hends : Ended nodes) (h : SimpleIn nodes statements) : LineOf nodes (.simple statements)
  | decorator {nodes : List Node} (hstart : scopeOf nodes = .other) (hends : Ended nodes) :
      LineOf nodes .decorator
  | compound {word : Node} {rest : List Node} {header : Header} {suite : List Statement}
      (hstart : scopeOf (word :: rest) = .other) (hheader : header.isCompound = true)
      (h : SimpleIn rest suite) : LineOf (word :: rest) (.header header suite)
  | function {word : Node} {rest : List Node} {suite : List Statement}
      (hstart : scopeOf (word :: rest) = .function) (h : SimpleIn rest suite) :
      LineOf (word :: rest) (.header .function suite)
  | classDef {word name : Node} {rest : List Node} {bases : List (List Char)}
      {suite : List Statement} (hword : word.isWord "class") (hname : name.isName)
      (h : SimpleIn rest suite) :
      LineOf (word :: name :: rest)
        (.header (.classDef ⟨name.first.text, bases, spanOfNodes [word, name]⟩) suite)

theorem suite?_spec {suite : List Statement} (h : suite? nodes = some suite) :
    SimpleIn nodes suite := by
  cases nodes with
  | nil => cases h
  | cons n ns =>
    rw [suite?] at h
    split at h
    · split at h
      · obtain rfl := Option.some.inj h
        exact ⟨[], .nil _, .nil⟩
      · exact (simpleLine?_spec h).2.of_suffix (List.suffix_cons n ns)
    · cases h

theorem headed_spec {header : Header} {after : Option (List Node)} {line : Line}
    (h : headed header after = some line) (hafter : ∀ rest, after = some rest → rest <:+ nodes) :
    ∃ suite, line = .header header suite ∧ SimpleIn nodes suite := by
  simp only [headed, Option.bind_eq_bind, Option.bind_eq_some_iff] at h
  obtain ⟨rest, hrest, suite, hsuite, h⟩ := h
  exact ⟨suite, (Option.some.inj h).symm, (suite?_spec hsuite).of_suffix (hafter rest hrest)⟩

theorem afterTypeParameters_isSuffix (nodes : List Node) : afterTypeParameters nodes <:+ nodes := by
  cases nodes with
  | nil => exact List.suffix_rfl
  | cons n ns =>
    rw [afterTypeParameters]
    split
    · exact List.suffix_cons n ns
    · exact List.suffix_rfl

theorem afterFunction?_isSuffix (h : afterFunction? nodes = some rest) : rest <:+ nodes := by
  cases nodes with
  | nil => cases h
  | cons name ns =>
    rw [afterFunction?, guard_bind_eq_some_iff] at h
    obtain ⟨-, h⟩ := h
    have hsuffix := (afterTypeParameters_isSuffix ns).trans (List.suffix_cons name ns)
    split at h
    · cases h
    · next parameters more hmore =>
      rw [hmore] at hsuffix
      rw [guard_bind_eq_some_iff] at h
      obtain ⟨-, h⟩ := h
      refine List.IsSuffix.trans ?_ ((List.suffix_cons parameters more).trans hsuffix)
      split at h
      · cases h
      · next n ns =>
        split at h
        · exact (scan_isSuffix h).trans (List.suffix_cons n ns)
        · obtain rfl := Option.some.inj h
          exact List.suffix_rfl

theorem scopeOf_of_classWord {word : Node} (hword : word.isWord "class") (name : Node)
    (rest : List Node) : scopeOf (word :: name :: rest) = .classDef name.first.text := by
  simp [scopeOf, hword]

theorem lineOf_of_classLine? {word : Node} {line : Line} (hword : word.isWord "class")
    (h : classLine? word rest = some line) : LineOf (word :: rest) line := by
  cases rest with
  | nil => cases h
  | cons name rest =>
    rw [classLine?, guard_bind_eq_some_iff] at h
    obtain ⟨hname, h⟩ := h
    have hsuffix := afterTypeParameters_isSuffix rest
    split at h
    · cases h
    · next n ns hafter =>
      rw [hafter] at hsuffix
      split at h
      · rw [guard_bind_eq_some_iff] at h
        obtain ⟨-, h⟩ := h
        obtain ⟨suite, rfl, hsuite⟩ := headed_spec h fun rest hrest => by
          obtain rfl := Option.some.inj hrest
          exact (List.suffix_cons _ ns).trans hsuffix
        exact .classDef hword hname hsuite
      · obtain ⟨suite, rfl, hsuite⟩ := headed_spec h fun rest hrest => by
          obtain rfl := Option.some.inj hrest
          exact hsuffix
        exact .classDef hword hname hsuite

theorem lineOf_of_headed {header : Header} {after : Option (List Node)} {line : Line}
    (hstart : scopeOf (n :: nodes) = .other) (hheader : header.isCompound = true)
    (h : headed header after = some line) (hafter : ∀ rest, after = some rest → rest <:+ nodes) :
    LineOf (n :: nodes) line := by
  obtain ⟨suite, rfl, hsuite⟩ := headed_spec h hafter
  exact .compound hstart hheader hsuite

theorem lineOf_of_simpleLine? {line : Line} (hstart : scopeOf nodes = .other)
    (h : (simpleLine? nodes).map .simple = some line) : LineOf nodes line := by
  obtain ⟨statements, hread, rfl⟩ := Option.map_eq_some_iff.mp h
  obtain ⟨hends, hin⟩ := simpleLine?_spec hread
  exact .simple hstart hends hin

theorem Node.isWord_iff {word : String} :
    n.isWord word ↔ n.isAnyWord ∧ String.ofList n.first.text = word := by
  cases n with
  | group => simp [isWord, isAnyWord]
  | leaf t => simp [isWord, isAnyWord, first, Token.isWord, ← String.toList_inj]

theorem Node.not_isWord_of_isWord {word other : String} (hn : n.isWord word) (hne : word ≠ other) :
    n.isWord other = false := by
  rw [Bool.eq_false_iff, Ne, Node.isWord_iff, (Node.isWord_iff.1 hn).2]
  exact fun h => hne h.2

theorem scopeOf_of_word {word : String} (hword : String.ofList n.first.text = word)
    (hother : word ≠ "class" ∧ word ≠ "def" ∧ word ≠ "async") (rest : List Node) :
    scopeOf (n :: rest) = .other := by
  simp [scopeOf, Node.isWord_iff, hword, hother]

theorem scopeOf_of_not_isAnyWord (hn : n.isAnyWord = false) (rest : List Node) :
    scopeOf (n :: rest) = .other := by
  simp [scopeOf, Node.isWord_iff, hn]

theorem lineOf_of_handlerLine? {line : Line} (hstart : scopeOf (n :: rest) = .other)
    (h : handlerLine? rest = some line) : LineOf (n :: rest) line := by
  have hafter : ∀ ms, ms <:+ rest → ∀ m : Node,
      headed .handler (if m.isMark ":" then some ms else afterExpressions? ms) = some line →
      LineOf (n :: rest) line := by
    intro ms hms m h
    refine lineOf_of_headed hstart rfl h ?_
    intro tail htail
    split at htail
    · obtain rfl := Option.some.inj htail
      exact hms
    · exact (scan_isSuffix htail).trans hms
  cases rest with
  | nil => cases h
  | cons m ms =>
    simp only [handlerLine?] at h
    split at h
    · cases h
    · next first more hmore =>
      refine hafter _ ?_ first h
      split
      · exact List.suffix_cons m ms
      · exact List.suffix_rfl

theorem lineOf_of_optionLine? {line : Line} (hstart : scopeOf (n :: rest) = .other)
    (h : optionLine? rest = some line) : LineOf (n :: rest) line := by
  have hpatterns : headed .option (afterExpressions? rest) = some line → LineOf (n :: rest) line :=
    fun h => lineOf_of_headed hstart rfl h fun _ ha => scan_isSuffix ha
  simp only [optionLine?] at h
  split at h
  · exact hpatterns h
  · next word condition hdrop =>
    split at h
    · have hcondition := List.drop_suffix (rest.takeWhile fun n => !n.isWord "if").length rest
      rw [hdrop] at hcondition
      refine lineOf_of_headed hstart rfl h fun _ ha => (scan_isSuffix ha).trans ?_
      exact (List.suffix_cons word condition).trans hcondition
    · exact hpatterns h

theorem lineOf_of_decorator (hmark : n.isMark "@")
    (h : (afterExpression? rest).any List.isEmpty) : LineOf (n :: rest) .decorator := by
  have hn : n.isAnyWord = false := by
    rw [Bool.eq_false_iff]
    intro hn
    rw [n.isMark_of_isAnyWord hn "@"] at hmark
    cases hmark
  have hends := ended_of_scan (eq_some_nil_of_any h)
  exact .decorator (scopeOf_of_not_isAnyWord hn rest) (hends.cons n)

/-- The line that starts with `async` and another word. -/
theorem lineOf_of_async {m : Node} {line : Line} (hn : n.isWord "async")
    (h : (if m.isWord "def" then headed .function (afterFunction? rest)
      else if m.isWord "for" then headed .loop (afterLoop? rest)
      else if m.isWord "with" then headed .context (afterExpressions? rest)
      else (simpleLine? (n :: m :: rest)).map .simple) = some line) :
    LineOf (n :: m :: rest) line := by
  have hrest : rest <:+ m :: rest := List.suffix_cons m rest
  have hclass := Node.not_isWord_of_isWord hn (show "async" ≠ "class" by decide)
  split at h
  · next hm =>
    obtain ⟨suite, rfl, hsuite⟩ :=
      headed_spec h fun _ ha => (afterFunction?_isSuffix ha).trans hrest
    exact .function (by simp [scopeOf, hclass, hn, hm]) hsuite
  · next hm =>
    have hdef := Node.not_isWord_of_isWord hn (show "async" ≠ "def" by decide)
    have hstart : scopeOf (n :: m :: rest) = .other := by simp [scopeOf, hclass, hdef, hm]
    split at h
    · exact lineOf_of_headed hstart rfl h fun _ ha => (scan_isSuffix ha).trans hrest
    · split at h
      · exact lineOf_of_headed hstart rfl h fun _ ha => (scan_isSuffix ha).trans hrest
      · exact lineOf_of_simpleLine? hstart h

/-- A line is read as one of the kinds of lines. -/
theorem lineOf_of_line? {line : Line} (h : line? nodes = some line) : LineOf nodes line := by
  unfold line? at h
  split at h
  · cases h
  · next n rest =>
    split at h
    · next hmark =>
      split at h
      · next hread =>
        obtain rfl := Option.some.inj h
        exact lineOf_of_decorator hmark hread
      · cases h
    · split at h
      · next hn =>
        split at h
        case h_1 | h_2 | h_4 =>
          next hword =>
          refine lineOf_of_headed (scopeOf_of_word hword (by decide) rest) rfl h ?_
          exact fun _ ha => scan_isSuffix ha
        case h_3 | h_6 | h_8 =>
          next hword =>
          refine lineOf_of_headed (scopeOf_of_word hword (by decide) rest) rfl h ?_
          intro tail htail
          obtain rfl := Option.some.inj htail
          exact List.suffix_rfl
        case h_5 hword =>
          refine lineOf_of_headed (scopeOf_of_word hword (by decide) rest) rfl h ?_
          exact fun _ ha => scan_isSuffix ha
        case h_7 hword => exact lineOf_of_handlerLine? (scopeOf_of_word hword (by decide) rest) h
        case h_9 hword =>
          refine lineOf_of_headed (scopeOf_of_word hword (by decide) rest) rfl h ?_
          exact fun _ ha => scan_isSuffix ha
        case h_10 hword =>
          obtain ⟨suite, rfl, hsuite⟩ := headed_spec h fun _ ha => afterFunction?_isSuffix ha
          exact .function (by simp [scopeOf, Node.isWord_iff, hn, hword]) hsuite
        case h_11 hword => exact lineOf_of_classLine? (Node.isWord_iff.2 ⟨hn, hword⟩) h
        case h_12 hword =>
          split at h
          · have hstart : scopeOf [n] = .other := by simp [scopeOf, Node.isWord_iff, hword]
            exact lineOf_of_simpleLine? hstart h
          · exact lineOf_of_async (Node.isWord_iff.2 ⟨hn, hword⟩) h
        case h_13 hword =>
          have hstart := scopeOf_of_word hword (by decide) rest
          split at h
          · refine lineOf_of_headed hstart rfl h ?_
            exact fun _ ha => scan_isSuffix ha
          · exact lineOf_of_simpleLine? hstart h
        case h_14 hdef hclass hasync hmatch =>
          exact lineOf_of_simpleLine? (scopeOf_of_word rfl ⟨hclass, hdef, hasync⟩ rest) h
      · next hn =>
        exact lineOf_of_simpleLine? (scopeOf_of_not_isAnyWord (Bool.eq_false_iff.mpr hn) rest) h

theorem lineOf_of_choiceLine? {line : Line} (h : choiceLine? nodes = some line) :
    LineOf nodes line := by
  cases nodes with
  | nil => cases h
  | cons n rest =>
    rw [choiceLine?] at h
    split at h
    · next hn =>
      exact lineOf_of_optionLine?
        (scopeOf_of_word (Node.isWord_iff.1 hn).2 (by decide) rest) h
    · cases h

end TableLint.Source
