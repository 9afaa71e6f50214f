import TableLint.Proofs.CompiledAttributes

/-!
Attribute types as patterns. A pattern reads a start of a text in one way or several, and `rests`
lists what each of them leaves. The forms of a category are the same as its pattern: a type is
covered by a category exactly if the pattern reads a start of it. All patterns but that of the
integers read a text to its end.
-/
namespace TableLint.Text

/-- One word after the other. -/
theorem afterWord?_append (u v s : List Char) :
    afterWord? (u ++ v) s = (afterWord? u s).bind (afterWord? v) := by
  induction u generalizing s with
  | nil => rfl
  | cons w u ih =>
    cases s with
    | nil => rfl
    | cons c s =>
      rw [List.cons_append, afterWord?, afterWord?]
      split
      · exact ih s
      · rfl

theorem afterWord?_map_foldCase (front rest : List Char) :
    afterWord? (front.map foldCase) (front ++ rest) = some rest := by
  induction front with
  | nil => rfl
  | cons c front ih =>
    rw [List.map_cons, List.cons_append, afterWord?, beq_self_eq_true, if_pos rfl, ih]

/-- A word is read if the text starts with it, in whatever case. -/
theorem afterWord?_eq_some_iff {word s rest : List Char} :
    afterWord? word s = some rest ↔ ∃ front, s = front ++ rest ∧ front.map foldCase = word := by
  constructor
  · exact exists_append_of_afterWord?
  · rintro ⟨front, rfl, rfl⟩
    exact afterWord?_map_foldCase front rest

end TableLint.Text

namespace TableLint.Definition

open Text

/-! ### Patterns -/

inductive TypePattern where
  /-- One of the words, in whatever case. -/
  | words (ws : List String)
  /-- A character of the kind. -/
  | one (p : Char → Bool)
  /-- Any number of characters of the kind. -/
  | many (p : Char → Bool)
  | seq (p q : TypePattern)
  | either (p q : TypePattern)
  | maybe (p : TypePattern)
  /-- The end of the text. -/
  | stop

namespace TypePattern

variable {p q : TypePattern} {kind : Char → Bool} {ws : List String} {s rest : List Char}

/-- What is left after some characters of the kind, fewest characters last. -/
def afterMany (kind : Char → Bool) : List Char → List (List Char)
  | [] => [[]]
  | c :: s => (if kind c then afterMany kind s else []) ++ [c :: s]

/-- What is left of the text after each way to read the pattern at its start. -/
def rests : TypePattern → List Char → List (List Char)
  | words ws, s => ws.filterMap fun w => afterWord? w.toList s
  | one _, [] => []
  | one kind, c :: s => if kind c then [s] else []
  | many kind, s => afterMany kind s
  | seq p q, s => (p.rests s).flatMap q.rests
  | either p q, s => p.rests s ++ q.rests s
  | maybe p, s => p.rests s ++ [s]
  | stop, s => if s.isEmpty then [[]] else []

/-- The pattern reads a start of the text. -/
def Matches (p : TypePattern) (s : List Char) : Prop := ∃ rest, rest ∈ p.rests s

@[simp] theorem mem_rests_words :
    rest ∈ (words ws).rests s ↔ ∃ w ∈ ws, afterWord? w.toList s = some rest := by
  simp [rests]

@[simp] theorem mem_rests_one : rest ∈ (one kind).rests s ↔ ∃ c, kind c = true ∧ s = c :: rest := by
  cases s with
  | nil => simp [rests]
  | cons c s =>
    rw [rests]
    split
    · next hc =>
      rw [List.mem_singleton]
      constructor
      · rintro rfl
        exact ⟨c, hc, rfl⟩
      · rintro ⟨d, -, he⟩
        exact (List.cons.inj he).2.symm
    · next hc =>
      simp only [List.not_mem_nil, false_iff, not_exists, not_and]
      rintro d hd ⟨⟩
      exact hc hd

@[simp] theorem mem_rests_many :
    rest ∈ (many kind).rests s ↔ ∃ front, (∀ c ∈ front, kind c = true) ∧ s = front ++ rest := by
  rw [rests]
  induction s with
  | nil => simp [afterMany]
  | cons c s ih =>
    rw [afterMany, List.mem_append, List.mem_singleton]
    constructor
    · rintro (hm | rfl)
      · split at hm
        · next hc =>
          obtain ⟨front, hf, rfl⟩ := ih.mp hm
          exact ⟨c :: front, by simpa using ⟨hc, hf⟩, rfl⟩
        · cases hm
      · exact ⟨[], by simp, rfl⟩
    · rintro ⟨front, hf, he⟩
      cases front with
      | nil => exact .inr he.symm
      | cons d front =>
        obtain ⟨rfl, rfl⟩ := List.cons.inj he
        rw [if_pos (hf c List.mem_cons_self)]
        exact .inl (ih.mpr ⟨front, fun e h => hf e (List.mem_cons_of_mem c h), rfl⟩)

@[simp] theorem mem_rests_seq :
    rest ∈ (seq p q).rests s ↔ ∃ middle ∈ p.rests s, rest ∈ q.rests middle := by
  simp [rests]

@[simp] theorem mem_rests_either :
    rest ∈ (either p q).rests s ↔ rest ∈ p.rests s ∨ rest ∈ q.rests s := by
  simp [rests]

@[simp] theorem mem_rests_maybe :
    rest ∈ (maybe p).rests s ↔ rest ∈ p.rests s ∨ rest = s := by
  simp [rests]

@[simp] theorem mem_rests_stop : rest ∈ stop.rests s ↔ s = [] ∧ rest = [] := by
  rw [rests]
  cases s <;> simp

/-! ### Parts of types -/

/-- A character within a line. -/
def isInLine (c : Char) : Bool := c != '\n'

/-- At least one blank, then the word. -/
def spaced (w : String) : TypePattern := seq (one isBlank) (seq (many isBlank) (words [w]))

/-- At least one character, none of them a line feed, and then the closing sign. -/
def upToSign (close : String) : TypePattern :=
  seq (one isInLine) (seq (many isInLine) (words [close]))

/-- A part in parentheses, with blanks in front. -/
def size : TypePattern := seq (many isBlank) (seq (words ["("]) (upToSign ")"))

/-- A word for integers. -/
def integerWord : TypePattern :=
  either (seq (words ["tiny", "small", "medium", "big", ""]) (words ["int"])) (words ["integer"])

def unsigned : TypePattern := spaced "unsigned"

def increment : TypePattern := spaced "auto_increment"

/-- The name of a store. -/
def store : TypePattern :=
  seq (one fun c => 'a' ≤ foldCase c && foldCase c ≤ 'z') (many fun c => c == '-' || isWord c)

variable {w : String}

theorem mem_rests_word {word : List Char} (hw : w.toList = word) :
    rest ∈ (words [w]).rests s ↔ ∃ front, s = front ++ rest ∧ front.map foldCase = word := by
  simp [hw, afterWord?_eq_some_iff]

/-- A character that has no case stands for itself. -/
theorem mem_rests_sign {c : Char} (hw : w.toList = [c]) (hl : c.isLower = false)
    (hc : foldCase c = c) :
    rest ∈ (words [w]).rests s ↔ s = c :: rest := by
  rw [mem_rests_word hw]
  constructor
  · rintro ⟨front, rfl, hf⟩
    obtain ⟨d, rfl, hd⟩ := List.map_eq_singleton_iff.mp hf
    rw [eq_of_foldCase hd hl]
    rfl
  · rintro rfl
    exact ⟨[c], rfl, by rw [List.map_singleton, hc]⟩

/-- One character of the kind or more. -/
theorem mem_rests_some (q : TypePattern) :
    rest ∈ (seq (one kind) (seq (many kind) q)).rests s ↔
      ∃ front middle, front ≠ [] ∧ (∀ c ∈ front, kind c = true) ∧ s = front ++ middle ∧
        rest ∈ q.rests middle := by
  simp only [mem_rests_seq, mem_rests_one, mem_rests_many]
  constructor
  · rintro ⟨_, ⟨c, hc, rfl⟩, middle, ⟨front, hf, rfl⟩, hr⟩
    exact ⟨c :: front, middle, by simp, by simpa using ⟨hc, hf⟩, rfl, hr⟩
  · rintro ⟨front, middle, hne, hf, rfl, hr⟩
    obtain ⟨c, front, rfl⟩ := List.exists_cons_of_ne_nil hne
    exact ⟨front ++ middle, ⟨c, hf c List.mem_cons_self, rfl⟩, middle,
      ⟨front, fun d hd => hf d (List.mem_cons_of_mem c hd), rfl⟩, hr⟩

theorem forall_isInLine_iff {front : List Char} :
    (∀ c ∈ front, isInLine c = true) ↔ '\n' ∉ front := by
  constructor
  · intro h hm
    exact absurd (h '\n' hm) (by decide)
  · intro h c hc
    rw [isInLine, bne_iff_ne]
    rintro rfl
    exact h hc

theorem mem_rests_spaced {word : List Char} (hw : w.toList = word) :
    rest ∈ (spaced w).rests s ↔ ∃ blank front, blank ≠ [] ∧ AllBlank blank ∧
      front.map foldCase = word ∧ s = blank ++ (front ++ rest) := by
  rw [spaced, mem_rests_some]
  simp only [mem_rests_word hw]
  constructor
  · rintro ⟨blank, _, hne, hb, rfl, front, rfl, hf⟩
    exact ⟨blank, front, hne, hb, hf, rfl⟩
  · rintro ⟨blank, front, hne, hb, hf, rfl⟩
    exact ⟨blank, front ++ rest, hne, hb, rfl, front, rfl, hf⟩

theorem mem_rests_upToSign {c : Char} (hw : w.toList = [c]) (hl : c.isLower = false)
    (hc : foldCase c = c) :
    rest ∈ (upToSign w).rests s ↔
      ∃ inner, inner ≠ [] ∧ '\n' ∉ inner ∧ s = inner ++ c :: rest := by
  rw [upToSign, mem_rests_some]
  simp only [mem_rests_sign hw hl hc, forall_isInLine_iff]
  constructor
  · rintro ⟨inner, _, hne, hi, rfl, rfl⟩
    exact ⟨inner, hne, hi, rfl⟩
  · rintro ⟨inner, hne, hi, rfl⟩
    exact ⟨inner, _, hne, hi, rfl, rfl⟩

end TypePattern

namespace Category

open TypePattern

/-- The pattern of the types of a category. That of the integers does not go on to the end of the
text, unless the type is `serial`. -/
def pattern : Category → TypePattern
  | integer =>
    either (seq integerWord (seq (maybe size) (seq (maybe unsigned) (maybe increment))))
      (seq (words ["serial"]) stop)
  | decimal => seq (words ["decimal", "numeric"]) (seq (maybe size) (seq (maybe unsigned) stop))
  | float => seq (words ["double", "float", "real"]) (seq (maybe size) (seq (maybe unsigned) stop))
  | string => seq (maybe (words ["var"])) (seq (words ["char"]) (seq size stop))
  | json => seq (words ["json"]) stop
  | enum => seq (words ["enum"]) (seq size stop)
  | temporal =>
    seq (words ["date", "datetime", "time", "timestamp", "year"]) (seq (maybe size) stop)
  | internalBlob =>
    seq (words ["tiny", "small", "medium", "long", ""]) (seq (words ["blob"]) stop)
  | externalBlob => seq (words ["blob@"]) (seq store stop)
  | internalAttach => seq (words ["attach"]) stop
  | externalAttach => seq (words ["attach@"]) (seq store stop)
  | filepath => seq (words ["filepath@"]) (seq store stop)
  | uuid => seq (words ["uuid"]) stop
  | adapted => seq (words ["<"]) (seq (upToSign ">") stop)

end Category

/-! ### Tails -/

theorem endsIn_iff {close : Char} {s : List Char} :
    endsIn close s = true ↔ ∃ inner, inner ≠ [] ∧ '\n' ∉ inner ∧ s = inner ++ [close] := by
  obtain ⟨r, rfl⟩ : ∃ r : List Char, s = r.reverse := ⟨s.reverse, s.reverse_reverse.symm⟩
  rw [endsIn, List.reverse_reverse]
  cases r with
  | nil => simp
  | cons c r =>
    simp only [Bool.and_eq_true, beq_iff_eq, Bool.not_eq_true', List.isEmpty_eq_false_iff,
      List.contains_eq_mem, decide_eq_false_iff_not, List.reverse_cons]
    constructor
    · rintro ⟨⟨rfl, hne⟩, hn⟩
      exact ⟨r.reverse, by simpa using hne, by simpa using hn, rfl⟩
    · rintro ⟨inner, hne, hn, he⟩
      obtain ⟨rfl, hc⟩ := List.append_inj' he rfl
      exact ⟨⟨List.singleton_inj.mp hc, by simpa using hne⟩, by simpa using hn⟩

theorem isSize_iff {s : List Char} :
    isSize s = true ↔ ∃ blank inner, AllBlank blank ∧ inner ≠ [] ∧ '\n' ∉ inner ∧
      s = blank ++ '(' :: (inner ++ [')']) := by
  rw [isSize]
  constructor
  · intro h
    split at h
    · next inner ht =>
      obtain ⟨blank, hb, he⟩ := exists_eq_append_trimStart s
      obtain ⟨inside, hne, hn, rfl⟩ := endsIn_iff.mp h
      exact ⟨blank, inside, hb, hne, hn, by rw [he, ht]⟩
    · cases h
  · rintro ⟨blank, inner, hb, hne, hn, rfl⟩
    rw [trimStart_append hb, trimStart_cons (by decide)]
    exact endsIn_iff.mpr ⟨inner, hne, hn, rfl⟩

/-- The part in parentheses is read up to any closing one. -/
theorem mem_rests_size {s rest : List Char} :
    rest ∈ TypePattern.size.rests s ↔ ∃ front, isSize front = true ∧ s = front ++ rest := by
  simp only [TypePattern.size, TypePattern.mem_rests_seq, TypePattern.mem_rests_many,
    TypePattern.mem_rests_sign (w := "(") (c := '(') rfl rfl rfl,
    TypePattern.mem_rests_upToSign (w := ")") (c := ')') rfl rfl rfl]
  constructor
  · rintro ⟨_, ⟨blank, hb, rfl⟩, _, rfl, inner, hne, hn, rfl⟩
    exact ⟨blank ++ '(' :: (inner ++ [')']), isSize_iff.mpr ⟨blank, inner, hb, hne, hn, rfl⟩,
      by simp⟩
  · rintro ⟨front, hs, rfl⟩
    obtain ⟨blank, inner, hb, hne, hn, rfl⟩ := isSize_iff.mp hs
    exact ⟨_, ⟨blank, hb, List.append_assoc _ _ _⟩, _, rfl, inner, hne, hn, by simp⟩

theorem trimEnd_of_isSize {s : List Char} (h : isSize s = true) : trimEnd s = s := by
  obtain ⟨blank, inner, -, -, -, rfl⟩ := isSize_iff.mp h
  rw [← List.cons_append, ← List.append_assoc]
  exact trimEnd_concat (by decide)

/-- What stands before the last word, if this is `unsigned` and stands after a blank. -/
theorem beforeUnsigned?_eq_some_iff {s front : List Char} :
    beforeUnsigned? s = some front ↔ trimEnd front = front ∧ ∃ blank word, blank ≠ [] ∧
      AllBlank blank ∧ word.map foldCase = "unsigned".toList ∧ s = front ++ (blank ++ word) := by
  rw [beforeUnsigned?]
  constructor
  · intro h
    split at h
    · next c rest hw =>
      split at h
      · next hc =>
        cases h
        obtain ⟨word, hs, hm⟩ := afterWord?_eq_some_iff.mp hw
        obtain ⟨y, hy, he⟩ := exists_eq_trimEnd_append rest.reverse
        refine ⟨trimEnd_trimEnd _, y ++ [c], word.reverse, by simp, ?_, ?_, ?_⟩
        · exact allBlank_append.mpr ⟨hy, by simpa [AllBlank] using hc⟩
        · rw [List.map_reverse, hm]
          rfl
        · have hr := congrArg List.reverse hs
          rw [List.reverse_reverse, List.reverse_append, List.reverse_cons, he] at hr
          simpa using hr
      · cases h
    · cases h
  · rintro ⟨ht, blank, word, hne, hb, hm, rfl⟩
    obtain ⟨b, c, rfl⟩ := (List.eq_nil_or_concat' blank).resolve_left hne
    obtain ⟨hb, hc⟩ := allBlank_append.mp hb
    have hw : afterWord? "dengisnu".toList (front ++ (b ++ [c] ++ word)).reverse =
        some (c :: (front ++ b).reverse) := by
      refine afterWord?_eq_some_iff.mpr ⟨word.reverse, by simp, ?_⟩
      rw [List.map_reverse, hm]
      rfl
    simp only [hw, hc c List.mem_cons_self, if_true, List.reverse_reverse, trimEnd_append hb, ht]

/-- The pattern of a tail. -/
def Tail.pattern : Tail → TypePattern
  | .anything => .seq (.maybe .size) (.seq (.maybe .unsigned) (.maybe .increment))
  | .nothing => .stop
  | .size => .seq .size .stop
  | .optionalSize => .seq (.maybe .size) .stop
  | .optionalSizeSign => .seq (.maybe .size) (.seq (.maybe .unsigned) .stop)
  | .store => .seq .store .stop
  | .closing => .seq (.upToSign ">") .stop

namespace TypePattern

variable {p q : TypePattern} {s : List Char}

theorem matches_seq_iff : (seq p q).Matches s ↔ ∃ middle ∈ p.rests s, q.Matches middle := by
  simp only [Matches, mem_rests_seq]
  constructor
  · rintro ⟨rest, middle, hm, hr⟩
    exact ⟨middle, hm, rest, hr⟩
  · rintro ⟨middle, hm, rest, hr⟩
    exact ⟨rest, middle, hm, hr⟩

@[simp] theorem matches_stop_iff : stop.Matches s ↔ s = [] := by
  simp [Matches]

/-- A pattern that goes on to the end reads all of the text. -/
theorem matches_seq_stop_iff : (seq p stop).Matches s ↔ [] ∈ p.rests s := by
  simp [matches_seq_iff]

end TypePattern

theorem isStoreName_iff {s : List Char} :
    isStoreName s = true ↔ [] ∈ TypePattern.store.rests s := by
  simp only [TypePattern.store, TypePattern.mem_rests_seq, TypePattern.mem_rests_one,
    TypePattern.mem_rests_many, List.append_nil]
  cases s with
  | nil => simp [isStoreName]
  | cons c s =>
    simp only [isStoreName, Bool.and_eq_true, List.all_eq_true, List.cons.injEq]
    constructor
    · rintro ⟨hc, hs⟩
      exact ⟨s, ⟨c, hc, rfl, rfl⟩, s, hs, rfl⟩
    · rintro ⟨_, ⟨_, hc, rfl, rfl⟩, _, hs, rfl⟩
      exact ⟨hc, hs⟩

/-- The sign may stand after a part in parentheses or alone. -/
theorem matches_optionalSizeSign_iff {s : List Char} :
    (Tail.pattern .optionalSizeSign).Matches s ↔
      s = [] ∨ isSize s = true ∨
        ∃ front, beforeUnsigned? s = some front ∧ (front = [] ∨ isSize front = true) := by
  rw [Tail.pattern, TypePattern.matches_seq_iff]
  simp only [TypePattern.mem_rests_maybe, mem_rests_size, TypePattern.matches_seq_stop_iff,
    TypePattern.unsigned, TypePattern.mem_rests_spaced (w := "unsigned") rfl, List.append_nil]
  constructor
  · rintro ⟨middle, ⟨front, hs, rfl⟩ | rfl, ⟨blank, word, hne, hb, hw, rfl⟩ | rfl⟩
    · refine .inr (.inr ⟨front, beforeUnsigned?_eq_some_iff.mpr ?_, .inr hs⟩)
      exact ⟨trimEnd_of_isSize hs, blank, word, hne, hb, hw, rfl⟩
    · exact .inr (.inl (by simpa using hs))
    · exact .inr (.inr ⟨[], beforeUnsigned?_eq_some_iff.mpr ⟨rfl, blank, word, hne, hb, hw, rfl⟩,
        .inl rfl⟩)
    · exact .inl rfl
  · rintro (rfl | hs | ⟨front, hu, hf⟩)
    · exact ⟨[], .inr rfl, .inr rfl⟩
    · exact ⟨[], .inl ⟨s, hs, by simp⟩, .inr rfl⟩
    · obtain ⟨-, blank, word, hne, hb, hw, rfl⟩ := beforeUnsigned?_eq_some_iff.mp hu
      rcases hf with rfl | hs
      · exact ⟨blank ++ word, .inr rfl, .inl ⟨blank, word, hne, hb, hw, rfl⟩⟩
      · exact ⟨blank ++ word, .inl ⟨front, hs, rfl⟩, .inl ⟨blank, word, hne, hb, hw, rfl⟩⟩

/-- A text is a tail exactly if it has the pattern of the tail. -/
theorem Tail.holds_iff (tail : Tail) (s : List Char) :
    tail.holds s = true ↔ tail.pattern.Matches s := by
  cases tail with
  | anything =>
    have h : (Tail.pattern .anything).Matches s := ⟨s, by simp [Tail.pattern]⟩
    simpa [Tail.holds] using h
  | nothing => simp [Tail.holds, Tail.pattern]
  | size =>
    rw [Tail.holds, Tail.pattern, TypePattern.matches_seq_stop_iff, mem_rests_size]
    simp
  | optionalSize =>
    rw [Tail.holds, Tail.pattern, TypePattern.matches_seq_stop_iff, TypePattern.mem_rests_maybe,
      mem_rests_size, Bool.or_eq_true, List.isEmpty_iff, or_comm, eq_comm (a := s)]
    simp
  | optionalSizeSign =>
    rw [matches_optionalSizeSign_iff, Tail.holds, Bool.or_eq_true, Bool.or_eq_true,
      List.isEmpty_iff, or_assoc]
    cases hu : beforeUnsigned? s with
    | none => simp
    | some front => simp
  | store => rw [Tail.holds, Tail.pattern, TypePattern.matches_seq_stop_iff, isStoreName_iff]
  | closing =>
    rw [Tail.holds, Tail.pattern, TypePattern.matches_seq_stop_iff,
      TypePattern.mem_rests_upToSign (c := '>') rfl rfl rfl, endsIn_iff]

/-! ### Forms and patterns -/

namespace TypePattern

variable {p p' q r : TypePattern} {ws vs : List String} {s : List Char}

theorem matches_either_iff : (either p q).Matches s ↔ p.Matches s ∨ q.Matches s := by
  simp only [Matches, mem_rests_either, exists_or]

theorem matches_seq_assoc : (seq p (seq q r)).Matches s ↔ (seq (seq p q) r).Matches s := by
  simp only [matches_seq_iff, mem_rests_seq]
  constructor
  · rintro ⟨x, hx, y, hy, hr⟩
    exact ⟨y, ⟨x, hx, hy⟩, hr⟩
  · rintro ⟨y, ⟨x, hx, hy⟩, hr⟩
    exact ⟨x, hx, y, hy, hr⟩

theorem matches_seq_congr (h : ∀ rest, rest ∈ p.rests s ↔ rest ∈ p'.rests s) :
    (seq p q).Matches s ↔ (seq p' q).Matches s := by
  simp only [matches_seq_iff, h]

/-- Words made of two parts. -/
theorem mem_rests_seq_words (ws vs : List String) {rest : List Char} :
    rest ∈ (seq (words ws) (words vs)).rests s ↔
      rest ∈ (words (ws.flatMap fun w => vs.map (w ++ ·))).rests s := by
  simp only [mem_rests_seq, mem_rests_words, List.mem_flatMap, List.mem_map]
  constructor
  · rintro ⟨middle, ⟨w, hw, hm⟩, v, hv, hr⟩
    refine ⟨w ++ v, ⟨w, hw, v, hv, rfl⟩, ?_⟩
    rw [String.toList_append, afterWord?_append, hm, Option.bind_some, hr]
  · rintro ⟨_, ⟨w, hw, v, hv, rfl⟩, hr⟩
    rw [String.toList_append, afterWord?_append] at hr
    obtain ⟨middle, hm, hr⟩ := Option.bind_eq_some_iff.mp hr
    exact ⟨middle, ⟨w, hw, hm⟩, v, hv, hr⟩

theorem mem_rests_maybe_words (w : String) {rest : List Char} :
    rest ∈ (maybe (words [w])).rests s ↔ rest ∈ (words [w, ""]).rests s := by
  simp [afterWord?, eq_comm]

theorem mem_rests_either_words (ws vs : List String) {rest : List Char} :
    rest ∈ (either (words ws) (words vs)).rests s ↔ rest ∈ (words (ws ++ vs)).rests s := by
  simp [or_and_right, exists_or]

/-- The integer words, written out. -/
theorem mem_rests_integerWord {rest : List Char} :
    rest ∈ integerWord.rests s ↔
      rest ∈ (words ["tinyint", "smallint", "mediumint", "bigint", "int", "integer"]).rests s := by
  rw [integerWord, mem_rests_either, mem_rests_seq_words]
  exact mem_rests_either.symm.trans (mem_rests_either_words _ _)

end TypePattern

variable {category : Category} {type : List Char}

/-- Forms with the same tail are a pattern of words and that tail. -/
theorem exists_form_iff (ws : List String) (tail : Tail) (type : List Char) :
    (∃ form ∈ ws.map (·, tail), ∃ rest,
        afterWord? form.1.toList type = some rest ∧ form.2.holds rest = true) ↔
      (TypePattern.seq (.words ws) tail.pattern).Matches type := by
  simp only [TypePattern.matches_seq_iff, TypePattern.mem_rests_words, ← Tail.holds_iff,
    List.mem_map]
  constructor
  · rintro ⟨_, ⟨w, hw, rfl⟩, rest, ha, ht⟩
    exact ⟨rest, ⟨w, hw, ha⟩, ht⟩
  · rintro ⟨rest, ⟨w, hw, ha⟩, ht⟩
    exact ⟨_, ⟨w, hw, rfl⟩, rest, ha, ht⟩

theorem covers_iff_words (ws : List String) (tail : Tail)
    (h : category.forms = ws.map (·, tail)) :
    category.covers type = true ↔ (TypePattern.seq (.words ws) tail.pattern).Matches type := by
  rw [covers_iff, h, exists_form_iff]

theorem covers_integer_iff :
    Category.integer.covers type = true ↔ Category.integer.pattern.Matches type := by
  have hforms : Category.integer.forms =
      ["tinyint", "smallint", "mediumint", "bigint", "int", "integer"].map (·, Tail.anything) ++
        ["serial"].map (·, Tail.nothing) := rfl
  have hword := TypePattern.matches_seq_congr (s := type) (q := Tail.pattern .anything)
    fun _ => TypePattern.mem_rests_integerWord
  rw [covers_iff, hforms, Category.pattern, TypePattern.matches_either_iff]
  simp only [List.mem_append, or_and_right, exists_or, exists_form_iff]
  exact or_congr hword.symm Iff.rfl

theorem covers_string_iff :
    Category.string.covers type = true ↔ Category.string.pattern.Matches type := by
  rw [covers_iff_words ["varchar", "char"] .size rfl, Category.pattern,
    TypePattern.matches_seq_assoc]
  apply TypePattern.matches_seq_congr
  intro rest
  rw [TypePattern.mem_rests_seq]
  simp only [TypePattern.mem_rests_maybe_words]
  rw [← TypePattern.mem_rests_seq, TypePattern.mem_rests_seq_words]
  rfl

theorem covers_internalBlob_iff :
    Category.internalBlob.covers type = true ↔ Category.internalBlob.pattern.Matches type := by
  rw [covers_iff_words ["tinyblob", "smallblob", "mediumblob", "longblob", "blob"] .nothing rfl,
    Category.pattern, TypePattern.matches_seq_assoc]
  apply TypePattern.matches_seq_congr
  intro rest
  rw [TypePattern.mem_rests_seq_words]
  rfl

/-- A type is covered by a category exactly if it starts with the pattern of the category. -/
theorem covers_iff_matches (category : Category) (type : List Char) :
    category.covers type = true ↔ category.pattern.Matches type := by
  cases category with
  | integer => exact covers_integer_iff
  | string => exact covers_string_iff
  | internalBlob => exact covers_internalBlob_iff
  | decimal => exact covers_iff_words _ .optionalSizeSign rfl
  | float => exact covers_iff_words _ .optionalSizeSign rfl
  | json => exact covers_iff_words _ .nothing rfl
  | enum => exact covers_iff_words _ .size rfl
  | temporal => exact covers_iff_words _ .optionalSize rfl
  | externalBlob => exact covers_iff_words _ .store rfl
  | internalAttach => exact covers_iff_words _ .nothing rfl
  | externalAttach => exact covers_iff_words _ .store rfl
  | filepath => exact covers_iff_words _ .store rfl
  | uuid => exact covers_iff_words _ .nothing rfl
  | adapted => exact covers_iff_words _ .closing rfl

/-! ### Reading to the end -/

namespace TypePattern

/-- Whatever the pattern reads, it reads to the end of the text. -/
def Closed (p : TypePattern) : Prop := ∀ s, ∀ rest ∈ p.rests s, rest = []

theorem closed_stop : Closed stop := by
  intro s rest hr
  exact (mem_rests_stop.mp hr).2

theorem Closed.seq {q : TypePattern} (h : q.Closed) (p : TypePattern) : (seq p q).Closed := by
  intro s rest hr
  obtain ⟨middle, -, hr⟩ := mem_rests_seq.mp hr
  exact h middle rest hr

end TypePattern

theorem closed_pattern (h : category ≠ .integer) : category.pattern.Closed := by
  have hstop := TypePattern.closed_stop
  cases category with
  | integer => exact absurd rfl h
  | decimal | float => exact ((hstop.seq _).seq _).seq _
  | string => exact ((hstop.seq _).seq _).seq _
  | enum | temporal | internalBlob | externalBlob | externalAttach | filepath | adapted =>
    exact (hstop.seq _).seq _
  | json | internalAttach | uuid => exact hstop.seq _

end TableLint.Definition
