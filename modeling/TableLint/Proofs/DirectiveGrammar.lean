import TableLint.Proofs.LineDirectives
import TableLint.Proofs.Lines

/-!
How directives are written. After the hash stands the name of a tool and what is asked of it, then a
list of names with any blanks around them, and for this tool a closing bracket and perhaps a reason.
A directive that is written so is read as it is meant: it lists its names, up to case, and carries
its reason. If no other line has a hash, it counts for its own line and the next one and nowhere
else.
-/
namespace TableLint.Report

open Text Source

variable {s t x word content rule blank gap : List Char}

/-! ### Written directives -/

/-- The ways to write a directive, with what follows its names. -/
inductive DirectiveForm where
  | allow (blank : List Char) (hblank : AllBlank blank)
  | because (gap reason blank : List Char) (hgap : AllBlank gap) (hreason : '"' ∉ reason)
      (hblank : AllBlank blank)
  | disable

namespace DirectiveForm

/-- What stands between the hash and the names. -/
def opening : DirectiveForm → List Char
  | allow .. | because .. => " dj-lint: allow(".toList
  | disable => " pylint: disable=".toList

/-- What stands after the names. -/
def closing : DirectiveForm → List Char
  | allow blank _ => ')' :: blank
  | because gap reason blank .. => ')' :: (gap ++ ("reason=\"".toList ++ (reason ++ '"' :: blank)))
  | disable => []

/-- The reason that is given. -/
def reason? : DirectiveForm → Option (List Char)
  | because _ reason .. => some reason
  | allow .. | disable => none

end DirectiveForm

/-- A line that ends with a directive. -/
structure WrittenDirective where
  /-- The text in front of the hash. -/
  before : List Char
  form : DirectiveForm
  /-- What stands between the commas, blanks included. -/
  items : List (List Char)
  before_noHash : '#' ∉ before
  items_clean : ∀ item ∈ items, ',' ∉ item ∧ ')' ∉ item ∧ '#' ∉ item
  named : ∃ item ∈ items, trim item ≠ []

namespace WrittenDirective

variable (w : WrittenDirective)

/-- The names in the list, without the blanks around them. -/
def names : List (List Char) := (w.items.map trim).filter (!·.isEmpty)

/-- The list as it is written. -/
def list : List Char := [','].intercalate w.items

/-- The line. -/
def text : List Char := w.before ++ '#' :: (w.form.opening ++ (w.list ++ w.form.closing))

/-- The directive that is meant. -/
def directive : Directive := { rules := w.names.map lower, reason := w.form.reason? }

theorem names_ne_nil : w.names ≠ [] := by
  obtain ⟨item, hm, hne⟩ := w.named
  intro hn
  have hmem : trim item ∈ w.names :=
    List.mem_filter.mpr ⟨List.mem_map_of_mem hm, by simpa using hne⟩
  rw [hn] at hmem
  cases hmem

theorem items_ne_nil : w.items ≠ [] := by
  obtain ⟨item, hm, -⟩ := w.named
  exact List.ne_nil_of_mem hm

theorem splitAt_list : splitAt ',' w.list = w.items :=
  splitAt_intercalate (fun item hm => (w.items_clean item hm).1) w.items_ne_nil

/-- The list has no sign that none of its items has, the comma apart. -/
theorem not_mem_list {c : Char} (hc : c ≠ ',') (h : ∀ item ∈ w.items, c ∉ item) : c ∉ w.list := by
  intro hm
  obtain ⟨item, hi, hci⟩ := mem_splitAt hm hc
  rw [splitAt_list] at hi
  exact h item hi hci

theorem commaList_list : commaList trim w.list = w.names := by
  rw [commaList, splitAt_list, names]

end WrittenDirective

/-! ### Lists of names -/

/-- Trimming the list as a whole makes no difference, as its items are trimmed. -/
theorem commaList_trimStart (s : List Char) : commaList trim (trimStart s) = commaList trim s := by
  obtain ⟨x, hx, hs⟩ := exists_eq_append_trimStart s
  obtain ⟨blanks, hblanks, he⟩ := exists_map_trim_blank_append ',' hx (trimStart s)
  rw [← hs] at he
  have hempty : blanks.filter (!·.isEmpty) = [] := filter_of_empty rfl hblanks
  rw [commaList, commaList, he, List.filter_append, hempty, List.nil_append]

theorem commaList_trimEnd (s : List Char) : commaList trim (trimEnd s) = commaList trim s := by
  obtain ⟨y, hy, hs⟩ := exists_eq_trimEnd_append s
  obtain ⟨blanks, hblanks, he⟩ := exists_map_trim_splitAt_append ',' (trimEnd s) hy
  rw [← hs] at he
  have hempty : blanks.filter (!·.isEmpty) = [] := filter_of_empty rfl hblanks
  rw [commaList, commaList, he, List.filter_append, hempty, List.append_nil]

namespace Directive

theorem ruleNames_eq (s : List Char) : ruleNames s = (commaList trim s).map lower := by
  have hmap : (splitAt ',' s).map (fun item => lower (trim item)) =
      ((splitAt ',' s).map trim).map lower := by
    rw [List.map_map]
    rfl
  rw [ruleNames, commaList, commaList, hmap, List.filter_map]
  congr 1
  apply List.filter_congr
  intro item _
  simp [lower]

/-! ### Reading -/

/-- A trimmed word is taken off the text, whatever blanks stand before it. -/
theorem isPrefixOf?_trim (hw : trim word = word) (hne : word ≠ []) (hx : AllBlank x)
    (t : List Char) : word.isPrefixOf? (trim (x ++ (word ++ t))) = some (trimEnd t) := by
  rw [trim_append_left hx, trim_word_append hw hne, List.isPrefixOf?_eq_some_iff_append_eq]

theorem reason?_trimEnd (s : List Char) : reason? (trimEnd s) = reason? s := by
  rw [reason?, trim_trimEnd, reason?]

theorem reason?_of_allBlank (h : AllBlank s) : reason? s = none := by
  rw [reason?, trim_eq_nil h]
  rfl

theorem reason?_written {reason : List Char} (hgap : AllBlank gap) (hreason : '"' ∉ reason) :
    reason? (gap ++ ("reason=\"".toList ++ (reason ++ '"' :: blank))) = some reason := by
  have hword : gap ++ ("reason=\"".toList ++ (reason ++ '"' :: blank)) =
      gap ++ ("reason=".toList ++ ([] ++ (['"'] ++ (reason ++ '"' :: blank)))) := rfl
  rw [hword, reason?, isPrefixOf?_trim (by decide) (by decide) hgap]
  simp only [Option.bind_eq_bind, Option.bind_some, trim_trimEnd]
  rw [isPrefixOf?_trim (by decide) (by decide) (by decide), Option.bind_some,
    trimEnd_append_cons (by decide), cut?_append_char hreason]
  rfl

/-- What stands after the names of a form is read as its reason. -/
theorem allow?_written {names after : List Char} (h : ')' ∉ names) :
    allow? (trimEnd (' ' :: ("allow(".toList ++ (names ++ ')' :: after)))) =
      make? ((commaList trim names).map lower) (reason? after) := by
  have hnames : ')' ∉ trimStart names := fun hm => h ((List.dropWhile_sublist _).subset hm)
  have hword : ' ' :: ("allow(".toList ++ (names ++ ')' :: after)) =
      [' '] ++ ("allow(".toList ++ (names ++ ')' :: after)) := rfl
  rw [allow?, trim_trimEnd, hword, isPrefixOf?_trim (by decide) (by decide) (by decide)]
  simp only [Option.bind_eq_bind, Option.bind_some, trim_trimEnd]
  rw [trim_append_cons (by decide), cut?_append_char hnames]
  simp only [Option.bind_some, ruleNames_eq, commaList_trimStart, reason?_trimEnd]

theorem disable?_written {names : List Char} (h : '#' ∉ names) :
    disable? (trimEnd (' ' :: ("disable=".toList ++ names))) =
      make? ((commaList trim names).map lower) none := by
  have hword : ' ' :: ("disable=".toList ++ names) =
      [' '] ++ ("disable".toList ++ '=' :: names) := rfl
  have hsign : trimEnd ('=' :: names) = '=' :: trimEnd names :=
    trimEnd_append_cons (by decide) [] names
  have hnames : ¬['#'] <:+: trimEnd names := by
    intro hi
    obtain ⟨y, -, hs⟩ := exists_eq_trimEnd_append names
    exact h (hs ▸ List.mem_append_left y (hi.subset List.mem_cons_self))
  rw [disable?, trim_trimEnd, hword, isPrefixOf?_trim (by decide) (by decide) (by decide)]
  simp only [Option.bind_eq_bind, Option.bind_some]
  rw [hsign, trimStart_cons (by decide)]
  have hequals : ['='].isPrefixOf? ('=' :: trimEnd names) = some (trimEnd names) :=
    List.isPrefixOf?_eq_some_iff_append_eq.mpr rfl
  rw [hequals, Option.bind_some, upTo_of_not_isInfix hnames, ruleNames_eq, commaList_trimEnd]

theorem ofComment?_allow (t : List Char) :
    ofComment? (" dj-lint: allow(".toList ++ t) =
      allow? (trimEnd (' ' :: ("allow(".toList ++ t))) := by
  have hword : " dj-lint: allow(".toList ++ t =
      [' '] ++ ("dj-lint:".toList ++ ' ' :: ("allow(".toList ++ t)) := rfl
  rw [ofComment?, hword, isPrefixOf?_trim (by decide) (by decide) (by decide)]

theorem ofComment?_disable (t : List Char) :
    ofComment? (" pylint: disable=".toList ++ t) =
      disable? (trimEnd (' ' :: ("disable=".toList ++ t))) := by
  have hword : " pylint: disable=".toList ++ t =
      [' '] ++ ("pylint:".toList ++ ' ' :: ("disable=".toList ++ t)) := rfl
  have hother : "dj-lint:".toList.isPrefixOf?
      (trim ([' '] ++ ("pylint:".toList ++ ' ' :: ("disable=".toList ++ t)))) = none := by
    rw [trim_append_left (by decide), trim_word_append (by decide) (by decide)]
    rfl
  rw [ofComment?, hword, hother, isPrefixOf?_trim (by decide) (by decide) (by decide)]
  rfl

theorem ofLine?_append {before : List Char} (h : '#' ∉ before) (s : List Char) :
    ofLine? (before ++ s) = ofLine? s := by
  induction before with
  | nil => rfl
  | cons c before ih =>
    rw [List.mem_cons, not_or] at h
    rw [List.cons_append, ofLine?_cons_of_ne (Ne.symm h.1), ih h.2]

theorem ofLine?_of_not_mem (h : '#' ∉ s) : ofLine? s = none := by
  rw [← List.append_nil s, ofLine?_append h]
  rfl

end Directive

namespace WrittenDirective

variable (w : WrittenDirective)

/-- A written directive is read as it is meant. -/
theorem ofLine?_text : Directive.ofLine? w.text = some w.directive := by
  have hbracket : ')' ∉ w.list :=
    w.not_mem_list (by decide) fun item hm => (w.items_clean item hm).2.1
  have hhash : '#' ∉ w.list :=
    w.not_mem_list (by decide) fun item hm => (w.items_clean item hm).2.2
  have hmake : ∀ reason, Directive.make? (w.names.map lower) reason =
      some { rules := w.names.map lower, reason } := by
    intro reason
    simp [Directive.make?, w.names_ne_nil]
  have hcomment : Directive.ofComment? (w.form.opening ++ (w.list ++ w.form.closing)) =
      some w.directive := by
    rw [directive]
    cases w.form with
    | allow blank hblank =>
      refine (Directive.ofComment?_allow _).trans ?_
      rw [DirectiveForm.closing, Directive.allow?_written hbracket, commaList_list, hmake,
        Directive.reason?_of_allBlank hblank]
      rfl
    | because gap reason blank hgap hreason hblank =>
      refine (Directive.ofComment?_allow _).trans ?_
      refine (Directive.allow?_written hbracket).trans ?_
      rw [commaList_list, hmake, Directive.reason?_written hgap hreason]
      rfl
    | disable =>
      refine (Directive.ofComment?_disable _).trans ?_
      rw [DirectiveForm.closing, List.append_nil, Directive.disable?_written hhash,
        commaList_list, hmake]
      rfl
  rw [text, Directive.ofLine?_append w.before_noHash, Directive.ofLine?_hash, hcomment,
    Option.some_or]

/-- The directive is for the rule: it lists the rule, or all of them, up to case. -/
theorem allows_directive_iff (rule : List Char) :
    w.directive.allows rule = true ↔
      ∃ name ∈ w.names, sameLetters name rule = true ∨ sameLetters name "all".toList = true := by
  have hall : lower "all".toList = "all".toList := by decide
  simp only [Directive.allows, directive, Bool.or_eq_true, List.contains_iff_mem, List.mem_map,
    sameLetters, beq_iff_eq, hall]
  constructor
  · rintro (⟨name, hm, he⟩ | ⟨name, hm, he⟩)
    · exact ⟨name, hm, .inl he⟩
    · exact ⟨name, hm, .inr he⟩
  · rintro ⟨name, hm, he | he⟩
    · exact .inl ⟨name, hm, he⟩
    · exact .inr ⟨name, hm, he⟩

/-- The only hash of the content stands on the line of the directive, so that no other line has a
directive. -/
theorem directiveFor?_eq_some_iff_written {k m : Nat} {d : Directive}
    (hk : lineText? content k = some w.text)
    (honly : ∀ m line, lineText? content m = some line → '#' ∈ line → m = k) :
    directiveFor? content m rule = some d ↔
      m = k ∧ d = w.directive ∧ w.directive.allows rule = true := by
  rw [directiveFor?_eq_some_iff]
  constructor
  · rintro ⟨line, hline, hread, ha⟩
    have hhash : '#' ∈ line := by
      by_contra hn
      rw [Directive.ofLine?_of_not_mem hn] at hread
      cases hread
    obtain rfl := honly m line hline hhash
    rw [hk] at hline
    obtain rfl := Option.some.inj hline
    rw [ofLine?_text] at hread
    obtain rfl := Option.some.inj hread
    exact ⟨rfl, rfl, ha⟩
  · rintro ⟨rfl, rfl, ha⟩
    exact ⟨w.text, hk, w.ofLine?_text, ha⟩

end WrittenDirective

/-- A directive on the only line with a hash counts for this line and the next one, for exactly the
rules that it lists, and with the reason that it gives. -/
theorem allowance?_written (content rule : List Char) (k n : Nat) (w : WrittenDirective)
    (hk : lineText? content k = some w.text)
    (honly : ∀ m line, lineText? content m = some line → '#' ∈ line → m = k) :
    ((allowance? content n rule).isSome = true ↔
      (n = k ∨ n = k + 1) ∧
        ∃ name ∈ w.names, sameLetters name rule = true ∨ sameLetters name "all".toList = true) ∧
      ∀ d, allowance? content n rule = some d → d.reason = w.form.reason? := by
  constructor
  · rw [isSome_allowance?_iff, ← w.allows_directive_iff]
    constructor
    · rintro ⟨m, hm, h⟩
      obtain ⟨d, hd⟩ := Option.isSome_iff_exists.mp h
      obtain ⟨rfl, -, ha⟩ := (w.directiveFor?_eq_some_iff_written hk honly).mp hd
      exact ⟨by omega, ha⟩
    · rintro ⟨hn, ha⟩
      refine ⟨k, by omega, ?_⟩
      rw [(w.directiveFor?_eq_some_iff_written hk honly).mpr ⟨rfl, rfl, ha⟩]
      rfl
  · intro d hd
    rw [allowance?_eq, Option.or_eq_some_iff] at hd
    have hdirective : d = w.directive := by
      rcases hd with hd | ⟨-, hd⟩
      · exact ((w.directiveFor?_eq_some_iff_written hk honly).mp hd).2.1
      · exact ((w.directiveFor?_eq_some_iff_written hk honly).mp hd).2.1
    rw [hdirective]
    rfl

/-- A directive after some code, with loose blanks, an empty item and signs in its reason. -/
def looseDirective : WrittenDirective where
  before := "class Scan:  ".toList
  form := .because " ".toList "see (3), # 4".toList "\t".toList (by decide) (by decide) (by decide)
  items := [" No-PK ".toList, [], "dj004".toList]
  before_noHash := by decide
  items_clean := by decide
  named := by decide

/-- The directive on the second of two lines. -/
def looseContent : List Char :=
  "import scans\r\n".toList ++
    "class Scan:  # dj-lint: allow( No-PK ,,dj004) reason=\"see (3), # 4\"\t\r\n".toList

theorem lines_looseContent : lines looseContent = ["import scans".toList, looseDirective.text] := by
  decide +kernel

theorem allowance?_written_loose :
    lineText? looseContent 2 = some looseDirective.text ∧
      (allowance? looseContent 3 "nO-pK".toList).isSome = true ∧
      (allowance? looseContent 4 "nO-pK".toList).isSome = false := by
  have hk : lineText? looseContent 2 = some looseDirective.text := by
    rw [lineText?, lines_looseContent]
    rfl
  have honly : ∀ m line, lineText? looseContent m = some line → '#' ∈ line → m = 2 := by
    intro m line hline hhash
    rcases m with _ | _ | _ | m
    · cases hline
    · rw [lineText?, lines_looseContent] at hline
      obtain rfl := Option.some.inj hline
      revert hhash
      decide
    · rfl
    · rw [lineText?, lines_looseContent] at hline
      cases hline
  have h := fun n => (allowance?_written looseContent "nO-pK".toList 2 n looseDirective hk honly).1
  refine ⟨hk, (h 3).mpr ⟨.inr rfl, "No-PK".toList, by decide +kernel, ?_⟩, ?_⟩
  · exact .inl (by decide +kernel)
  · rw [Bool.eq_false_iff]
    intro h4
    have := ((h 4).mp h4).1
    omega

end TableLint.Report
