import Mathlib.Data.List.Forall2
import TableLint.Proofs.KeyLines
import TableLint.Proofs.Layout

/-!
References through a projection. Each argument of a projection renames an attribute of the key or
only selects one; of several new names for one attribute the last one counts. Below the separator
such a line adds the attributes of the renamed key that are not there yet, and the reference itself.
-/
namespace TableLint.Definition

open Text

variable {context : Context} {d : Declaration} {x y s table : List Char} {key : List (List Char)}

/-! ### Arguments -/

/-- The characters that no name in a projection has. -/
def isArgumentSign (c : Char) : Bool := [',', '"', '\'', '=', ')', '#', '\n'].contains c

/-- A name in a projection. -/
structure ArgumentName where
  text : List Char
  plain : text.all (!isArgumentSign ·) = true
  trimmed : trim text = text

/-- Blanks within a line. -/
structure Gap where
  text : List Char
  allBlank : AllBlank text
  inLine : '\n' ∉ text

inductive Quote where
  | single
  | double

def Quote.char : Quote → Char
  | .single => '\''
  | .double => '"'

/-- A name in quotes, with blanks before and after it. -/
structure QuotedName where
  before : Gap
  quote : Quote
  name : ArgumentName
  after : Gap

def QuotedName.text (n : QuotedName) : List Char :=
  n.before.text ++ n.quote.char :: (n.name.text ++ n.quote.char :: n.after.text)

/-- An argument of a projection: a new name for an attribute, or only an attribute. -/
inductive Argument where
  | rename (before : Gap) (new : ArgumentName) (after : Gap) (old : QuotedName)
  | select (name : QuotedName)

namespace Argument

def text : Argument → List Char
  | rename before new after old => before.text ++ (new.text ++ after.text) ++ '=' :: old.text
  | select name => name.text

/-- The attribute that is renamed, and its new name. -/
def rename? : Argument → Option (List Char × List Char)
  | rename _ new _ old => some (old.name.text, new.text)
  | select _ => none

end Argument

variable {arguments : List Argument}

/-- The arguments, separated by commas. -/
def argumentText (arguments : List Argument) : List Char :=
  [','].intercalate (arguments.map Argument.text)

/-- The projection of the table with these arguments. -/
def projection (table : List Char) (arguments : List Argument) : List Char :=
  table ++ (".proj(".toList ++ (argumentText arguments ++ [')']))

/-- The line that refers to the table through the projection. -/
def projectionLine (table : List Char) (arguments : List Argument) : List Char :=
  "->".toList ++ ([' '] ++ projection table arguments)

/-! ### Characters of arguments -/

theorem ArgumentName.not_mem_text (n : ArgumentName) {c : Char} (hc : isArgumentSign c = true) :
    c ∉ n.text := by
  intro hm
  have hp := List.all_eq_true.mp n.plain c hm
  simp [hc] at hp

theorem Gap.not_mem_text (g : Gap) {c : Char} (hc : isBlank c = false ∨ c = '\n') :
    c ∉ g.text := by
  rcases hc with hb | rfl
  · exact g.allBlank.not_mem hb
  · exact g.inLine

theorem Quote.isQuote_char (q : Quote) : isQuote q.char = true := by
  cases q <;> rfl

theorem Quote.isBlank_char (q : Quote) : isBlank q.char = false := by
  cases q <;> rfl

/-- A character that is a sign in arguments, but neither a quote nor the sign of a renaming. -/
structure IsOuterSign (c : Char) : Prop where
  sign : isArgumentSign c = true
  notQuote : isQuote c = false
  notEqual : c ≠ '='
  notBlank : isBlank c = false ∨ c = '\n'

theorem QuotedName.not_mem_text (n : QuotedName) {c : Char} (hc : isArgumentSign c = true)
    (hq : isQuote c = false) (hb : isBlank c = false ∨ c = '\n') : c ∉ n.text := by
  have hne : c ≠ n.quote.char := by
    rintro rfl
    rw [n.quote.isQuote_char] at hq
    cases hq
  simp [QuotedName.text, n.before.not_mem_text hb, n.after.not_mem_text hb,
    n.name.not_mem_text hc, hne]

/-- Such a character stands in no argument. -/
theorem Argument.not_mem_text (a : Argument) {c : Char} (h : IsOuterSign c) : c ∉ a.text := by
  cases a with
  | rename before new after old =>
    simp [Argument.text, before.not_mem_text h.notBlank, new.not_mem_text h.sign,
      after.not_mem_text h.notBlank, h.notEqual,
      old.not_mem_text h.sign h.notQuote h.notBlank]
  | select name => exact name.not_mem_text h.sign h.notQuote h.notBlank

theorem isOuterSign_comma : IsOuterSign ',' := ⟨by decide, by decide, by decide, .inl (by decide)⟩

theorem isOuterSign_hash : IsOuterSign '#' := ⟨by decide, by decide, by decide, .inl (by decide)⟩

theorem isOuterSign_newline : IsOuterSign '\n' := ⟨by decide, by decide, by decide, .inr rfl⟩

theorem splitAt_argumentText (h : arguments ≠ []) :
    splitAt ',' (argumentText arguments) = arguments.map Argument.text := by
  apply splitAt_intercalate
  · intro piece hp
    obtain ⟨a, -, rfl⟩ := List.mem_map.mp hp
    exact a.not_mem_text isOuterSign_comma
  · simpa using h

theorem not_mem_argumentText (arguments : List Argument) {c : Char} (h : IsOuterSign c)
    (hc : c ≠ ',') : c ∉ argumentText arguments := by
  intro hm
  cases arguments with
  | nil => cases hm
  | cons a rest =>
    obtain ⟨piece, hp, hcp⟩ := mem_splitAt hm hc
    rw [splitAt_argumentText (by simp)] at hp
    obtain ⟨b, -, rfl⟩ := List.mem_map.mp hp
    exact b.not_mem_text h hcp

/-! ### Reading the arguments -/

theorem unquote?_quoted (q : Quote) (s : List Char) :
    unquote? (q.char :: (s ++ [q.char])) = some s := by
  simp [unquote?, q.isQuote_char]

theorem QuotedName.trim_text (n : QuotedName) :
    trim n.text = n.quote.char :: (n.name.text ++ [n.quote.char]) := by
  have htext : n.text =
      n.before.text ++ (n.quote.char :: (n.name.text ++ [n.quote.char]) ++ n.after.text) := by
    simp [QuotedName.text]
  rw [htext]
  exact trim_blank_append_trimmed n.before.allBlank
    (trim_cons_concat n.quote.isBlank_char n.quote.isBlank_char _) n.after.allBlank

theorem QuotedName.unquote?_trim_text (n : QuotedName) :
    unquote? (trim n.text) = some n.name.text := by
  rw [n.trim_text, unquote?_quoted]

/-- The sign of a renaming stands between the new name and the attribute. -/
theorem addArgument_of_sign (renames : Renames) (hx : '=' ∉ x) (y : List Char) :
    addArgument renames (trim (x ++ '=' :: y)) =
      (unquote? (trim y)).map fun old => (old, trim x) :: renames := by
  have hs : '=' ∉ trimStart x := fun hm => hx ((List.dropWhile_suffix _).subset hm)
  obtain ⟨htake, hdrop⟩ := span_append_cons hs (trimEnd y)
  rw [trim_append_cons (by decide), addArgument, htake, hdrop]
  simp only [trim_trimStart, trim_trimEnd]

theorem addArgument_of_noSign (renames : Renames) (hs : '=' ∉ s) :
    addArgument renames s = (unquote? s).map fun _ => renames := by
  have hdrop : s.dropWhile (· != '=') = [] :=
    List.dropWhile_eq_nil_iff.mpr (bne_of_not_mem hs)
  rw [addArgument, hdrop]

theorem addArgument_text (renames : Renames) (a : Argument) :
    addArgument renames (trim a.text) = some (a.rename?.toList ++ renames) := by
  cases a with
  | rename before new after old =>
    have hsign : '=' ∉ before.text ++ (new.text ++ after.text) := by
      simp [before.not_mem_text (.inl (by decide : isBlank '=' = false)),
        new.not_mem_text (by decide : isArgumentSign '=' = true),
        after.not_mem_text (.inl (by decide : isBlank '=' = false))]
    rw [Argument.text, addArgument_of_sign renames hsign, old.unquote?_trim_text,
      trim_blank_append_trimmed before.allBlank new.trimmed after.allBlank]
    rfl
  | select name =>
    have hsign : '=' ∉ trim name.text := fun hm =>
      name.not_mem_text (by decide) (by decide) (.inl (by decide)) ((trim_isInfix _).subset hm)
    rw [Argument.text, addArgument_of_noSign renames hsign, name.unquote?_trim_text]
    rfl

theorem Argument.trim_text_ne_nil (a : Argument) : trim a.text ≠ [] := by
  intro h
  have hn := addArgument_text [] a
  rw [h] at hn
  cases hn

theorem commaList_argumentText (arguments : List Argument) :
    commaList trim (argumentText arguments) = arguments.map (trim ·.text) := by
  cases arguments with
  | nil => rfl
  | cons a rest =>
    rw [commaList, splitAt_argumentText (by simp), List.map_map, List.filter_eq_self.mpr]
    · rfl
    · intro piece hp
      obtain ⟨b, -, rfl⟩ := List.mem_map.mp hp
      simpa using b.trim_text_ne_nil

/-- The renamings of the arguments, the latest first. -/
def renamesOf (arguments : List Argument) : Renames :=
  (arguments.filterMap Argument.rename?).reverse

theorem foldlM_addArgument (renames : Renames) (arguments : List Argument) :
    (arguments.map (trim ·.text)).foldlM addArgument renames =
      some (renamesOf arguments ++ renames) := by
  induction arguments generalizing renames with
  | nil => rfl
  | cons a rest ih =>
    rw [List.map_cons, List.foldlM_cons, addArgument_text]
    refine (ih _).trans ?_
    rw [renamesOf, renamesOf, List.filterMap_cons]
    cases a.rename? <;> simp

theorem projectionRenames_argumentText (arguments : List Argument) :
    projectionRenames (argumentText arguments) = some (renamesOf arguments) := by
  rw [projectionRenames, commaList_argumentText, foldlM_addArgument, List.append_nil]

/-! ### The last renaming counts -/

/-- What an attribute is called after the arguments: by the new name of the last one that renames
it, and by its own name if none does. -/
inductive Renamed (arguments : List Argument) (name : List Char) : List Char → Prop where
  | last (before after : List Argument) (a : Argument) (new : List Char)
      (hs : arguments = before ++ a :: after) (ha : a.rename? = some (name, new))
      (hl : ∀ b ∈ after, ∀ other, b.rename? ≠ some (name, other)) : Renamed arguments name new
  | kept (hn : ∀ b ∈ arguments, ∀ other, b.rename? ≠ some (name, other)) :
      Renamed arguments name name

/-- An argument that does not rename the attribute changes nothing for it. -/
theorem Renamed.concat {name new : List Char} {a : Argument} (h : Renamed arguments name new)
    (ha : ∀ other, a.rename? ≠ some (name, other)) : Renamed (arguments ++ [a]) name new := by
  cases h with
  | last before after b new hs hb hl =>
    refine .last before (after ++ [a]) b new (by simp [hs]) hb ?_
    intro c hc
    rcases List.mem_append.mp hc with hm | hm
    · exact hl c hm
    · obtain rfl := List.mem_singleton.mp hm
      exact ha
  | kept hn =>
    refine .kept ?_
    intro c hc
    rcases List.mem_append.mp hc with hm | hm
    · exact hn c hm
    · obtain rfl := List.mem_singleton.mp hm
      exact ha

theorem renamesOf_concat (arguments : List Argument) (a : Argument) :
    renamesOf (arguments ++ [a]) = a.rename?.toList ++ renamesOf arguments := by
  rw [renamesOf, renamesOf, List.filterMap_append, List.reverse_append]
  cases ha : a.rename? <;> simp [ha]

/-- The name that the renamings give to an attribute. -/
def newName (arguments : List Argument) (name : List Char) : List Char :=
  ((renamesOf arguments).lookup name).getD name

theorem lookup_renamesOf_concat_of_ne {a : Argument} {name : List Char}
    (ha : ∀ other, a.rename? ≠ some (name, other)) (arguments : List Argument) :
    (renamesOf (arguments ++ [a])).lookup name = (renamesOf arguments).lookup name := by
  rw [renamesOf_concat]
  cases hr : a.rename? with
  | none => rfl
  | some pair =>
    obtain ⟨old, new⟩ := pair
    have hne : (name == old) = false := by
      rw [beq_eq_false_iff_ne]
      rintro rfl
      exact ha new hr
    rw [Option.toList_some, List.singleton_append, List.lookup_cons, hne]

theorem renamed_newName (arguments : List Argument) (name : List Char) :
    Renamed arguments name (newName arguments name) := by
  -- The list of renamings starts with the last argument, so the induction goes from the end.
  induction arguments using List.reverseRecOn with
  | nil => exact .kept (by simp)
  | append_singleton rest a ih =>
    by_cases ha : ∃ new, a.rename? = some (name, new)
    · obtain ⟨new, hr⟩ := ha
      have hnew : newName (rest ++ [a]) name = new := by
        rw [newName, renamesOf_concat, hr]
        simp
      rw [hnew]
      exact .last rest [] a new rfl hr (by simp)
    · have hne : ∀ other, a.rename? ≠ some (name, other) := not_exists.mp ha
      rw [newName, lookup_renamesOf_concat_of_ne hne]
      exact ih.concat hne

/-- The argument renames one of the attributes. -/
def Argument.renamesAmong (key : List (List Char)) (a : Argument) : Bool :=
  a.rename?.any fun pair => key.contains pair.1

/-- For an attribute of the key only the arguments count that rename one. -/
theorem newName_filter {name : List Char} (h : name ∈ key) (arguments : List Argument) :
    newName (arguments.filter (·.renamesAmong key)) name = newName arguments name := by
  rw [newName, newName]
  congr 1
  induction arguments using List.reverseRecOn with
  | nil => rfl
  | append_singleton rest a ih =>
    rw [List.filter_append]
    by_cases ha : a.renamesAmong key = true
    · rw [List.filter_cons_of_pos ha, List.filter_nil, renamesOf_concat, renamesOf_concat,
        List.lookup_append, List.lookup_append, ih]
    · have hne : ∀ other, a.rename? ≠ some (name, other) := by
        intro other hr
        apply ha
        simp [Argument.renamesAmong, hr, h]
      rw [List.filter_cons_of_neg ha, List.filter_nil, List.append_nil, ih,
        lookup_renamesOf_concat_of_ne hne]

/-! ### Reading the line -/

theorem not_mem_projection (ht : isTableName table = true) (arguments : List Argument) {c : Char}
    (h : IsOuterSign c) (hc : c ≠ ',' ∧ c ≠ ')' ∧ c ∉ ".proj(".toList)
    (hn : isTableChar c = false) : c ∉ projection table arguments := by
  simp only [projection, List.mem_append, List.mem_singleton, not_or]
  exact ⟨not_mem_name ht hn, hc.2.2, not_mem_argumentText arguments h hc.1, hc.2.1⟩

theorem trim_projection (ht : isTableName table = true) (arguments : List Argument) :
    trim (projection table arguments) = projection table arguments := by
  obtain ⟨c, t, rfl⟩ := List.exists_cons_of_ne_nil (ne_nil_of_isTableName ht)
  have hc : isBlank c = false := isBlank_of_mem_name ht List.mem_cons_self
  have h := trim_cons_concat hc (by decide : isBlank ')' = false)
    (t ++ (".proj(".toList ++ argumentText arguments))
  simpa [projection] using h

theorem trim_projectionLine (table : List Char) (arguments : List Argument) :
    trim (projectionLine table arguments) = projectionLine table arguments := by
  have h := trim_cons_concat (by decide : isBlank '-' = false) (by decide : isBlank ')' = false)
    ('>' :: ' ' :: (table ++ (".proj(".toList ++ argumentText arguments)))
  simpa [projectionLine, projection] using h

theorem newline_not_mem_projectionLine (ht : isTableName table = true)
    (arguments : List Argument) : '\n' ∉ projectionLine table arguments := by
  have hp := not_mem_projection ht arguments isOuterSign_newline (by decide) (by decide +kernel)
  simp [projectionLine, hp]

/-- The projection names the table, and its arguments rename the key. -/
theorem resolveReference_projection (ht : isTableName table = true)
    (hk : context.primaryKey? table = some key) (arguments : List Argument) :
    resolveReference context ([' '] ++ projection table arguments) =
      some (table, key.map (newName arguments)) := by
  have hhash : '#' ∉ [' '] ++ projection table arguments := by
    simp [not_mem_projection ht arguments isOuterSign_hash (by decide) (by decide +kernel)]
  have hexpression : withoutComment ([' '] ++ projection table arguments) =
      projection table arguments := by
    rw [withoutComment_of_not_mem hhash, trim_append_left (by decide), trim_projection ht]
  have hnames : Names (withoutComment ([' '] ++ projection table arguments)) table
      (renamesOf arguments) := by
    rw [hexpression]
    exact .projection table _ _ ht (projectionRenames_argumentText arguments)
  rw [resolveReference, readReference_of_names hnames]
  simp only [hk, Option.map_some]
  rfl

/-- The reference that such a line declares below the separator. -/
def projectedKey (table : List Char) (key : List (List Char)) (arguments : List Argument) :
    ForeignKey where
  table := table
  attributes := key.map (newName arguments)
  nullable := false
  unique := false

theorem parse_projectionLine (ht : isTableName table = true) (arguments : List Argument) :
    ReferenceLine.parse (projectionLine table arguments) =
      .ok { options := [], reference := [' '] ++ projection table arguments } :=
  ReferenceLine.parse_of_noOptions (ReferenceLine.takeOptions?_of_name (by decide) ht _)

theorem compileReference_projectionLine (ht : isTableName table = true)
    (hk : context.primaryKey? table = some key) (arguments : List Argument) :
    compileReference context false (projectionLine table arguments) =
      .ok (projectedKey table key arguments) := by
  rw [compileReference, parse_projectionLine ht]
  simp only [bind, Except.bind, resolveReference_projection ht hk]
  rfl

/-! ### What the line adds -/

/-- The declaration with a reference below the key. The attributes of the reference that are not
there yet come last, each once and in their order; the key and all else stay. -/
def Declaration.extendedBy (d : Declaration) (key : ForeignKey) : Declaration :=
  { d with
    attributes := d.attributes ++ ((key.attributes.filter (· ∉ d.names)).eraseDups.map
      fun name => { name, nullable := key.nullable })
    foreignKeys := d.foreignKeys ++ [key] }

theorem Declaration.addAttribute_of_mem {a : Attribute} (h : a.name ∈ d.names) :
    d.addAttribute false a = d := by
  simp only [addAttribute, (d.any_name_iff a.name).mpr h, if_true, Bool.false_eq_true, if_false]

theorem Declaration.addAttribute_of_not_mem {a : Attribute} (h : a.name ∉ d.names) :
    d.addAttribute false a = { d with attributes := d.attributes ++ [a] } := by
  rw [← any_name_iff] at h
  simp only [addAttribute, h, Bool.false_eq_true, if_false]

theorem Declaration.foldl_addAttribute_below (d : Declaration) (names : List (List Char))
    (nullable : Bool) :
    (names.map fun name => ({ name, nullable } : Attribute)).foldl (addAttribute false) d =
      { d with
        attributes := d.attributes ++ ((names.filter (· ∉ d.names)).eraseDups.map
          fun name => { name, nullable }) } := by
  induction names generalizing d with
  | nil => simp
  | cons name rest ih =>
    rw [List.map_cons, List.foldl_cons, ih]
    by_cases h : name ∈ d.names
    · rw [addAttribute_of_mem h, List.filter_cons_of_neg (by simpa using h)]
    · -- From here on the new name is one of those that are there.
      have hnames : Declaration.names { d with
          attributes := d.attributes ++ [({ name, nullable } : Attribute)] } =
            d.names ++ [name] := by
        simp [names]
      have hfilter : rest.filter (· ∉ d.names ++ [name]) =
          (rest.filter (· ∉ d.names)).filter (fun other => !other == name) := by
        rw [List.filter_filter]
        congr 1
        funext other
        rw [Bool.eq_iff_iff]
        simp [and_comm]
      rw [addAttribute_of_not_mem h, hnames, hfilter, List.filter_cons_of_pos (by simpa using h),
        List.eraseDups_cons]
      simp

theorem Declaration.addReference_below (d : Declaration) (key : ForeignKey) :
    d.addReference false key = d.extendedBy key := by
  rw [addReference, ForeignKey.inherited, foldl_addAttribute_below]
  rfl

theorem addLine_projectionLine (ht : isTableName table = true)
    (hk : context.primaryKey? table = some key) (arguments : List Argument) (d : Declaration) :
    addLine context false d (projectionLine table arguments) =
      .ok (d.extendedBy (projectedKey table key arguments)) := by
  rw [addLine, lineKind_of_parse (parse_projectionLine ht arguments)]
  simp only [bind, Except.bind, compileReference_projectionLine ht hk]
  rw [← Declaration.addReference_below]
  rfl

/-- Some line of the text is a separator. -/
def HasSeparator (text : List Char) : Prop :=
  ∃ line ∈ splitLines text, "---".toList <+: line ∨ "___".toList <+: line

instance (text : List Char) : Decidable (HasSeparator text) :=
  inferInstanceAs (Decidable (∃ line ∈ splitLines text, _))

theorem HasSeparator.not_allBlank {above : List Char} (h : HasSeparator above) :
    ¬AllBlank above := by
  obtain ⟨line, hm, hp⟩ := h
  intro hb
  have hsub := (isInfix_of_mem_splitLines hm).subset
  rcases hp with hp | hp
  · exact hb.not_mem (by decide : isBlank '-' = false) (hsub (hp.subset (by decide)))
  · exact hb.not_mem (by decide : isBlank '_' = false) (hsub (hp.subset (by decide)))

/-- Below a separator a text is read on outside of the key. -/
theorem HasSeparator.declare_below {above : List Char} (h : HasSeparator above)
    (hd : declare context above = .ok d) (further : List Char) :
    declare context (above ++ '\n' :: further) =
      addLines context false d ((splitAt '\n' further).map trim) := by
  have hall : (splitLines above).all (lineKind · != .separator) = false := by
    obtain ⟨line, hm, hp⟩ := h
    rw [List.all_eq_false]
    exact ⟨line, hm, by simp [lineKind_eq_separator_iff.mpr hp]⟩
  rw [Definition.declare_below context h.not_allBlank, hd, hall]
  rfl

/-- A reference through a projection, below the separator, adds a reference whose attributes are
those of the key of the table, each renamed by the last argument that renames it. They are added to
the attributes of the declaration as far as they are new; nothing else changes, and reading goes on
below. Arguments that rename no attribute of the key make no difference. -/
theorem declare_projectionLine (context : Context) (table : List Char) (key : List (List Char))
    (arguments : List Argument) (above : List Char) (d : Declaration)
    (ht : isTableName table = true) (hk : context.primaryKey? table = some key)
    (hs : HasSeparator above) (hd : declare context above = .ok d) :
    (∃ attributes, List.Forall₂ (Renamed arguments) key attributes ∧
      declare context (above ++ '\n' :: projectionLine table arguments) =
        .ok (d.extendedBy ⟨table, attributes, false, false⟩) ∧
      ∀ below,
        declare context (above ++ '\n' :: (projectionLine table arguments ++ '\n' :: below)) =
          addLines context false (d.extendedBy ⟨table, attributes, false, false⟩)
            ((splitAt '\n' below).map trim)) ∧
      declare context (above ++ '\n' :: projectionLine table arguments) =
        declare context (above ++ '\n' ::
          projectionLine table (arguments.filter (·.renamesAmong key))) := by
  have hline : ∀ others : List Argument, (splitAt '\n' (projectionLine table others)).map trim =
      [projectionLine table others] := by
    intro others
    rw [splitAt_of_not_mem (newline_not_mem_projectionLine ht others), List.map_singleton,
      trim_projectionLine]
  have hadd : ∀ (others : List Argument) (lines : List (List Char)),
      addLines context false d (projectionLine table others :: lines) =
        addLines context false (d.extendedBy (projectedKey table key others)) lines := by
    intro others lines
    rw [addLines, addLine_projectionLine ht hk]
    rfl
  refine ⟨⟨key.map (newName arguments), ?_, ?_, ?_⟩, ?_⟩
  · rw [List.forall₂_map_right_iff, List.forall₂_same]
    exact fun name _ => renamed_newName arguments name
  · rw [hs.declare_below hd, hline, hadd]
    rfl
  · intro below
    rw [hs.declare_below hd, splitAt_append_cons, List.map_append, hline, List.singleton_append,
      hadd]
    rfl
  · have hkeys : projectedKey table key (arguments.filter (·.renamesAmong key)) =
        projectedKey table key arguments := by
      rw [projectedKey, projectedKey]
      rw [List.map_congr_left fun name hm => newName_filter hm arguments]
    rw [hs.declare_below hd, hs.declare_below hd, hline, hline, hadd, hadd, hkeys]

/-! ### Several names for one attribute -/

/-- Blanks of any number. -/
def spaces (n : Nat) : Gap where
  text := List.replicate n ' '
  allBlank := by
    intro c hc
    rw [List.eq_of_mem_replicate hc]
    rfl
  inLine := by
    intro hc
    have he := List.eq_of_mem_replicate hc
    cases he

def cellName : ArgumentName := ⟨"cell_id".toList, by decide, by decide⟩

def preName : ArgumentName := ⟨"pre".toList, by decide, by decide⟩

def sessionName : ArgumentName := ⟨"session".toList, by decide, by decide⟩

/-- An attribute is renamed twice, the second time like another attribute of the key. -/
def cellArguments : List Argument :=
  [.rename (spaces 0) preName (spaces 0) ⟨spaces 0, .double, cellName, spaces 0⟩,
    .select ⟨spaces 1, .single, sessionName, spaces 0⟩,
    .rename (spaces 1) sessionName (spaces 1) ⟨spaces 1, .single, cellName, spaces 0⟩]

def cellContext : Context :=
  ({} : Context).withTable "lab.Neuron".toList ["cell_id".toList, "session".toList]

def cellText : List Char := "id : int\n---".toList

def cellDeclaration : Declaration where
  primaryKey := ["id".toList]
  attributes :=
    [{ name := "id".toList, type := "int".toList, category := some .integer, nullable := false }]

theorem declare_projectionLine_cell :
    projectionLine "lab.Neuron".toList cellArguments =
        "-> lab.Neuron.proj(pre=\"cell_id\", 'session', session = 'cell_id')".toList ∧
      HasSeparator cellText ∧ declare cellContext cellText = .ok cellDeclaration ∧
      List.Forall₂ (Renamed cellArguments) ["cell_id".toList, "session".toList]
        ["session".toList, "session".toList] ∧
      declare cellContext (cellText ++ '\n' :: projectionLine "lab.Neuron".toList cellArguments) =
        .ok (cellDeclaration.extendedBy
          ⟨"lab.Neuron".toList, ["session".toList, "session".toList], false, false⟩) := by
  have hs : HasSeparator cellText := by decide +kernel
  have hd : declare cellContext cellText = .ok cellDeclaration := by decide +kernel
  have he : declare cellContext
      (cellText ++ '\n' :: projectionLine "lab.Neuron".toList cellArguments) =
        .ok (cellDeclaration.extendedBy
          ⟨"lab.Neuron".toList, ["session".toList, "session".toList], false, false⟩) := by
    decide +kernel
  obtain ⟨⟨attributes, hr, ha, -⟩, -⟩ := declare_projectionLine cellContext "lab.Neuron".toList
    ["cell_id".toList, "session".toList] cellArguments cellText cellDeclaration
    (by decide +kernel) (by decide) hs hd
  have hkeys := congrArg Declaration.foreignKeys (Except.ok.inj (ha.symm.trans he))
  obtain rfl := (ForeignKey.mk.inj (List.singleton_inj.mp hkeys)).2.1
  exact ⟨by decide, hs, hd, hr, ha⟩

end TableLint.Definition
