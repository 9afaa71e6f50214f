import TableLint.Proofs.TypePatterns

/-!
The category of a type. No word of one category is the start of a word of another, except where the
shorter one has to end the type, so a type has the pattern of one category at most and the order in
which the categories are tried does not matter. An integer type is told by its start alone: whatever
follows an integer word is accepted with it.
-/
namespace TableLint.Definition

open Text

variable {category other : Category} {type more : List Char}

/-! ### Categories do not overlap -/

namespace Category

theorem mem_all (category : Category) : category ∈ all := by
  cases category <;> decide

/-- A word that is the start of a word of another category has nothing after it. -/
theorem forms_apart : ∀ category ∈ all, ∀ other ∈ all, category ≠ other →
    ∀ form ∈ category.forms, ∀ form' ∈ other.forms, form.1.toList <+: form'.1.toList →
      form.2 = .nothing ∧ form.1.toList ≠ form'.1.toList := by
  decide +kernel

theorem isPrefix_of_afterWord? {word rest : List Char} (h : afterWord? word type = some rest) :
    word <+: type.map foldCase := by
  obtain ⟨front, rfl, rfl⟩ := afterWord?_eq_some_iff.mp h
  rw [List.map_append]
  exact List.prefix_append _ _

theorem not_isPrefix_of_forms {form form' : String × Tail} {rest rest' : List Char}
    (hne : category ≠ other) (hf : form ∈ category.forms) (hf' : form' ∈ other.forms)
    (ha : afterWord? form.1.toList type = some rest) (hh : form.2.holds rest = true)
    (ha' : afterWord? form'.1.toList type = some rest') :
    ¬form.1.toList <+: form'.1.toList := by
  intro hp
  obtain ⟨htail, hword⟩ := forms_apart category category.mem_all other other.mem_all hne form hf
    form' hf' hp
  -- The shorter word is all of the type, so the longer one has no room in it.
  obtain rfl : rest = [] := by simpa [htail, Tail.holds] using hh
  obtain ⟨front, rfl, hmap⟩ := afterWord?_eq_some_iff.mp ha
  have hp' := isPrefix_of_afterWord? ha'
  rw [List.append_nil, hmap] at hp'
  exact hword (hp.eq_of_length_le hp'.length_le)

theorem eq_of_covers (h : category.covers type = true) (h' : other.covers type = true) :
    category = other := by
  by_contra hne
  obtain ⟨form, hf, rest, ha, hh⟩ := covers_iff.mp h
  obtain ⟨form', hf', rest', ha', hh'⟩ := covers_iff.mp h'
  rcases List.prefix_or_prefix_of_prefix (isPrefix_of_afterWord? ha) (isPrefix_of_afterWord? ha')
    with hp | hp
  · exact not_isPrefix_of_forms hne hf hf' ha hh ha' hp
  · exact not_isPrefix_of_forms (Ne.symm hne) hf' hf ha' hh' ha hp

/-- The category of a type when the categories are tried in the given order. -/
def firstIn (order : List Category) (type : List Char) : Option Category :=
  order.find? (·.covers type)

theorem firstIn_eq_some_iff {order : List Category} (h : category ∈ order) :
    firstIn order type = some category ↔ category.covers type = true := by
  constructor
  · intro hf
    simpa using List.find?_some hf
  · intro hc
    cases hf : firstIn order type with
    | none =>
      have hn := List.find?_eq_none.mp hf category h
      exact absurd hc hn
    | some found =>
      have hfound : found.covers type = true := by simpa using List.find?_some hf
      rw [eq_of_covers hfound hc]

theorem of?_eq_some_iff : of? type = some category ↔ category.covers type = true :=
  firstIn_eq_some_iff category.mem_all

/-- A type has the pattern of one category at most. So in whatever order the categories are tried,
the category that is found is the one whose pattern the type has, and none is found exactly if there
is no such category. -/
theorem firstIn_of_perm (type : List Char) (order : List Category) (h : order.Perm all) :
    (∀ category other : Category, category.pattern.Matches type → other.pattern.Matches type →
        category = other) ∧
      firstIn order type = of? type ∧
      ∀ category, firstIn order type = some category ↔ category.pattern.Matches type := by
  have hfirst : ∀ category, firstIn order type = some category ↔ category.covers type = true :=
    fun category => firstIn_eq_some_iff (h.mem_iff.mpr category.mem_all)
  refine ⟨?_, ?_, ?_⟩
  · intro category other hc ho
    rw [← covers_iff_matches] at hc ho
    exact eq_of_covers hc ho
  · apply Option.ext
    intro category
    rw [hfirst, of?_eq_some_iff]
  · intro category
    rw [hfirst, covers_iff_matches]

/-- The categories backwards, and a type that starts with a word of another category. -/
theorem firstIn_of_perm_reverse :
    all.reverse.Perm all ∧ firstIn all.reverse "BLOB@raw".toList = some .externalBlob ∧
      ¬internalBlob.pattern.Matches "BLOB@raw".toList := by
  have hperm : all.reverse.Perm all := List.reverse_perm all
  obtain ⟨hone, -, hfirst⟩ := firstIn_of_perm "BLOB@raw".toList all.reverse hperm
  have hext : firstIn all.reverse "BLOB@raw".toList = some .externalBlob := by decide +kernel
  refine ⟨hperm, hext, fun hint => ?_⟩
  exact absurd (hone _ _ hint ((hfirst _).mp hext)) (by decide)

end Category

/-! ### Integer types -/

/-- The pattern can read all of the text. -/
def TypePattern.ReadsAll (p : TypePattern) (s : List Char) : Prop := [] ∈ p.rests s

instance (p : TypePattern) (s : List Char) : Decidable (p.ReadsAll s) :=
  inferInstanceAs (Decidable ([] ∈ p.rests s))

/-- Only the start of the type counts, except for `serial`. -/
theorem covers_integer_iff_start :
    Category.integer.covers type = true ↔
      TypePattern.integerWord.Matches type ∨ type.map foldCase = "serial".toList := by
  rw [covers_integer_iff, Category.pattern, TypePattern.matches_either_iff]
  apply or_congr
  · rw [TypePattern.matches_seq_iff]
    constructor
    · rintro ⟨middle, hm, -⟩
      exact ⟨middle, hm⟩
    · rintro ⟨middle, hm⟩
      exact ⟨middle, hm, (Tail.holds_iff .anything middle).mp rfl⟩
  · rw [TypePattern.matches_seq_stop_iff, TypePattern.mem_rests_word rfl]
    simp

theorem integerWord_matches_append (h : TypePattern.integerWord.Matches type) :
    TypePattern.integerWord.Matches (type ++ more) := by
  obtain ⟨rest, hr⟩ := h
  rw [TypePattern.mem_rests_integerWord, TypePattern.mem_rests_words] at hr
  obtain ⟨w, hw, ha⟩ := hr
  obtain ⟨front, rfl, hf⟩ := afterWord?_eq_some_iff.mp ha
  refine ⟨rest ++ more, ?_⟩
  rw [TypePattern.mem_rests_integerWord, TypePattern.mem_rests_words]
  exact ⟨w, hw, afterWord?_eq_some_iff.mpr ⟨front, List.append_assoc _ _ _, hf⟩⟩

/-- No other word is the start of `serial`, or starts with it. -/
theorem forms_serial : ∀ category ∈ Category.all, ∀ form ∈ category.forms,
    form.1.toList <+: "serial".toList ∨ "serial".toList <+: form.1.toList →
      form.2 = .nothing ∧ form.1.toList = "serial".toList := by
  decide +kernel

theorem covers_serial_append (hs : type.map foldCase = "serial".toList) (hm : more ≠ []) :
    category.covers (type ++ more) = false := by
  rw [Bool.eq_false_iff]
  intro hc
  obtain ⟨form, hf, rest, ha, hh⟩ := covers_iff.mp hc
  have hserial : "serial".toList <+: (type ++ more).map foldCase := by
    rw [List.map_append, hs]
    exact List.prefix_append _ _
  obtain ⟨htail, hword⟩ := forms_serial category category.mem_all form hf
    (List.prefix_or_prefix_of_prefix (Category.isPrefix_of_afterWord? ha) hserial)
  obtain rfl : rest = [] := by simpa [htail, Tail.holds] using hh
  -- All of the text is the word, which leaves no room for more.
  obtain ⟨front, he, hmap⟩ := afterWord?_eq_some_iff.mp ha
  have hlen := congrArg List.length (hmap.trans (hword.trans hs.symm))
  rw [List.append_nil] at he
  rw [← he, List.length_map, List.length_map, List.length_append] at hlen
  exact hm (List.length_eq_zero_iff.mp (by omega))

/-- A type is an integer type exactly if it starts with an integer word or is `serial`. All types
that the pattern of the integers reads to the end are among them, but so is every text that begins
with an integer word, whatever follows. Nothing may follow `serial`, and the patterns of the other
categories read a type to its end. -/
theorem of?_integer_iff_start (type : List Char) :
    (Category.of? type = some .integer ↔
        TypePattern.integerWord.Matches type ∨ type.map foldCase = "serial".toList) ∧
      (Category.integer.pattern.ReadsAll type → Category.of? type = some .integer) ∧
      (TypePattern.integerWord.Matches type →
        ∀ more, Category.of? (type ++ more) = some .integer) ∧
      (type.map foldCase = "serial".toList →
        ∀ more, more ≠ [] → Category.of? (type ++ more) = none) ∧
      ∀ category, category ≠ .integer → Category.of? type = some category →
        category.pattern.ReadsAll type ∧ ∀ rest ∈ category.pattern.rests type, rest = [] := by
  refine ⟨?_, ?_, ?_, ?_, ?_⟩
  · rw [Category.of?_eq_some_iff, covers_integer_iff_start]
  · intro h
    rw [Category.of?_eq_some_iff, covers_iff_matches]
    exact ⟨[], h⟩
  · intro h more
    rw [Category.of?_eq_some_iff, covers_integer_iff_start]
    exact .inl (integerWord_matches_append h)
  · intro h more hm
    rw [Option.eq_none_iff_forall_ne_some]
    intro category hc
    rw [Category.of?_eq_some_iff, covers_serial_append h hm] at hc
    cases hc
  · intro category hne hc
    rw [Category.of?_eq_some_iff, covers_iff_matches] at hc
    obtain ⟨rest, hr⟩ := hc
    have hclosed : ∀ rest ∈ category.pattern.rests type, rest = [] := closed_pattern hne type
    refine ⟨?_, hclosed⟩
    rw [TypePattern.ReadsAll, ← hclosed rest hr]
    exact hr

theorem of?_integer_iff_start_samples :
    Category.of? "int(11) unsigned or so".toList = some .integer ∧
      Category.of? "SERIALS".toList = none ∧
      (Category.of? "varchar(60)".toList = some .string ∧
        Category.string.pattern.ReadsAll "varchar(60)".toList) := by
  have hall : Category.integer.pattern.ReadsAll "int(11) unsigned".toList := by decide +kernel
  obtain ⟨hiff, hread, hmore, -, -⟩ := of?_integer_iff_start "int(11) unsigned".toList
  obtain ⟨-, -, -, hserial, -⟩ := of?_integer_iff_start "SERIAL".toList
  obtain ⟨-, -, -, -, hother⟩ := of?_integer_iff_start "varchar(60)".toList
  have hstring : Category.of? "varchar(60)".toList = some .string := by decide +kernel
  refine ⟨?_, ?_, hstring, (hother .string (by decide) hstring).1⟩
  · have hword := (hiff.mp (hread hall)).resolve_right (by decide)
    exact hmore hword " or so".toList
  · exact hserial (by decide) "S".toList (by decide)

/-- The declaration of `id : int8`. -/
def int8Declaration : Declaration where
  primaryKey := ["id".toList]
  attributes := [
    { name := "id".toList, type := "int8".toList, category := some .integer, nullable := false }]

/-- Text after an integer word that is no part of the type is accepted with it. -/
theorem int8_accepted :
    Category.of? "int8".toList = some .integer ∧
      ¬Category.integer.pattern.ReadsAll "int8".toList ∧
      declare {} "id : int8".toList = .ok int8Declaration := by
  decide +kernel

end TableLint.Definition
