import TableLint.Proofs.AttributeSpelling
import TableLint.Proofs.KeyStructure

/-!
The attributes of a declaration. Each is brought along by a reference, with nothing but a name, or
comes from a line of its own that passed every check for its category. Which of two attributes of
one name is kept does not matter: whatever a line compiles to is sound before it is added.
-/
namespace TableLint.Text

variable {c d : Char} {word s rest : List Char}

/-- Case folding changes letters alone. -/
theorem eq_of_foldCase (h : foldCase c = d) (hd : d.isLower = false) : c = d := by
  rw [foldCase] at h
  split at h
  · subst h
    cases hd
  · split at h
    · subst h
      cases hd
    · have hc := toNat_toLower c
      have hd : (decide ('a'.val ≤ d.val) && decide (d.val ≤ 'z'.val)) = false := hd
      have hd : ¬(97 ≤ d.toNat ∧ d.toNat ≤ 122) := by
        simpa [UInt32.le_iff_toNat_le] using hd
      rw [h] at hc
      rw [← Char.toNat_inj]
      split at hc
      · omega
      · exact hc.symm

/-- What stands in front of the rest is the word, in whatever case. -/
theorem exists_append_of_afterWord? (h : afterWord? word s = some rest) :
    ∃ front, s = front ++ rest ∧ front.map foldCase = word := by
  induction word generalizing s with
  | nil =>
    cases h
    exact ⟨[], rfl, rfl⟩
  | cons w word ih =>
    cases s with
    | nil => cases h
    | cons c s =>
      rw [afterWord?] at h
      split at h
      · next hc =>
        obtain ⟨front, rfl, hf⟩ := ih h
        exact ⟨c :: front, rfl, by rw [List.map_cons, hf, beq_iff_eq.mp hc]⟩
      · cases h

end TableLint.Text

namespace TableLint.Definition

open Text

variable {context : Context} {inKey : Bool} {d e : Declaration} {line type rest : List Char}
  {category : Category} {a : Attribute} {parsed : AttributeLine}

/-! ### Stores and adapters -/

/-- A type that starts with a word and an at sign has its first at sign there. -/
theorem exists_append_at {word : List Char} (hw : '@' ∉ word)
    (h : afterWord? (word ++ ['@']) type = some rest) :
    ∃ front, '@' ∉ front ∧ type = front ++ '@' :: rest := by
  obtain ⟨front, rfl, hf⟩ := exists_append_of_afterWord? h
  obtain ⟨start, last, rfl, hs, hl⟩ := List.map_eq_append_iff.mp hf
  obtain ⟨c, rfl, hc⟩ := List.map_eq_singleton_iff.mp hl
  obtain rfl := eq_of_foldCase hc (by decide)
  refine ⟨start, ?_, by simp⟩
  intro hm
  apply hw
  rw [← hs]
  exact List.mem_map.mpr ⟨'@', hm, by decide⟩

/-- A type is covered by a category if it has one of its forms. -/
theorem covers_iff :
    category.covers type = true ↔ ∃ form ∈ category.forms, ∃ rest,
      afterWord? form.1.toList type = some rest ∧ form.2.holds rest = true := by
  rw [Category.covers, List.any_eq_true]
  constructor
  · rintro ⟨form, hm, hf⟩
    cases ha : afterWord? form.1.toList type with
    | none =>
      simp only [ha] at hf
      cases hf
    | some rest =>
      simp only [ha] at hf
      exact ⟨form, hm, rest, ha, hf⟩
  · rintro ⟨form, hm, rest, ha, hf⟩
    exact ⟨form, hm, by simp only [ha, hf]⟩

/-- The one form of an external category: a word, an at sign and the name of a store. -/
theorem exists_form_of_isExternal (h : category.isExternal = true) :
    ∃ word, '@' ∉ word ∧
      ∀ form ∈ category.forms, form.1.toList = word ++ ['@'] ∧ form.2 = .store := by
  cases category with
  | externalBlob =>
    refine ⟨"blob".toList, by decide, fun form hm => ?_⟩
    obtain rfl := List.mem_singleton.mp hm
    exact ⟨rfl, rfl⟩
  | externalAttach =>
    refine ⟨"attach".toList, by decide, fun form hm => ?_⟩
    obtain rfl := List.mem_singleton.mp hm
    exact ⟨rfl, rfl⟩
  | filepath =>
    refine ⟨"filepath".toList, by decide, fun form hm => ?_⟩
    obtain rfl := List.mem_singleton.mp hm
    exact ⟨rfl, rfl⟩
  | _ => cases h

theorem ne_nil_of_isStoreName {s : List Char} (h : isStoreName s = true) : s ≠ [] := by
  rintro rfl
  cases h

/-- A type of an external category names its store after its first at sign. -/
theorem exists_store (he : category.isExternal = true) (h : Category.of? type = some category) :
    ∃ front store, '@' ∉ front ∧ store ≠ [] ∧ type = front ++ '@' :: store := by
  obtain ⟨word, hw, hforms⟩ := exists_form_of_isExternal he
  have hcovers : category.covers type = true := by simpa using List.find?_some h
  obtain ⟨form, hm, rest, ha, hholds⟩ := covers_iff.mp hcovers
  obtain ⟨hword, htail⟩ := hforms form hm
  rw [hword] at ha
  rw [htail] at hholds
  obtain ⟨front, hfront, rfl⟩ := exists_append_at hw ha
  exact ⟨front, rest, hfront, ne_nil_of_isStoreName hholds, rfl⟩

theorem eq_false_of_head?_dropWhile {p : Char → Bool} {s : List Char} {c : Char}
    (h : (s.dropWhile p).head? = some c) : p c = false := by
  have hd := List.head?_dropWhile_not p s
  rw [h] at hd
  exact hd

/-- The adapter is the type without the brackets around it, however many there are. -/
structure Unbracketed (type adapter : List Char) : Prop where
  brackets : ∃ opening closing, (∀ c ∈ opening, c = '<') ∧ (∀ c ∈ closing, c = '>') ∧
    type = opening ++ (adapter ++ closing)
  noOpening : adapter.head? ≠ some '<'
  noClosing : adapter.getLast? ≠ some '>'

theorem unbracketed_adapterOf (type : List Char) : Unbracketed type (adapterOf type) := by
  obtain ⟨inner, hinner⟩ : ∃ inner, type.dropWhile (· == '<') = inner := ⟨_, rfl⟩
  have htype : type.takeWhile (· == '<') ++ inner = type := by
    rw [← hinner, List.takeWhile_append_dropWhile]
  have hclosing : adapterOf type ++ (inner.reverse.takeWhile (· == '>')).reverse = inner := by
    rw [adapterOf, hinner, ← List.reverse_append, List.takeWhile_append_dropWhile,
      List.reverse_reverse]
  refine ⟨⟨type.takeWhile (· == '<'), (inner.reverse.takeWhile (· == '>')).reverse, ?_, ?_, ?_⟩,
    ?_, ?_⟩
  · intro c hc
    simpa using List.mem_takeWhile_imp hc
  · intro c hc
    simpa using List.mem_takeWhile_imp (List.mem_reverse.mp hc)
  · rw [hclosing, htype]
  · intro hh
    have hi : inner.head? = some '<' := by
      rw [← hclosing, List.head?_append, hh]
      rfl
    rw [← hinner] at hi
    exact absurd (eq_false_of_head?_dropWhile hi) (by decide)
  · intro hl
    rw [adapterOf, List.getLast?_reverse] at hl
    exact absurd (eq_false_of_head?_dropWhile hl) (by decide)

/-! ### What an attribute of a declaration is -/

/-- An attribute that a reference brings along. -/
structure Attribute.Inherited (a : Attribute) : Prop where
  category_eq : a.category = none
  type_eq : a.type = []
  default_eq : a.default = none
  store_eq : a.store = none

/-- The default stands for null, in whatever case it is written. -/
def Attribute.DefaultsToNull (a : Attribute) : Prop :=
  ∃ default, a.default = some default ∧ lower default = "null".toList

/-- The blobs and the attachments. -/
def Category.IsBlobOrAttachment (category : Category) : Prop :=
  category ∈ [.internalBlob, .externalBlob, .internalAttach, .externalAttach]

/-- An attribute of the given category that a line of its own declares. -/
structure Attribute.Declared (a : Attribute) (context : Context) (category : Category) : Prop where
  category_eq : a.category = some category
  type_category : Category.of? a.type = some category
  isName : AttributeLine.IsName a.name
  nullable_iff : a.nullable = true ↔ a.DefaultsToNull
  store_iff : a.store.isSome = true ↔ category.isExternal = true
  /-- The store is what stands after the first at sign of the type. -/
  store_eq : ∀ store ∈ a.store, store ≠ [] ∧ ∃ front, '@' ∉ front ∧ a.type = front ++ '@' :: store
  default_cases : category.IsBlobOrAttachment →
    a.default = none ∨ a.default = some [] ∨ a.DefaultsToNull
  comment_head : a.comment.head? ≠ some ':'
  filepath : category = .filepath → context.filepath = true
  adapter : category = .adapted → ∃ adapter ∈ context.adapters, Unbracketed a.type adapter

/-! ### Attributes of lines -/

theorem isNull_iff {default : Option (List Char)} :
    isNull default = true ↔ ∃ d, default = some d ∧ lower d = "null".toList := by
  have hnull : lower "null".toList = "null".toList := by decide
  cases default with
  | none => simp [isNull]
  | some d =>
    rw [isNull, Option.any_some, sameLetters, hnull, beq_iff_eq, eq_comm]
    constructor
    · intro h
      exact ⟨d, rfl, h⟩
    · rintro ⟨_, ⟨⟩, h⟩
      exact h

theorem isName_of_takeName? {s name : List Char}
    (h : AttributeLine.takeName? s = some (name, rest)) : AttributeLine.IsName name := by
  cases s with
  | nil => cases h
  | cons c s =>
    rw [AttributeLine.takeName?] at h
    split at h
    · next hc =>
      cases h
      exact ⟨hc, fun d hd => List.mem_takeWhile_imp hd⟩
    · cases h

theorem isName_of_parse (h : AttributeLine.parse line = .ok parsed) :
    AttributeLine.IsName parsed.name := by
  rw [AttributeLine.parse] at h
  split at h
  · cases h
  · next hn =>
    split at h
    · cases h
    · split at h
      · split at h
        · cases h
        · cases h
          exact isName_of_takeName? hn
      · cases h

theorem isSerialized_of_isBlobOrAttachment (h : category.IsBlobOrAttachment) :
    category.isSerialized = true := by
  cases category with
  | internalBlob | externalBlob | internalAttach | externalAttach => rfl
  | _ => simp [Category.IsBlobOrAttachment] at h

/-- The store of an attribute is what its type says. -/
theorem store_attribute (hc : Category.of? parsed.type = some category) :
    ((parsed.attribute category).store.isSome = true ↔ category.isExternal = true) ∧
      ∀ store ∈ (parsed.attribute category).store,
        store ≠ [] ∧ ∃ front, '@' ∉ front ∧ parsed.type = front ++ '@' :: store := by
  rw [AttributeLine.attribute]
  cases he : category.isExternal with
  | false => simp
  | true =>
    obtain ⟨front, store, hfront, hne, htype⟩ := exists_store he hc
    have hdrop : (parsed.type.dropWhile (· != '@')).drop 1 = store := by
      rw [htype, (span_append_cons hfront store).2, List.drop_one, List.tail_cons]
    simp only [hdrop, if_true, Option.isSome_some, true_and]
    rintro other ⟨⟩
    exact ⟨hne, front, hfront, htype⟩

/-- A line that is admitted declares a sound attribute. -/
theorem declared_of_admitted (hp : AttributeLine.parse line = .ok parsed)
    (h : parsed.Admitted context inKey category) :
    (parsed.attribute category).Declared context category where
  category_eq := rfl
  type_category := h.category_eq
  isName := isName_of_parse hp
  nullable_iff := isNull_iff
  store_iff := (store_attribute h.category_eq).1
  store_eq := (store_attribute h.category_eq).2
  default_cases := by
    intro hb
    cases hd : parsed.default with
    | none => exact .inl hd
    | some default =>
      right
      rcases h.serialized (isSerialized_of_isBlobOrAttachment hb) default hd with rfl | hn
      · exact .inl hd
      · exact .inr (isNull_iff.mp hn)
  comment_head := h.comment
  filepath := h.filepath
  adapter := fun ha => ⟨_, h.adapter ha, unbracketed_adapterOf parsed.type⟩

theorem inherited_of_mem {key : ForeignKey} (h : a ∈ key.inherited) : a.Inherited := by
  obtain ⟨name, -, rfl⟩ := List.mem_map.mp h
  exact ⟨rfl, rfl, rfl, rfl⟩

/-! ### Attributes of declarations -/

namespace Declaration

/-- Every attribute is brought along or declared by a line. -/
def Sound (context : Context) (d : Declaration) : Prop :=
  ∀ a ∈ d.attributes, a.Inherited ∨ ∃ category, a.Declared context category

theorem Sound.addAttribute (h : d.Sound context)
    (ha : a.Inherited ∨ ∃ category, a.Declared context category) :
    (d.addAttribute inKey a).Sound context := by
  intro b hb
  rcases mem_attributes_addAttribute hb with hold | ⟨rfl, -⟩
  · exact h b hold
  · exact ha

theorem Sound.addStore (h : d.Sound context) (store : Option (List Char)) :
    (d.addStore store).Sound context := by
  cases store with
  | none => exact h
  | some store => exact h

theorem Sound.foldl_addAttribute {attributes : List Attribute} (h : d.Sound context)
    (ha : ∀ a ∈ attributes, a.Inherited) :
    (attributes.foldl (Declaration.addAttribute inKey) d).Sound context := by
  induction attributes generalizing d with
  | nil => exact h
  | cons a rest ih =>
    apply ih
    · exact h.addAttribute (.inl (ha a List.mem_cons_self))
    · exact fun b hb => ha b (List.mem_cons_of_mem a hb)

/-- No line adds an attribute that is not sound. -/
theorem Sound.adds (h : Adds context inKey line d e) (hd : d.Sound context) : e.Sound context := by
  cases h with
  | nothing => exact hd
  | index i => exact hd
  | column a ha =>
    obtain ⟨parsed, category, hp, hadmitted, rfl⟩ := admitted_of_compileAttribute ha
    exact (hd.addStore _).addAttribute (.inr ⟨category, declared_of_admitted hp hadmitted⟩)
  | reference key hk => exact hd.foldl_addAttribute fun a ha => inherited_of_mem ha

end Declaration

/-- Every attribute of a definition that can be read is brought along by a reference or declared by
a line of its own, with a name, a type, a default, a comment and a store that fit its category. -/
theorem declare_attributes (context : Context) (definition : List Char) (d : Declaration)
    (h : declare context definition = .ok d) :
    ∀ a ∈ d.attributes, a.Inherited ∨ ∃ category, a.Declared context category := by
  rw [declare] at h
  split at h
  split at h
  · cases h
  · apply addLines_preserves (P := fun _ => Declaration.Sound context)
      (fun _ _ _ _ => Declaration.Sound.adds) (fun _ => id) h
    intro a ha
    cases ha

/-- A context in which a table, an adapter and filepath attributes are known. -/
def archiveContext : Context where
  tables := [("Subject".toList, ["subject_id".toList])]
  adapters := ["mask".toList]
  filepath := true

/-- A definition with attributes of all the categories that are checked further. -/
def archiveText : List Char :=
  ("-> Subject\n---\nimage = NULL : blob@raw  # the \"raw\" image\nmask : <<mask>\n" ++
    "path : filepath@disk-1\nimage = 1 : int").toList

def archiveDeclaration : Declaration where
  primaryKey := ["subject_id".toList]
  attributes := [
    { name := "subject_id".toList, nullable := false },
    { name := "image".toList, type := "blob@raw".toList, category := some .externalBlob,
      nullable := true, default := some "NULL".toList,
      comment := "the \\\"raw\\\" image".toList, store := some "raw".toList },
    { name := "mask".toList, type := "<<mask>".toList, category := some .adapted,
      nullable := false },
    { name := "path".toList, type := "filepath@disk-1".toList, category := some .filepath,
      nullable := false, store := some "disk-1".toList }]
  foreignKeys := [⟨"Subject".toList, ["subject_id".toList], false, false⟩]
  externalStores := ["raw".toList, "disk-1".toList]

theorem declare_attributes_archive :
    declare archiveContext archiveText = .ok archiveDeclaration ∧
      ∀ a ∈ archiveDeclaration.attributes,
        a.Inherited ∨ ∃ category, a.Declared archiveContext category := by
  have h : declare archiveContext archiveText = .ok archiveDeclaration := by decide +kernel
  exact ⟨h, declare_attributes archiveContext archiveText archiveDeclaration h⟩

end TableLint.Definition
