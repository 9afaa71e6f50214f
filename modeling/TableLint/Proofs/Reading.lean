import Mathlib.Data.List.Infix
import Mathlib.Tactic.SplitIfs
import TableLint.Definition.Declaration

/-!
What reading does to a declaration. `Adds` lists what a single line can do; `addLines_preserves`
carries whatever every line preserves over to all of them, and `addLines_append` cuts a reading in
two. What reading adds to the names and stores of a declaration, it adds through `addNew`.
-/
namespace TableLint.Definition

variable {context : Context} {inKey : Bool} {d e : Declaration} {line : List Char}
  {lines : List (List Char)}

/-! ### Names that are added once -/

section AddNew

variable {names : List (List Char)} {name other : List Char}

theorem addNew_of_mem (h : name ∈ names) : addNew names name = names := by
  simp [addNew, h]

theorem addNew_of_not_mem (h : name ∉ names) : addNew names name = names ++ [name] := by
  simp [addNew, h]

@[simp] theorem mem_addNew : other ∈ addNew names name ↔ other ∈ names ∨ other = name := by
  by_cases h : name ∈ names
  · rw [addNew_of_mem h]
    constructor
    · exact .inl
    · rintro (hm | rfl)
      · exact hm
      · exact h
  · simp [addNew_of_not_mem h]

theorem nodup_addNew (h : names.Nodup) (name : List Char) : (addNew names name).Nodup := by
  by_cases hm : name ∈ names
  · rwa [addNew_of_mem hm]
  · rw [addNew_of_not_mem hm]
    refine List.nodup_append.mpr ⟨h, by simp, ?_⟩
    rintro other ho _ hs rfl
    exact hm (List.mem_singleton.mp hs ▸ ho)

theorem isPrefix_addNew (names : List (List Char)) (name : List Char) :
    names <+: addNew names name := by
  by_cases hm : name ∈ names
  · rw [addNew_of_mem hm]
  · rw [addNew_of_not_mem hm]
    exact List.prefix_append names [name]

end AddNew

/-! ### Attributes that are added once -/

/-- The names of the attributes, in order. -/
def Declaration.names (d : Declaration) : List (List Char) := d.attributes.map Attribute.name

namespace Declaration

variable {a : Attribute} {attributes : List Attribute}

theorem any_name_iff (d : Declaration) (name : List Char) :
    d.attributes.any (·.name == name) = true ↔ name ∈ d.names := by
  simp [names]

theorem attributes_addAttribute_of_mem (h : a.name ∈ d.names) :
    (d.addAttribute inKey a).attributes = d.attributes := by
  simp only [addAttribute, (d.any_name_iff a.name).mpr h, if_true]

theorem attributes_addAttribute_of_not_mem (h : a.name ∉ d.names) :
    (d.addAttribute inKey a).attributes = d.attributes ++ [a] := by
  rw [← any_name_iff] at h
  simp only [addAttribute, h, Bool.false_eq_true, if_false]

@[simp] theorem names_addAttribute (inKey : Bool) (d : Declaration) (a : Attribute) :
    (d.addAttribute inKey a).names = addNew d.names a.name := by
  by_cases h : a.name ∈ d.names
  · rw [names, attributes_addAttribute_of_mem h, addNew_of_mem h, names]
  · rw [names, attributes_addAttribute_of_not_mem h, addNew_of_not_mem h, names, List.map_append]
    rfl

/-- After several attributes are added, all their names are there. -/
theorem mem_names_foldl (inKey : Bool) (d : Declaration) (attributes : List Attribute)
    (name : List Char) :
    name ∈ (attributes.foldl (addAttribute inKey) d).names ↔
      name ∈ d.names ∨ name ∈ attributes.map Attribute.name := by
  induction attributes generalizing d with
  | nil => simp
  | cons a rest ih =>
    rw [List.foldl_cons, ih, names_addAttribute, mem_addNew, List.map_cons, List.mem_cons, or_assoc]

end Declaration

/-! ### One line -/

/-- The attributes that a reference brings along. -/
def ForeignKey.inherited (key : ForeignKey) : List Attribute :=
  key.attributes.map fun name => { name, nullable := key.nullable }

/-- Adds a reference, after the attributes that it brings along. -/
def Declaration.addReference (inKey : Bool) (d : Declaration) (key : ForeignKey) : Declaration :=
  let d := key.inherited.foldl (Declaration.addAttribute inKey) d
  { d with foreignKeys := d.foreignKeys ++ [key] }

/-- What a line can do to a declaration. -/
inductive Adds (context : Context) (inKey : Bool) (line : List Char) (d : Declaration) :
    Declaration → Prop where
  | nothing : Adds context inKey line d d
  | index (i : Index) : Adds context inKey line d { d with indexes := d.indexes ++ [i] }
  | column (a : Attribute) (ha : compileAttribute context inKey line = .ok a) :
      Adds context inKey line d ((d.addStore a.store).addAttribute inKey a)
  | reference (key : ForeignKey) (hk : compileReference context inKey line = .ok key) :
      Adds context inKey line d (d.addReference inKey key)

/-- If two steps succeed together, so does each of them. -/
theorem exists_of_bind_eq_ok {α β : Type} {step : Except Problem α} {next : α → Except Problem β}
    {result : β} (h : (step >>= next) = .ok result) :
    ∃ a, step = .ok a ∧ next a = .ok result := by
  cases step with
  | error problem => cases h
  | ok a => exact ⟨a, rfl, h⟩

/-- A line that can be read does one of these. -/
theorem adds_of_addLine (h : addLine context inKey d line = .ok e) :
    Adds context inKey line d e := by
  rw [addLine] at h
  split at h
  · cases h
    exact .nothing
  · cases h
    exact .nothing
  · obtain ⟨key, hk, he⟩ := exists_of_bind_eq_ok h
    cases he
    exact .reference key hk
  · obtain ⟨i, -, he⟩ := exists_of_bind_eq_ok h
    cases he
    exact .index i
  · obtain ⟨a, ha, he⟩ := exists_of_bind_eq_ok h
    cases he
    exact .column a ha

/-! ### Attribute lines -/

/-- The comment of an attribute, its double quotes escaped. -/
def AttributeLine.escapedComment (parsed : AttributeLine) : List Char :=
  Text.replaceChar '"' ['\\', '"'] parsed.comment

/-- The attribute of the given category with the parts of a line. -/
def AttributeLine.attribute (parsed : AttributeLine) (category : Category) : Attribute where
  name := parsed.name
  type := parsed.type
  category := some category
  nullable := isNull parsed.default
  default := parsed.default
  comment := parsed.escapedComment
  store := if category.isExternal then some ((parsed.type.dropWhile (· != '@')).drop 1) else none

/-- The line passes all checks that are made of an attribute of the given category. -/
structure AttributeLine.Admitted (parsed : AttributeLine) (context : Context) (inKey : Bool)
    (category : Category) : Prop where
  key_notNull : inKey = true → isNull parsed.default = false
  comment : parsed.escapedComment.head? ≠ some ':'
  category_eq : Category.of? parsed.type = some category
  filepath : category = .filepath → context.filepath = true
  adapter : category = .adapted → adapterOf parsed.type ∈ context.adapters
  serialized : category.isSerialized = true → ∀ default ∈ parsed.default,
    default = [] ∨ isNull parsed.default = true

/-- A line that declares an attribute has passed every check, and the attribute has its parts. -/
theorem admitted_of_compileAttribute {a : Attribute}
    (h : compileAttribute context inKey line = .ok a) :
    ∃ parsed category, AttributeLine.parse line = .ok parsed ∧
      parsed.Admitted context inKey category ∧ a = parsed.attribute category := by
  rw [compileAttribute] at h
  obtain ⟨parsed, hp, h⟩ := exists_of_bind_eq_ok h
  simp only [bind, Except.bind, pure, Except.pure, throw, throwThe, MonadExceptOf.throw] at h
  split_ifs at h with hnull hcomment
  cases hc : Category.of? parsed.type with
  | none =>
    rw [hc] at h
    cases h
  | some category =>
    rw [hc] at h
    simp only at h
    -- One check after the other; `split_ifs` would also split the value of the store.
    split at h
    · cases h
    next hfilepath =>
      split at h
      · cases h
      next hadapter =>
        split at h
        · cases h
        next hdefault =>
          cases h
          refine ⟨parsed, category, hp, ⟨?_, ?_, hc, ?_, ?_, ?_⟩, rfl⟩
          · rintro rfl
            simpa using hnull
          · exact fun he => hcomment (beq_iff_eq.mpr he)
          · rintro rfl
            simpa using hfilepath
          · rintro rfl
            simpa using hadapter
          · intro hs default hd
            by_contra hne
            rw [not_or, Bool.not_eq_true] at hne
            have hany : parsed.default.any (!·.isEmpty) = true := by
              simp [Option.mem_def.mp hd, hne.1]
            apply hdefault
            rw [hs, hany, hne.2]
            rfl

/-! ### All lines -/

/-- What every line preserves, all lines preserve. The property may depend on the part of the
definition; a separator ends the key and nothing begins it again. -/
theorem addLines_preserves {P : Bool → Declaration → Prop}
    (hline : ∀ inKey d line e, Adds context inKey line d e → P inKey d → P inKey e)
    (hbelow : ∀ d, P true d → P false d) (h : addLines context inKey d lines = .ok e)
    (hd : P inKey d) : P false e := by
  induction lines generalizing inKey d with
  | nil =>
    cases h
    cases inKey with
    | false => exact hd
    | true => exact hbelow _ hd
  | cons line lines ih =>
    rw [addLines] at h
    obtain ⟨f, ha, h⟩ := exists_of_bind_eq_ok h
    have hf : P inKey f := hline inKey d line f (adds_of_addLine ha) hd
    apply ih h
    cases inKey with
    | false => exact hf
    | true =>
      cases lineKind line != .separator with
      | false => exact hbelow f hf
      | true => exact hf

/-- Reading lines in two parts. -/
theorem addLines_append (context : Context) (inKey : Bool) (d : Declaration)
    (lines more : List (List Char)) :
    addLines context inKey d (lines ++ more) =
      (addLines context inKey d lines).bind fun e =>
        addLines context (inKey && lines.all (lineKind · != .separator)) e more := by
  induction lines generalizing inKey d with
  | nil =>
    rw [List.nil_append, List.all_nil, Bool.and_true]
    rfl
  | cons line lines ih =>
    rw [List.cons_append, addLines, addLines, List.all_cons, ← Bool.and_assoc]
    cases addLine context inKey d line with
    | error problem => rfl
    | ok f => exact ih _ f

end TableLint.Definition
