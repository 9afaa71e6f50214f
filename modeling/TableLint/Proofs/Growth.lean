import TableLint.Proofs.FailingLine
import TableLint.Proofs.Lines
import TableLint.Proofs.Reading

/-!
Definitions that go on below. The lines of a definition are the first lines of each definition that
continues it on a new line, so the longer reading starts with the shorter one: it fails if that
fails, and otherwise goes on from the declaration found so far. No line takes anything out of a
declaration again.
-/
namespace TableLint.Definition

open Text

variable {context : Context} {inKey : Bool} {d e f : Declaration} {line : List Char}

namespace Declaration

/-- The one declaration is how the other one starts. -/
structure StartOf (d e : Declaration) : Prop where
  tableComment : e.tableComment = d.tableComment
  primaryKey : d.primaryKey <+: e.primaryKey
  attributes : d.attributes <+: e.attributes
  foreignKeys : d.foreignKeys <+: e.foreignKeys
  indexes : d.indexes <+: e.indexes
  externalStores : d.externalStores <+: e.externalStores

theorem StartOf.rfl : d.StartOf d where
  tableComment := Eq.refl _
  primaryKey := List.prefix_rfl
  attributes := List.prefix_rfl
  foreignKeys := List.prefix_rfl
  indexes := List.prefix_rfl
  externalStores := List.prefix_rfl

theorem StartOf.trans (h : d.StartOf e) (h' : e.StartOf f) : d.StartOf f where
  tableComment := h'.tableComment.trans h.tableComment
  primaryKey := h.primaryKey.trans h'.primaryKey
  attributes := h.attributes.trans h'.attributes
  foreignKeys := h.foreignKeys.trans h'.foreignKeys
  indexes := h.indexes.trans h'.indexes
  externalStores := h.externalStores.trans h'.externalStores

theorem startOf_addAttribute (inKey : Bool) (d : Declaration) (a : Attribute) :
    d.StartOf (d.addAttribute inKey a) := by
  refine { StartOf.rfl with primaryKey := ?_, attributes := ?_ }
  · cases inKey with
    | false => exact List.prefix_rfl
    | true => exact isPrefix_addNew d.primaryKey a.name
  · by_cases hm : a.name ∈ d.names
    · rw [attributes_addAttribute_of_mem hm]
    · rw [attributes_addAttribute_of_not_mem hm]
      exact List.prefix_append d.attributes [a]

theorem startOf_addStore (d : Declaration) (store : Option (List Char)) :
    d.StartOf (d.addStore store) := by
  cases store with
  | none => exact .rfl
  | some store =>
    exact { StartOf.rfl with externalStores := isPrefix_addNew d.externalStores store }

theorem startOf_foldl_addAttribute (inKey : Bool) (d : Declaration) (attributes : List Attribute) :
    d.StartOf (attributes.foldl (addAttribute inKey) d) := by
  induction attributes generalizing d with
  | nil => exact .rfl
  | cons a rest ih => exact (startOf_addAttribute inKey d a).trans (ih (d.addAttribute inKey a))

theorem startOf_addReference (inKey : Bool) (d : Declaration) (key : ForeignKey) :
    d.StartOf (d.addReference inKey key) := by
  have h := startOf_foldl_addAttribute inKey d key.inherited
  exact { h with foreignKeys := h.foreignKeys.trans (List.prefix_append _ [key]) }

/-- A line only adds at the end. -/
theorem StartOf.of_adds (h : Adds context inKey line d e) : d.StartOf e := by
  cases h with
  | nothing => exact .rfl
  | index i => exact { StartOf.rfl with indexes := List.prefix_append d.indexes [i] }
  | column a ha =>
    exact (startOf_addStore d a.store).trans (startOf_addAttribute inKey (d.addStore a.store) a)
  | reference key hk => exact startOf_addReference inKey d key

/-- So do all lines together. -/
theorem StartOf.of_addLines {lines : List (List Char)}
    (h : addLines context inKey d lines = .ok e) : d.StartOf e :=
  addLines_preserves (P := fun _ f => d.StartOf f) (fun _ _ _ _ ha hf => hf.trans (.of_adds ha))
    (fun _ => id) h .rfl

end Declaration

/-! ### The longer reading -/

theorem splitLines_ne_nil (definition : List Char) : splitLines definition ≠ [] := by
  rw [splitLines, ne_eq, List.map_eq_nil_iff]
  exact splitAt_ne_nil '\n' (trim definition)

/-- The table comment is looked for in the first line alone. -/
theorem takeTableComment_append {lines : List (List Char)} (h : lines ≠ [])
    (more : List (List Char)) :
    takeTableComment (lines ++ more) =
      ((takeTableComment lines).1, (takeTableComment lines).2 ++ more) := by
  obtain ⟨first, rest, rfl⟩ := List.exists_cons_of_ne_nil h
  cases first with
  | nil => rfl
  | cons c comment =>
    by_cases hc : c = '#'
    · subst hc
      rfl
    · simp [takeTableComment, hc]

/-- The reading of a continued definition goes on where that of the definition ended. -/
theorem exists_declare_continued (context : Context) {definition : List Char}
    (h : ¬AllBlank definition) (further : List Char) :
    ∃ inKey more, declare context (definition ++ '\n' :: further) =
      (declare context definition).bind fun d => addLines context inKey d more := by
  obtain ⟨more, hm⟩ := splitLines_isPrefix h further
  rw [declare, declare, ← hm, takeTableComment_append (splitLines_ne_nil definition)]
  obtain ⟨comment, lines⟩ := takeTableComment (splitLines definition)
  refine ⟨true && lines.all (lineKind · != .separator), more, ?_⟩
  simp only
  split
  · rfl
  · exact addLines_append context true _ lines more

theorem declare_error_continued {definition : List Char} {problem : Problem}
    (h : declare context definition = .error problem) (further : List Char) :
    declare context (definition ++ '\n' :: further) = .error problem := by
  obtain ⟨inKey, more, hc⟩ := exists_declare_continued context (not_allBlank_of_declare h) further
  rw [hc, h]
  rfl

/-- The first problem of a definition that has any text stays the one for which it is refused,
whatever is written below. A definition that can be read only grows: the table comment stays, and
the key, the attributes, the references, the indexes and the stores are continued. -/
theorem declare_continued (context : Context) (definition further : List Char)
    (h : ¬AllBlank definition) :
    (∀ problem, declare context definition = .error problem →
        declare context (definition ++ '\n' :: further) = .error problem) ∧
      ∀ d e, declare context definition = .ok d →
        declare context (definition ++ '\n' :: further) = .ok e → d.StartOf e := by
  constructor
  · intro problem hp
    exact declare_error_continued hp further
  · intro d e hd he
    obtain ⟨inKey, more, hc⟩ := exists_declare_continued context h further
    rw [hc, hd] at he
    exact .of_addLines he

/-- A definition with a table comment and a key. -/
def scanHead : List Char := "# scans\nid : int".toList

def scanHeadDeclaration : Declaration where
  tableComment := "scans".toList
  primaryKey := ["id".toList]
  attributes :=
    [{ name := "id".toList, type := "int".toList, category := some .integer, nullable := false }]

/-- The same with an attribute below the key. -/
def scanImageDeclaration : Declaration :=
  { scanHeadDeclaration with
    attributes := scanHeadDeclaration.attributes ++
      [{ name := "image".toList, type := "blob@raw".toList, category := some .externalBlob,
         nullable := false, store := some "raw".toList }]
    externalStores := ["raw".toList] }

/-- A type that is refused stays refused above a reference; a key stays above an attribute. -/
theorem declare_continued_scan :
    declare {} "id : text".toList = .error (.unsupportedType "text".toList) ∧
      declare {} ("id : text".toList ++ '\n' :: "-> Subject".toList) =
        .error (.unsupportedType "text".toList) ∧
      declare {} scanHead = .ok scanHeadDeclaration ∧
      declare {} (scanHead ++ '\n' :: "---\nimage : blob@raw".toList) = .ok scanImageDeclaration ∧
      scanHeadDeclaration.StartOf scanImageDeclaration := by
  have hp : declare {} "id : text".toList = .error (.unsupportedType "text".toList) := by
    decide +kernel
  have hd : declare {} scanHead = .ok scanHeadDeclaration := by decide +kernel
  have he : declare {} (scanHead ++ '\n' :: "---\nimage : blob@raw".toList) =
      .ok scanImageDeclaration := by decide +kernel
  have hb : ¬AllBlank "id : text".toList := by decide
  have hs : ¬AllBlank scanHead := by decide
  exact ⟨hp, (declare_continued {} "id : text".toList "-> Subject".toList hb).1 _ hp, hd, he,
    (declare_continued {} scanHead "---\nimage : blob@raw".toList hs).2 _ _ hd he⟩

end TableLint.Definition
