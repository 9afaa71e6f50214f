import Mathlib.Tactic.SplitIfs
import TableLint.Proofs.Reading

/-!
The key of a declaration and what belongs to it. Attribute lines and references both add to the key
and to the attributes, each name once. Above the separator every name that is added goes to both, so
there the key is the list of all names; below it the key stays and the names go on. The invariant is
`BuiltIn`, which knows on which side of the separator the reading is; `declare_wellKeyed` is what is
left of it at the end.
-/
namespace TableLint.Definition

variable {context : Context} {inKey : Bool} {d e : Declaration} {line definition : List Char}
  {a : Attribute} {key : ForeignKey}

namespace Declaration

/-- The parts of the declaration fit together. -/
structure WellKeyed (d : Declaration) : Prop where
  names_nodup : d.names.Nodup
  /-- The key consists of the first names, in their order. -/
  key_isPrefix : d.primaryKey <+: d.names
  key_notNull : ∀ a ∈ d.attributes, a.name ∈ d.primaryKey → a.nullable = false
  references_declared : ∀ key ∈ d.foreignKeys, ∀ name ∈ key.attributes, name ∈ d.names
  stores_nodup : d.externalStores.Nodup
  stores_listed : ∀ a ∈ d.attributes, ∀ store ∈ a.store, store ∈ d.externalStores

theorem WellKeyed.key_nodup (h : d.WellKeyed) : d.primaryKey.Nodup :=
  h.key_isPrefix.sublist.nodup h.names_nodup

/-- The parts fit together while the lines of the key, or those below it, are read. -/
structure BuiltIn (inKey : Bool) (d : Declaration) : Prop extends d.WellKeyed where
  key_complete : inKey = true → d.primaryKey = d.names

theorem BuiltIn.below (h : d.BuiltIn true) : d.BuiltIn false :=
  ⟨h.toWellKeyed, fun hf => by cases hf⟩

theorem builtIn_empty (comment : List Char) :
    BuiltIn true { tableComment := comment } where
  names_nodup := List.nodup_nil
  key_isPrefix := List.prefix_rfl
  key_notNull := by simp
  references_declared := by simp
  stores_nodup := List.nodup_nil
  stores_listed := by simp
  key_complete := fun _ => rfl

theorem mem_attributes_addAttribute {b : Attribute}
    (h : b ∈ (d.addAttribute inKey a).attributes) :
    b ∈ d.attributes ∨ b = a ∧ a.name ∉ d.names := by
  by_cases hm : a.name ∈ d.names
  · rw [attributes_addAttribute_of_mem hm] at h
    exact .inl h
  · rw [attributes_addAttribute_of_not_mem hm] at h
    rcases List.mem_append.mp h with hd | ha
    · exact .inl hd
    · exact .inr ⟨List.mem_singleton.mp ha, hm⟩

theorem primaryKey_addAttribute (inKey : Bool) (d : Declaration) (a : Attribute) :
    (d.addAttribute inKey a).primaryKey =
      if inKey = true then addNew d.primaryKey a.name else d.primaryKey := rfl

/-- An attribute joins the key only above the separator, where it is not null, and its store is
listed before it. -/
theorem BuiltIn.addAttribute (h : d.BuiltIn inKey) (hn : inKey = true → a.nullable = false)
    (hs : ∀ store ∈ a.store, store ∈ d.externalStores) :
    (d.addAttribute inKey a).BuiltIn inKey where
  names_nodup := by
    rw [names_addAttribute]
    exact nodup_addNew h.names_nodup a.name
  key_isPrefix := by
    rw [names_addAttribute, primaryKey_addAttribute]
    split
    · next hk => rw [h.key_complete hk]
    · exact h.key_isPrefix.trans (isPrefix_addNew d.names a.name)
  key_notNull := by
    intro b hb hkey
    rw [primaryKey_addAttribute] at hkey
    rcases mem_attributes_addAttribute hb with hold | ⟨rfl, hnew⟩
    · apply h.key_notNull b hold
      split at hkey
      · next hk =>
        rw [h.key_complete hk]
        exact List.mem_map_of_mem hold
      · exact hkey
    · -- A new attribute below the separator has no name of the key.
      split at hkey
      · next hk => exact hn hk
      · exact absurd (h.key_isPrefix.subset hkey) hnew
  references_declared := by
    intro key hk name hm
    rw [names_addAttribute, mem_addNew]
    exact .inl (h.references_declared key hk name hm)
  stores_nodup := h.stores_nodup
  stores_listed := by
    intro b hb store hstore
    rcases mem_attributes_addAttribute hb with hold | ⟨rfl, -⟩
    · exact h.stores_listed b hold store hstore
    · exact hs store hstore
  key_complete := by
    intro hk
    rw [names_addAttribute, primaryKey_addAttribute, if_pos hk, h.key_complete hk]

theorem BuiltIn.addStore (h : d.BuiltIn inKey) (store : Option (List Char)) :
    (d.addStore store).BuiltIn inKey := by
  cases store with
  | none => exact h
  | some store =>
    refine ⟨⟨h.names_nodup, h.key_isPrefix, h.key_notNull, h.references_declared, ?_, ?_⟩,
      h.key_complete⟩
    · exact nodup_addNew h.stores_nodup store
    · intro b hb other ho
      exact mem_addNew.mpr (.inl (h.stores_listed b hb other ho))

theorem mem_externalStores_addStore (d : Declaration) (store : Option (List Char)) :
    ∀ s ∈ store, s ∈ (d.addStore store).externalStores := by
  intro s hs
  cases hs
  exact mem_addNew.mpr (.inr rfl)

theorem BuiltIn.foldl_addAttribute {attributes : List Attribute} (h : d.BuiltIn inKey)
    (hn : ∀ a ∈ attributes, inKey = true → a.nullable = false)
    (hs : ∀ a ∈ attributes, a.store = none) :
    (attributes.foldl (Declaration.addAttribute inKey) d).BuiltIn inKey := by
  induction attributes generalizing d with
  | nil => exact h
  | cons a rest ih =>
    apply ih
    · apply h.addAttribute (hn a List.mem_cons_self)
      simp [hs a List.mem_cons_self]
    · exact fun b hb => hn b (List.mem_cons_of_mem a hb)
    · exact fun b hb => hs b (List.mem_cons_of_mem a hb)

/-- A reference is added after the attributes it brings along, so all its names are declared. -/
theorem BuiltIn.addReference (h : d.BuiltIn inKey) (hn : inKey = true → key.nullable = false) :
    (d.addReference inKey key).BuiltIn inKey := by
  have hf : (key.inherited.foldl (Declaration.addAttribute inKey) d).BuiltIn inKey := by
    apply h.foldl_addAttribute
    · intro a ha
      obtain ⟨name, -, rfl⟩ := List.mem_map.mp ha
      exact hn
    · intro a ha
      obtain ⟨name, -, rfl⟩ := List.mem_map.mp ha
      rfl
  refine ⟨⟨hf.names_nodup, hf.key_isPrefix, hf.key_notNull, ?_, hf.stores_nodup,
    hf.stores_listed⟩, hf.key_complete⟩
  intro other ho name hm
  rcases List.mem_append.mp ho with hold | hnew
  · exact hf.references_declared other hold name hm
  · obtain rfl := List.mem_singleton.mp hnew
    refine (mem_names_foldl inKey d other.inherited name).mpr (.inr ?_)
    simpa [ForeignKey.inherited] using hm

end Declaration

/-! ### Nothing nullable is in the key -/

theorem nullable_of_compileAttribute (h : compileAttribute context true line = .ok a) :
    a.nullable = false := by
  obtain ⟨parsed, category, -, hadmitted, rfl⟩ := admitted_of_compileAttribute h
  exact hadmitted.key_notNull rfl

theorem nullable_of_compileReference (h : compileReference context true line = .ok key) :
    key.nullable = false := by
  rw [compileReference] at h
  obtain ⟨parsed, -, h⟩ := exists_of_bind_eq_ok h
  simp only [pure, Except.pure, throw, throwThe, MonadExceptOf.throw, bind, Except.bind,
    Bool.and_true] at h
  split at h
  · cases h
  · split at h
    · cases h
    · split_ifs at h with hnull
      cases h
      simpa using hnull

/-- Every line keeps the parts of the declaration together. -/
theorem Declaration.BuiltIn.adds (h : Adds context inKey line d e) (hd : d.BuiltIn inKey) :
    e.BuiltIn inKey := by
  cases h with
  | nothing => exact hd
  | index i =>
    exact ⟨⟨hd.names_nodup, hd.key_isPrefix, hd.key_notNull, hd.references_declared,
      hd.stores_nodup, hd.stores_listed⟩, hd.key_complete⟩
  | column a ha =>
    apply (hd.addStore a.store).addAttribute
    · rintro rfl
      exact nullable_of_compileAttribute ha
    · exact d.mem_externalStores_addStore a.store
  | reference key hk =>
    apply hd.addReference
    rintro rfl
    exact nullable_of_compileReference hk

/-- In a definition that can be read all names are distinct, the key is how the list of names
starts, no attribute of the key is nullable, the attributes of every reference are declared, and
each store in use is listed once. -/
theorem declare_wellKeyed (context : Context) (definition : List Char) (d : Declaration)
    (h : declare context definition = .ok d) : d.WellKeyed ∧ d.primaryKey.Nodup := by
  have hd : d.WellKeyed := by
    rw [declare] at h
    split at h
    split at h
    · cases h
    · have hb : d.BuiltIn false :=
        addLines_preserves (P := Declaration.BuiltIn) (fun _ _ _ _ => Declaration.BuiltIn.adds)
          (fun _ => Declaration.BuiltIn.below) h (Declaration.builtIn_empty _)
      exact hb.toWellKeyed
  exact ⟨hd, hd.key_nodup⟩

/-- A context with one table. -/
def scanContext : Context := ({} : Context).withTable "Subject".toList ["subject_id".toList]

/-- A key that is partly inherited, and below it a renamed reference and a store. -/
def scanText : List Char :=
  ("-> Subject\nscan : int\n---\n" ++
    "-> [nullable] Subject.proj(other='subject_id')\nimage : blob@raw").toList

def scanDeclaration : Declaration where
  primaryKey := ["subject_id".toList, "scan".toList]
  attributes := [
    { name := "subject_id".toList, nullable := false },
    { name := "scan".toList, type := "int".toList, category := some .integer, nullable := false },
    { name := "other".toList, nullable := true },
    { name := "image".toList, type := "blob@raw".toList, category := some .externalBlob,
      nullable := false, store := some "raw".toList }]
  foreignKeys := [
    ⟨"Subject".toList, ["subject_id".toList], false, false⟩,
    ⟨"Subject".toList, ["other".toList], true, false⟩]
  externalStores := ["raw".toList]

theorem declare_wellKeyed_scan :
    declare scanContext scanText = .ok scanDeclaration ∧ scanDeclaration.WellKeyed ∧
      scanDeclaration.primaryKey.Nodup := by
  have h : declare scanContext scanText = .ok scanDeclaration := by decide +kernel
  exact ⟨h, declare_wellKeyed scanContext scanText scanDeclaration h⟩

end TableLint.Definition
