import TableLint.Proofs.Paths
import TableLint.Tree.Walk

/-!
Walking a directory at different places. What lies below a directory is found along names and read
from the directory itself, wherever it is; only the ignore files of the directories above have a
part in what is found. So two walks over the same entries find the same, if these files agree.
-/
namespace TableLint.Tree

open Text

variable {root root' name : List Char} {names place place' : List (List Char)}
  {children : List Entry} {directory : Entry} {tree : FileTree}

/-! ### Going down step by step -/

theorem getLast?_joinPieces (h : ∀ name ∈ names, IsName name) :
    (joinPieces names).getLast? ≠ some '/' := by
  fun_induction joinPieces names with
  | case1 => simp
  | case2 name =>
    intro hl
    exact (h name List.mem_cons_self).noSlash (List.mem_of_getLast? hl)
  | case3 name names hne ih =>
    have hrest : ∀ other ∈ names, IsName other := fun other hm =>
      h other (List.mem_cons_of_mem name hm)
    obtain ⟨c, s, hs⟩ := List.exists_cons_of_ne_nil (joinPieces_ne_nil hrest hne)
    have ih := ih hrest
    rw [hs] at ih ⊢
    simpa using ih

theorem joinPieces_concat (hne : names ≠ []) (name : List Char) :
    joinPieces (names ++ [name]) = joinPieces names ++ '/' :: name := by
  fun_induction joinPieces names with
  | case1 => exact absurd rfl hne
  | case2 piece => rfl
  | case3 piece pieces hp ih =>
    rw [List.cons_append, joinPieces_cons piece (by simp), ih hp, List.append_assoc,
      List.cons_append]

/-- A further name goes one step further down. -/
theorem join_goDown (hr : root ≠ []) (h : ∀ name ∈ names, IsName name) (hne : names ≠ [])
    (hn : IsName name) : join (goDown root names) name = goDown root (names ++ [name]) := by
  have hempty : root.isEmpty = false := by simp [hr]
  have habs : isAbsolute (joinPieces names) = false := isAbsolute_joinPieces h
  have habs' : isAbsolute (joinPieces (names ++ [name])) = false := by
    apply isAbsolute_joinPieces
    simpa [or_imp, forall_and] using ⟨h, hn⟩
  have hname : isAbsolute name = false := by simpa using hn.isAbsolute_append []
  obtain ⟨c, s, hs⟩ := List.exists_cons_of_ne_nil (joinPieces_ne_nil h hne)
  have hlast := getLast?_joinPieces h
  rw [hs] at hlast
  rw [goDown, goDown, join, join, join, habs, habs', hname, joinPieces_concat hne, hs]
  cases hl : root.getLast? == some '/' <;> simp [hempty, hlast]

/-! ### Reading below a directory -/

namespace Entry

theorem find?_append (names more : List (List Char)) (e : Entry) :
    e.find? (names ++ more) = (e.find? names).bind (find? more) := by
  induction names generalizing e with
  | nil => rfl
  | cons name names ih =>
    cases e with
    | file own content => rfl
    | directory own children =>
      rw [List.cons_append, find?, find?, Option.bind_assoc]
      congr 1
      funext child
      exact ih child

end Entry

namespace FileTree

/-- Following names from a place leads to what the entry at the place has there. -/
theorem foldlM_follow? (tree : FileTree) (h : ∀ name ∈ names, IsName name)
    (place : List (List Char)) :
    ((names.foldlM tree.follow? place).bind fun found => tree.root.find? found) =
      (tree.root.find? place).bind (Entry.find? names) := by
  induction names generalizing place with
  | nil => exact (Option.bind_fun_some (tree.root.find? place)).symm
  | cons name names ih =>
    have hname := h name List.mem_cons_self
    have ih := ih fun other hm => h other (List.mem_cons_of_mem name hm)
    have hreal : (name.isEmpty || name == ['.']) = false := by
      simpa [isReal] using hname.real
    have hparent : (name == ['.', '.']) = false := by simpa using hname.noParent
    have hstep := Entry.find?_append place [name] tree.root
    rw [List.foldlM_cons]
    cases hp : tree.root.find? place with
    | none => simp [follow?, hp]
    | some e =>
      rw [hp, Option.bind_some] at hstep
      cases e with
      | file own content => simp [follow?, hp, Entry.find?]
      | directory own children =>
        simp only [follow?, hp, hreal, hparent, Bool.false_eq_true, if_false]
        rw [Entry.find?] at hstep
        cases hc : children.find? (·.name == name) with
        | none => simp [hstep, hc, Entry.find?]
        | some child =>
          rw [hc] at hstep
          have hfound : tree.root.find? (place ++ [name]) = some child := hstep
          simp [hfound, ih, Entry.find?, hc]

/-- Empty pieces of a path lead nowhere else. -/
theorem eq_of_foldlM_empty {last : List (List Char)} (hl : ∀ piece ∈ last, piece = [])
    (h : last.foldlM tree.follow? place = some place') : place' = place := by
  induction last with
  | nil => exact (Option.some.inj h).symm
  | cons piece last ih =>
    rw [List.foldlM_cons, hl piece List.mem_cons_self] at h
    -- From a file not even an empty piece can be followed.
    have hstay : tree.follow? place [] = some place ∨ tree.follow? place [] = none := by
      rw [follow?]
      split
      · exact .inl rfl
      · exact .inr rfl
    rcases hstay with hs | hs
    · rw [hs] at h
      exact ih (fun other hm => hl other (List.mem_cons_of_mem piece hm)) h
    · rw [hs] at h
      cases h

theorem isAbsolute_goDown (hr : root ≠ []) (h : ∀ name ∈ names, IsName name) :
    isAbsolute (goDown root names) = isAbsolute root := by
  obtain ⟨c, s, rfl⟩ := List.exists_cons_of_ne_nil hr
  rw [goDown, join, isAbsolute_joinPieces h]
  simp only [Bool.false_eq_true, if_false]
  split <;> rfl

theorem goDown_ne_nil (hr : root ≠ []) (h : ∀ name ∈ names, IsName name) :
    goDown root names ≠ [] := by
  rw [goDown, join, isAbsolute_joinPieces h]
  simp only [Bool.false_eq_true, if_false]
  split <;> simp [hr]

/-- What a path leads to below a directory, the directory alone decides. -/
theorem entry?_goDown (hd : tree.entry? root = some directory) (h : ∀ name ∈ names, IsName name)
    (hne : names ≠ []) : tree.entry? (goDown root names) = directory.find? names := by
  obtain ⟨place, hl, hp⟩ := Option.bind_eq_some_iff.mp hd
  have hr : root ≠ [] := by
    rintro rfl
    cases hl
  have hplace : (frontPieces root).foldlM tree.follow?
      (if isAbsolute root then [] else tree.current) = some place := by
    obtain ⟨last, hsplit, hlast⟩ := exists_splitAt_frontPieces root
    rw [locate?, if_neg (by simpa using hr), hsplit, List.foldlM_append] at hl
    obtain ⟨found, hf, hstay⟩ := Option.bind_eq_some_iff.mp hl
    rw [hf, eq_of_foldlM_empty hlast hstay]
  unfold entry?
  rw [locate?, if_neg (by simpa using goDown_ne_nil hr h), splitAt_goDown hr h hne,
    isAbsolute_goDown hr h, List.foldlM_append, hplace]
  exact (tree.foldlM_follow? h place).trans (by rw [hp, Option.bind_some])

end FileTree

/-! ### Entries and their names -/

mutual

/-- The entries in an entry, itself first: the names on the way to each, those of `front` before
them, and whether it is a directory. -/
def Entry.listed (front : List (List Char)) : Entry → List (List (List Char) × Bool)
  | .file name _ => [(front ++ [name], false)]
  | .directory name children => (front ++ [name], true) :: listedIn (front ++ [name]) children

def listedIn (front : List (List Char)) : List Entry → List (List (List Char) × Bool)
  | [] => []
  | e :: es => e.listed front ++ listedIn front es

end

theorem Entry.mem_listed (e : Entry) (front : List (List Char)) :
    (front ++ [e.name], e.isDirectory) ∈ e.listed front := by
  cases e <;> simp [Entry.listed, Entry.name, Entry.isDirectory]

mutual

/-- All names in an entry, its own first. -/
def Entry.allNames : Entry → List (List Char)
  | .file name _ => [name]
  | .directory name children => name :: namesIn children

def namesIn : List Entry → List (List Char)
  | [] => []
  | e :: es => e.allNames ++ namesIn es

end

theorem Entry.name_mem_allNames (e : Entry) : e.name ∈ e.allNames := by
  cases e <;> simp [Entry.allNames, Entry.name]

/-! ### Ignore files -/

namespace IgnoreRules

/-- The kinds of ignore files. -/
def kinds : List (IgnoreRules → List IgnorePattern) := [plain, git, gitExclude]

/-- What the files of one kind say about an entry, the nearest directory first. -/
def ask (kind : IgnoreRules → List IgnorePattern) (rules : List IgnoreRules)
    (names : List (List Char)) (isDirectory : Bool) : Option Bool :=
  rules.findSome? fun r => r.verdict? (kind r) names isDirectory

/-- The files say the same, kind by kind, about entries below two places. -/
def Agree (rules rules' : List IgnoreRules) (place place' : List (List Char))
    (entries : List (List (List Char) × Bool)) : Prop :=
  ∀ kind ∈ kinds, ∀ e ∈ entries,
    ask kind rules (place ++ e.1) e.2 = ask kind rules' (place' ++ e.1) e.2

instance (rules rules' : List IgnoreRules) (place place' : List (List Char))
    (entries : List (List (List Char) × Bool)) :
    Decidable (Agree rules rules' place place' entries) :=
  inferInstanceAs (Decidable (∀ kind ∈ kinds, ∀ e ∈ entries,
    ask kind rules (place ++ e.1) e.2 = ask kind rules' (place' ++ e.1) e.2))

variable {rules rules' : List IgnoreRules} {entries more : List (List (List Char) × Bool)}

theorem Agree.of_subset (h : Agree rules rules' place place' entries) (hs : more ⊆ entries) :
    Agree rules rules' place place' more :=
  fun kind hk e he => h kind hk e (hs he)

theorem Agree.isIgnored (h : Agree rules rules' place place' entries) {isDirectory : Bool}
    (he : (names, isDirectory) ∈ entries) :
    isIgnored rules (place ++ names) isDirectory =
      isIgnored rules' (place' ++ names) isDirectory := by
  change (((ask plain rules _ _).or (ask git rules _ _)).or (ask gitExclude rules _ _)).getD false =
    (((ask plain rules' _ _).or (ask git rules' _ _)).or (ask gitExclude rules' _ _)).getD false
  rw [h plain (by simp [kinds]) _ he, h git (by simp [kinds]) _ he,
    h gitExclude (by simp [kinds]) _ he]

/-- The ignore files of a directory say the same wherever it is. -/
theorem Agree.cons (h : Agree rules rules' place place' entries) (respectGit : Bool)
    (below : List (List Char)) (name name' : List Char) (children : List Entry) :
    Agree (ofDirectory respectGit (place ++ below) (.directory name children) :: rules)
      (ofDirectory respectGit (place' ++ below) (.directory name' children) :: rules')
      place place' entries := by
  intro kind hk e he
  -- The patterns come from the entries, and are tried on what comes after the directory.
  have hpatterns : kind (ofDirectory respectGit (place ++ below) (.directory name children)) =
      kind (ofDirectory respectGit (place' ++ below) (.directory name' children)) := by
    simp only [kinds, List.mem_cons, List.not_mem_nil, or_false] at hk
    rcases hk with rfl | rfl | rfl <;> rfl
  have hverdict : ∀ patterns,
      verdict? (ofDirectory respectGit (place ++ below) (.directory name children)) patterns
          (place ++ e.1) e.2 =
        verdict? (ofDirectory respectGit (place' ++ below) (.directory name' children)) patterns
          (place' ++ e.1) e.2 := by
    intro patterns
    simp only [verdict?, ofDirectory, List.length_append, List.drop_append,
      Nat.add_sub_cancel_left, List.drop_eq_nil_of_le (Nat.le_add_right _ _), List.nil_append]
  have hrules := h kind hk e he
  rw [ask, ask] at hrules
  rw [ask, ask, List.findSome?_cons, List.findSome?_cons, hpatterns, hverdict, hrules]

end IgnoreRules

/-! ### Walking in step -/

/-- The paths lead from two places along the same names, to files among the entries. -/
structure InStep (root root' : List Char) (entries : List (List (List Char) × Bool))
    (found found' : List (List Char)) (steps : List (List (List Char))) : Prop where
  named : ∀ names ∈ steps, names ≠ [] ∧ ∀ name ∈ names, IsName name
  among : ∀ names ∈ steps, (names, false) ∈ entries
  left : found = steps.map (goDown root)
  right : found' = steps.map (goDown root')

theorem InStep.append {entries others : List (List (List Char) × Bool)}
    {found found' more more' : List (List Char)} {steps further : List (List (List Char))}
    (h : InStep root root' entries found found' steps)
    (hm : InStep root root' others more more' further) :
    InStep root root' (entries ++ others) (found ++ more) (found' ++ more') (steps ++ further) where
  named names hn := by
    rcases List.mem_append.mp hn with hn | hn
    · exact h.named names hn
    · exact hm.named names hn
  among names hn := by
    rcases List.mem_append.mp hn with hn | hn
    · exact List.mem_append_left _ (h.among names hn)
    · exact List.mem_append_right _ (hm.among names hn)
  left := by rw [h.left, hm.left, List.map_append]
  right := by rw [h.right, hm.right, List.map_append]

theorem InStep.of_subset {entries others : List (List (List Char) × Bool)}
    {found found' : List (List Char)} {steps : List (List (List Char))}
    (h : InStep root root' entries found found' steps) (hs : entries ⊆ others) :
    InStep root root' others found found' steps :=
  { h with among := fun names hn => hs (h.among names hn) }

mutual

/-- Two walks over one entry find the same. -/
theorem Entry.exists_files (respectGit : Bool) (hr : root ≠ []) (hr' : root' ≠ []) (e : Entry)
    (rules rules' : List IgnoreRules) (front : List (List Char))
    (hn : ∀ name ∈ e.allNames, IsName name) (hf : ∀ name ∈ front, IsName name)
    (ha : IgnoreRules.Agree rules rules' place place' (e.listed front)) :
    ∃ steps, InStep root root' (e.listed front)
      (e.files respectGit rules (place ++ (front ++ [e.name])) (goDown root (front ++ [e.name])))
      (e.files respectGit rules' (place' ++ (front ++ [e.name]))
        (goDown root' (front ++ [e.name]))) steps := by
  have hb : ∀ name ∈ front ++ [e.name], IsName name := by
    simpa [or_imp, forall_and] using ⟨hf, hn _ e.name_mem_allNames⟩
  have hne : front ++ [e.name] ≠ [] := by simp
  match e with
  | .file own content =>
    exact ⟨[front ++ [own]], by simpa [Entry.name] using hb, by simp [Entry.listed], rfl, rfl⟩
  | .directory own children =>
    rw [Entry.listed] at ha ⊢
    rw [Entry.files, Entry.files]
    obtain ⟨steps, hsteps⟩ := exists_filesIn respectGit hr hr' children _ _ (front ++ [own]) _ _
      (fun name hm => hn name (by rw [Entry.allNames]; exact List.mem_cons_of_mem own hm)) hb
      (fun name hname => join_goDown hr hb hne hname)
      (fun name hname => join_goDown hr' hb hne hname)
      ((ha.of_subset (List.subset_cons_self _ _)).cons respectGit (front ++ [own]) own own children)
    exact ⟨steps, hsteps.of_subset (List.subset_cons_self _ _)⟩

theorem exists_filesIn (respectGit : Bool) (hr : root ≠ []) (hr' : root' ≠ [])
    (children : List Entry) (rules rules' : List IgnoreRules) (front : List (List Char))
    (path path' : List Char) (hn : ∀ name ∈ namesIn children, IsName name)
    (hf : ∀ name ∈ front, IsName name)
    (hp : ∀ name, IsName name → join path name = goDown root (front ++ [name]))
    (hp' : ∀ name, IsName name → join path' name = goDown root' (front ++ [name]))
    (ha : IgnoreRules.Agree rules rules' place place' (listedIn front children)) :
    ∃ steps, InStep root root' (listedIn front children)
      (filesIn respectGit rules (place ++ front) path children)
      (filesIn respectGit rules' (place' ++ front) path' children) steps := by
  match children with
  | [] => exact ⟨[], by simp, by simp, rfl, rfl⟩
  | e :: es =>
    rw [namesIn] at hn
    rw [listedIn] at ha ⊢
    have hname : IsName e.name := hn _ (List.mem_append_left _ e.name_mem_allNames)
    obtain ⟨further, hfurther⟩ := exists_filesIn respectGit hr hr' es rules rules' front path path'
      (fun name hm => hn name (List.mem_append_right _ hm)) hf hp hp'
      (ha.of_subset (List.subset_append_right _ _))
    rw [filesIn, filesIn, List.append_assoc, List.append_assoc,
      ha.isIgnored (List.mem_append_left _ (e.mem_listed front)), hp _ hname, hp' _ hname]
    split
    · exact ⟨further, hfurther.of_subset (List.subset_append_right _ _)⟩
    · obtain ⟨steps, hsteps⟩ := e.exists_files respectGit hr hr' rules rules' front
        (fun name hm => hn name (List.mem_append_left _ hm)) hf
        (ha.of_subset (List.subset_append_left _ _))
      exact ⟨steps ++ further, hsteps.append hfurther⟩

end

/-- Two walks over directories with the same entries find the same. -/
theorem exists_walk {tree' : FileTree} (respectGit : Bool) {name' : List Char}
    (hl : tree.locate? root = some place) (hl' : tree'.locate? root' = some place')
    (hd : tree.root.find? place = some (.directory name children))
    (hd' : tree'.root.find? place' = some (.directory name' children))
    (hn : ∀ name ∈ namesIn children, IsName name)
    (ha : IgnoreRules.Agree (rulesAbove tree respectGit place) (rulesAbove tree' respectGit place')
      place place' (listedIn [] children)) :
    ∃ steps, InStep root root' (listedIn [] children) (walk tree respectGit root)
      (walk tree' respectGit root') steps := by
  have hr : root ≠ [] := by
    rintro rfl
    cases hl
  have hr' : root' ≠ [] := by
    rintro rfl
    cases hl'
  have hwalk := exists_filesIn respectGit hr hr' children _ _ [] root root' hn (by simp)
    (fun _ _ => rfl) (fun _ _ => rfl) (ha.cons respectGit [] name name' children)
  simpa only [walk, hl, hl', hd, hd', Entry.files, List.append_nil] using hwalk

end TableLint.Tree
