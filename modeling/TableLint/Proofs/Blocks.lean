import TableLint.Source.Layout

/-!
The blocks that lines are put into. Putting lines into blocks neither drops a line nor changes the
order, and a line has a block only if it ends in a colon. While lines are added, the blocks that are
still open form a stack, and the last line of each is the one whose block is open inside it.
-/
namespace TableLint.Source

variable {line : List Node} {block entries : List Entry} {inner outer level : Level}
  {levels : List Level}

/-! ### Lines -/

theorem logicalLines_spec (nodes : List Node) :
    (logicalLines nodes).flatten = nodes ∧ ∀ line ∈ logicalLines nodes, line ≠ [] := by
  induction nodes with
  | nil => simp [logicalLines]
  | cons n ns ih =>
    obtain ⟨hflat, hne⟩ := ih
    cases hlines : logicalLines ns with
    | nil =>
      rw [hlines] at hflat
      simp [logicalLines, ← hflat]
    | cons line lines =>
      rw [hlines] at hflat hne
      cases line with
      | nil => exact absurd rfl (hne [] List.mem_cons_self)
      | cons m line =>
        simp only [logicalLines, hlines]
        split
        · refine ⟨by rw [List.flatten_cons, hflat, List.singleton_append], ?_⟩
          intro line hl
          rcases List.mem_cons.mp hl with rfl | hm
          · simp
          · exact hne line hm
        · refine ⟨by rw [← hflat]; rfl, ?_⟩
          intro line hl
          rcases List.mem_cons.mp hl with rfl | hm
          · simp
          · exact hne line (List.mem_cons_of_mem _ hm)

/-! ### The tree of lines -/

mutual

/-- The lines of an entry, each with the lines whose blocks it stands in, innermost first. -/
def Entry.placed (above : List (List Node)) : Entry → List (List (List Node) × List Node)
  | .entry line block => (above, line) :: placedIn (line :: above) block

/-- The lines of entries, each with the lines whose blocks it stands in, innermost first. -/
def placedIn (above : List (List Node)) : List Entry → List (List (List Node) × List Node)
  | [] => []
  | e :: es => e.placed above ++ placedIn above es

end

mutual

/-- Only a line that ends in a colon has a block. -/
def Entry.OpensBlocks : Entry → Prop
  | .entry line block => (block ≠ [] → opensBlock line = true) ∧ OpenBlocks block

def OpenBlocks : List Entry → Prop
  | [] => True
  | e :: es => e.OpensBlocks ∧ OpenBlocks es

end

/-- The lines of entries in the order of the text. -/
def linesOf (entries : List Entry) : List (List Node) := (placedIn [] entries).map Prod.snd

mutual

theorem Entry.map_snd_placed (above : List (List Node)) :
    (e : Entry) → (e.placed above).map Prod.snd = (e.placed []).map Prod.snd
  | .entry line block => by
    rw [Entry.placed, Entry.placed, List.map_cons, List.map_cons, map_snd_placedIn (line :: above),
      map_snd_placedIn [line]]

theorem map_snd_placedIn (above : List (List Node)) :
    (es : List Entry) → (placedIn above es).map Prod.snd = linesOf es
  | [] => rfl
  | e :: es => by
    rw [placedIn, List.map_append, Entry.map_snd_placed above e, map_snd_placedIn above es, linesOf,
      linesOf, placedIn, List.map_append]

end

@[simp] theorem linesOf_nil : linesOf [] = [] := rfl

theorem linesOf_cons (line : List Node) (block es : List Entry) :
    linesOf (.entry line block :: es) = line :: (linesOf block ++ linesOf es) := by
  rw [linesOf, placedIn, Entry.placed, List.map_append, List.map_cons, map_snd_placedIn]
  rfl

@[simp] theorem linesOf_append (es fs : List Entry) :
    linesOf (es ++ fs) = linesOf es ++ linesOf fs := by
  induction es with
  | nil => rfl
  | cons e es ih =>
    obtain ⟨line, block⟩ := e
    rw [List.cons_append, linesOf_cons, ih, linesOf_cons, List.cons_append, List.append_assoc]

theorem openBlocks_iff : OpenBlocks entries ↔ ∀ e ∈ entries, e.OpensBlocks := by
  induction entries with
  | nil => simp [OpenBlocks]
  | cons e es ih => simp [OpenBlocks, ih]

theorem openBlocks_reverse : OpenBlocks entries.reverse ↔ OpenBlocks entries := by
  simp [openBlocks_iff]

/-! ### The stack of open blocks -/

/-- The open blocks, innermost first: each stands below the last line of the one around it. -/
inductive Stacked : List Level → Prop where
  | outermost (level : Level) (h : OpenBlocks level.entries) : Stacked [level]
  | inner (inner outer : Level) (levels : List Level) (line : List Node) (entries : List Entry)
      (h : OpenBlocks inner.entries) (houter : outer.entries = .entry line [] :: entries)
      (hline : opensBlock line = true) (hs : Stacked (outer :: levels)) :
      Stacked (inner :: outer :: levels)

/-- The lines of the open blocks in the order of the text. -/
def stackLines : List Level → List (List Node)
  | [] => []
  | level :: outer => stackLines outer ++ linesOf level.entries.reverse

theorem Stacked.openBlocks (h : Stacked (level :: levels)) : OpenBlocks level.entries := by
  cases h with
  | outermost _ h => exact h
  | inner _ _ _ _ _ h => exact h

/-- The innermost block may get other entries. -/
theorem Stacked.replace (h : Stacked (level :: levels)) {level' : Level}
    (h' : OpenBlocks level'.entries) : Stacked (level' :: levels) := by
  cases h with
  | outermost => exact .outermost level' h'
  | inner _ outer levels line entries _ houter hline hs =>
    exact .inner level' outer levels line entries h' houter hline hs

theorem Stacked.closeLevel (h : Stacked (inner :: outer :: levels)) :
    Stacked (closeLevel inner (outer :: levels)) ∧
      stackLines (closeLevel inner (outer :: levels)) = stackLines (inner :: outer :: levels) := by
  cases h with
  | inner _ _ _ line entries h houter hline hs =>
    have hentries := hs.openBlocks
    rw [houter] at hentries
    simp only [Source.closeLevel, houter]
    refine ⟨hs.replace ⟨⟨fun _ => hline, openBlocks_reverse.mpr h⟩, hentries.2⟩, ?_⟩
    simp [stackLines, houter, linesOf_cons]

theorem Stacked.closeDeeper (indent : Nat) (h : Stacked levels) :
    Stacked (closeDeeper indent levels) ∧
      stackLines (closeDeeper indent levels) = stackLines levels := by
  fun_induction Source.closeDeeper indent levels with
  | case1 inner outer levels hlt ih =>
    obtain ⟨hclosed, hlines⟩ := h.closeLevel
    rw [← hlines]
    exact ih hclosed
  | case2 => exact ⟨h, rfl⟩
  | case3 => exact ⟨h, rfl⟩

theorem Stacked.add (h : Stacked (level :: levels)) (line : List Node) :
    Stacked ({ level with entries := .entry line [] :: level.entries } :: levels) ∧
      stackLines ({ level with entries := .entry line [] :: level.entries } :: levels) =
        stackLines (level :: levels) ++ [line] := by
  refine ⟨h.replace ⟨⟨fun hne => absurd rfl hne, trivial⟩, h.openBlocks⟩, ?_⟩
  simp [stackLines, linesOf_cons]

theorem Stacked.push {header : List Node} {entries : List Entry} (h : Stacked (level :: levels))
    (hentries : level.entries = .entry header [] :: entries) (hheader : opensBlock header = true)
    (indent : Nat) (line : List Node) :
    Stacked ({ indent, entries := [.entry line []] } :: level :: levels) ∧
      stackLines ({ indent, entries := [.entry line []] } :: level :: levels) =
        stackLines (level :: levels) ++ [line] := by
  have hnew : OpenBlocks [.entry line []] := ⟨⟨fun hne => absurd rfl hne, trivial⟩, trivial⟩
  refine ⟨.inner _ level levels header entries hnew hentries hheader h, ?_⟩
  simp [stackLines, linesOf_cons]

/-- One more line comes at the end. -/
theorem Stacked.addEntry (h : Stacked levels) (line : List Node) :
    Stacked (addEntry levels line) ∧
      stackLines (addEntry levels line) = stackLines levels ++ [line] := by
  obtain ⟨hclosed, hlines⟩ := h.closeDeeper (indentOf line)
  rw [← hlines, Source.addEntry]
  split
  · next hnil =>
    rw [hnil] at hclosed
    cases hclosed
  · next level outer hlevels =>
    rw [hlevels] at hclosed ⊢
    split
    · next header entries hentries =>
      split
      · next hopens =>
        rw [Bool.and_eq_true] at hopens
        exact hclosed.push hentries hopens.1 _ line
      · exact hclosed.add line
    · exact hclosed.add line

theorem Stacked.foldl_addEntry (h : Stacked levels) (lines : List (List Node)) :
    Stacked (lines.foldl Source.addEntry levels) ∧
      stackLines (lines.foldl Source.addEntry levels) = stackLines levels ++ lines := by
  induction lines generalizing levels with
  | nil => exact ⟨h, by simp⟩
  | cons line lines ih =>
    obtain ⟨hadded, hlines⟩ := h.addEntry line
    obtain ⟨hall, halllines⟩ := ih hadded
    refine ⟨hall, ?_⟩
    rw [List.foldl_cons, halllines, hlines]
    simp

theorem Stacked.closeAll (h : Stacked levels) :
    OpenBlocks (closeAll levels) ∧ linesOf (closeAll levels) = stackLines levels := by
  fun_induction Source.closeAll levels with
  | case1 => cases h
  | case2 level => exact ⟨openBlocks_reverse.mpr h.openBlocks, by simp [stackLines]⟩
  | case3 inner outer levels ih =>
    obtain ⟨hclosed, hlines⟩ := h.closeLevel
    rw [← hlines]
    exact ih hclosed

/-- The blocks hold each line once, in the order of the text, and only lines that end in a colon
have a block. -/
theorem layout_spec (lines : List (List Node)) :
    OpenBlocks (layout lines) ∧ linesOf (layout lines) = lines := by
  have hstart : Stacked [{ indent := 0, entries := [] }] := .outermost _ trivial
  obtain ⟨hall, hlines⟩ := hstart.foldl_addEntry lines
  obtain ⟨hopen, hclosed⟩ := hall.closeAll
  refine ⟨hopen, ?_⟩
  rw [layout, hclosed, hlines]
  rfl

end TableLint.Source
