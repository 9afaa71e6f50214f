import TableLint.Proofs.AttributeSpelling
import TableLint.Text.Split

/-!
What a search past quotes finds. A text falls into items from left to right: quoted text with both
its quotes, or a single character. The search answers with the first item that is the target, and
so does a search that goes by byte offsets, all of which stay between characters. A text that ends
with the target cannot have its end in quotes, so there the search always succeeds.
-/
namespace TableLint.Text

variable {c quote target : Char} {s t inner front rest : List Char}

/-! ### Items -/

/-- The items of a text. A quote that occurs again takes everything up to there along. -/
def items : List Char → List (List Char)
  | [] => []
  | c :: s =>
    if isQuote c && s.contains c then
      (c :: (s.takeWhile (· != c) ++ [c])) :: items ((s.dropWhile (· != c)).drop 1)
    else [c] :: items s
termination_by s => s.length
decreasing_by
  · have h := (List.dropWhile_sublist (· != c) (l := s)).length_le
    simp only [List.length_drop, List.length_cons]
    omega
  · exact Nat.lt_succ_self _

theorem items_nil : items [] = [] := by rw [items]

theorem items_quoted (hq : isQuote quote = true) (hi : quote ∉ inner) (s : List Char) :
    items (quote :: (inner ++ quote :: s)) = (quote :: (inner ++ [quote])) :: items s := by
  obtain ⟨htake, hdrop⟩ := span_append_cons hi s
  have hc : (inner ++ quote :: s).contains quote = true := by simp
  rw [items, hq, hc, htake, hdrop]
  rfl

theorem items_single (h : isQuote c = true → c ∉ s) : items (c :: s) = [c] :: items s := by
  have hc : (isQuote c && s.contains c) = false := by
    rw [Bool.and_eq_false_imp]
    exact fun hq => by simpa using h hq
  rw [items, hc]
  rfl

/-- A text is empty, or starts with quoted text, or with a single character. -/
@[elab_as_elim] theorem itemInduction {motive : List Char → Prop} (nil : motive [])
    (quoted : ∀ quote inner s, isQuote quote = true → quote ∉ inner → motive s →
      motive (quote :: (inner ++ quote :: s)))
    (single : ∀ c s, (isQuote c = true → c ∉ s) → motive s → motive (c :: s)) (s : List Char) :
    motive s := by
  match s with
  | [] => exact nil
  | c :: s =>
    by_cases h : isQuote c = true → c ∉ s
    · exact single c s h (itemInduction nil quoted single s)
    · rw [Classical.not_imp, not_not] at h
      obtain ⟨inner, t, hs, hi⟩ := List.eq_append_cons_of_mem h.2
      have ht : t.length < s.length := by
        rw [hs, List.length_append, List.length_cons]
        omega
      rw [hs]
      exact quoted c inner t h.1 hi (itemInduction nil quoted single t)
termination_by s.length

/-- The byte offset of the first item that is the target alone, where the items start at `start`. -/
def itemOffset? (target : Char) (start : Nat) : List (List Char) → Option Nat
  | [] => none
  | item :: items =>
    if item = [target] then some start else itemOffset? target (start + byteLength item) items

theorem itemOffset?_isSome (start : Nat) {items : List (List Char)} (h : [target] ∈ items) :
    (itemOffset? target start items).isSome = true := by
  induction items generalizing start with
  | nil => cases h
  | cons item items ih =>
    rw [itemOffset?]
    split
    · rfl
    · next hne =>
      rcases List.mem_cons.mp h with rfl | hm
      · exact absurd rfl hne
      · exact ih _ hm

/-! ### The search in the text -/

theorem splitUnquoted_quoted (ht : isQuote target = false) (hq : isQuote quote = true)
    (hi : quote ∉ inner) (s : List Char) :
    splitUnquoted target (quote :: (inner ++ quote :: s)) =
      (splitUnquoted target s).map
        fun (before, rest) => (quote :: (inner ++ quote :: before), rest) := by
  have h := splitUnquoted_append ht (.quoted quote inner [] hq hi .nil) s
  simpa using h

theorem splitUnquoted_single (h : isQuote c = true → c ∉ s) (hc : c ≠ target) :
    splitUnquoted target (c :: s) =
      (splitUnquoted target s).map fun (before, rest) => (c :: before, rest) := by
  have hq : (isQuote c && s.contains c) = false := by
    rw [Bool.and_eq_false_imp]
    exact fun hq => by simpa using h hq
  rw [splitUnquoted, splitUnquotedFrom, hq, beq_eq_false_iff_ne.mpr hc]
  rfl

theorem splitUnquoted_self (s : List Char) :
    splitUnquoted target (target :: s) = some ([], target :: s) := by
  simp [splitUnquoted, splitUnquotedFrom]

/-- The search answers with the first item that is the target. -/
theorem map_splitUnquoted (ht : isQuote target = false) (s : List Char) (start : Nat) :
    (splitUnquoted target s).map (fun p => start + byteLength p.1) =
      itemOffset? target start (items s) := by
  induction s using itemInduction generalizing start with
  | nil => rw [items_nil]; rfl
  | quoted quote inner s hq hi ih =>
    have hne : quote :: (inner ++ [quote]) ≠ [target] := by simp
    rw [items_quoted hq hi, itemOffset?, if_neg hne, ← ih, splitUnquoted_quoted ht hq hi,
      Option.map_map]
    congr 1
    funext p
    simp
    omega
  | single c s h ih =>
    rw [items_single h, itemOffset?]
    by_cases hc : c = target
    · subst hc
      simp [splitUnquoted_self]
    · have hne : [c] ≠ [target] := by simpa using hc
      rw [if_neg hne, ← ih, splitUnquoted_single h hc, Option.map_map]
      congr 1
      funext p
      simp
      omega

/-- Quoted text ends with a quote, so the last character of a text stands in no quotes, unless it is
a quote itself. -/
theorem singleton_mem_items (ht : isQuote target = false) (s : List Char) :
    s.getLast? = some target → [target] ∈ items s := by
  induction s using itemInduction with
  | nil => intro h; cases h
  | quoted quote inner s hq hi ih =>
    intro h
    rw [items_quoted hq hi]
    apply List.mem_cons_of_mem
    cases s with
    | nil =>
      have hquote : quote = target := by simpa [List.getLast?_cons] using h
      rw [hquote, ht] at hq
      cases hq
    | cons d s =>
      apply ih
      simpa [List.getLast?_append, List.getLast?_cons] using h
  | single c s h' ih =>
    intro h
    rw [items_single h']
    cases s with
    | nil =>
      obtain rfl : c = target := by simpa using h
      exact List.mem_cons_self
    | cons d s =>
      apply List.mem_cons_of_mem
      apply ih
      rwa [List.getLast?_cons_cons] at h

theorem splitUnquoted_isSome (ht : isQuote target = false) (h : s.getLast? = some target) :
    (splitUnquoted target s).isSome = true := by
  have hsome := itemOffset?_isSome 0 (singleton_mem_items ht s h)
  rw [← map_splitUnquoted ht, Option.isSome_map] at hsome
  exact hsome

/-! ### The search by byte offsets -/

/-- The text from a byte offset on, if the offset does not fall inside a character or behind the
end. -/
def textFrom? : Nat → List Char → Option (List Char)
  | 0, s => some s
  | _ + 1, [] => none
  | n + 1, c :: s => if c.utf8Size ≤ n + 1 then textFrom? (n + 1 - c.utf8Size) s else none

theorem textFrom?_append (front s : List Char) :
    textFrom? (byteLength front) (front ++ s) = some s := by
  induction front with
  | nil => rw [byteLength_nil, List.nil_append, textFrom?]
  | cons c front ih =>
    have hpos := c.utf8Size_pos
    obtain ⟨n, hn⟩ : ∃ n, byteLength (c :: front) = n + 1 :=
      ⟨c.utf8Size - 1 + byteLength front, by rw [byteLength_cons]; omega⟩
    rw [byteLength_cons] at hn
    rw [byteLength_cons, hn, List.cons_append, textFrom?, if_pos (by omega), ← hn,
      Nat.add_sub_cancel_left, ih]

theorem lt_of_textFrom? {n : Nat} (h : textFrom? n s = some (c :: t)) : n < byteLength s := by
  fun_induction textFrom? n s with
  | case1 s =>
    obtain rfl := Option.some.inj h
    have := c.utf8Size_pos
    rw [byteLength_cons]
    omega
  | case2 n => cases h
  | case3 n d s hd ih =>
    have := ih h
    rw [byteLength_cons]
    omega
  | case4 n d s hd => cases h

/-- How a search by offsets ends. -/
inductive Sought where
  | found (offset : Nat)
  | missing
  /-- The text was asked for at an offset that is not between two characters. -/
  | offBoundary (offset : Nat)
deriving DecidableEq, Repr

/-- The byte offset of the first occurrence of a character. -/
def byteIndex? (c : Char) (s : List Char) : Option Nat :=
  if c ∈ s then some (byteLength (s.takeWhile (· != c))) else none

/-- Searches for the target from an offset on. After a quote of one byte it looks for the same quote
and goes on behind that; without one the quote is an ordinary character. -/
def seekFrom (target : Char) (s : List Char) (offset : Nat) : Sought :=
  match _h : textFrom? offset s with
  | none => .offBoundary offset
  | some [] => .missing
  | some (c :: _) =>
    if c == target then .found offset
    else if isQuote c then
      match textFrom? (offset + 1) s with
      | none => .offBoundary (offset + 1)
      | some rest =>
        match byteIndex? c rest with
        | some close => seekFrom target s (offset + (close + 2))
        | none => seekFrom target s (offset + c.utf8Size)
    else seekFrom target s (offset + c.utf8Size)
termination_by byteLength s - offset
decreasing_by
  all_goals
    have hlt := lt_of_textFrom? _h
    have hpos := c.utf8Size_pos
    omega

theorem seekFrom_of_nil {offset : Nat} (h : textFrom? offset s = some []) :
    seekFrom target s offset = .missing := by
  rw [seekFrom]
  split <;> simp_all

theorem seekFrom_of_target {offset : Nat} (h : textFrom? offset s = some (target :: t)) :
    seekFrom target s offset = .found offset := by
  rw [seekFrom]
  split <;> simp_all

theorem utf8Size_quote (h : isQuote quote = true) : quote.utf8Size = 1 := by
  rw [isQuote, Bool.or_eq_true, beq_iff_eq, beq_iff_eq] at h
  rcases h with rfl | rfl <;> rfl

/-- Quoted text is passed in one step, from its opening quote to behind its closing one. -/
theorem seekFrom_quoted (ht : isQuote target = false) (hq : isQuote quote = true)
    (hi : quote ∉ inner) (front s : List Char) :
    seekFrom target (front ++ quote :: (inner ++ quote :: s)) (byteLength front) =
      seekFrom target (front ++ quote :: (inner ++ quote :: s))
        (byteLength front + byteLength (quote :: (inner ++ [quote]))) := by
  have hsize := utf8Size_quote hq
  have hne : (quote == target) = false := by
    rw [beq_eq_false_iff_ne]
    rintro rfl
    rw [hq] at ht
    cases ht
  have hfirst := textFrom?_append front (quote :: (inner ++ quote :: s))
  have hafter : textFrom? (byteLength front + 1) (front ++ quote :: (inner ++ quote :: s)) =
      some (inner ++ quote :: s) := by
    have h := textFrom?_append (front ++ [quote]) (inner ++ quote :: s)
    simpa [hsize] using h
  have hclose : byteIndex? quote (inner ++ quote :: s) = some (byteLength inner) := by
    rw [byteIndex?, if_pos (by simp), (span_append_cons hi s).1]
  have hlen : byteLength front + (byteLength inner + 2) =
      byteLength front + byteLength (quote :: (inner ++ [quote])) := by
    simp only [byteLength_cons, byteLength_append, byteLength_nil, hsize]
    omega
  rw [seekFrom, ← hlen]
  split
  · simp_all
  · simp_all
  · next c rest h =>
    obtain ⟨rfl, rfl⟩ := List.cons.inj (Option.some.inj (hfirst.symm.trans h))
    simp only [hne, hq, hafter, hclose, Bool.false_eq_true, if_false, if_true]

/-- Any other character is passed alone. -/
theorem seekFrom_single (h : isQuote c = true → c ∉ s) (hc : c ≠ target) (front : List Char) :
    seekFrom target (front ++ c :: s) (byteLength front) =
      seekFrom target (front ++ c :: s) (byteLength front + byteLength [c]) := by
  have hfirst := textFrom?_append front (c :: s)
  have hlen : byteLength front + c.utf8Size = byteLength front + byteLength [c] := by simp
  rw [seekFrom, ← hlen]
  split
  · simp_all
  · simp_all
  · next d rest hd =>
    obtain ⟨rfl, rfl⟩ := List.cons.inj (Option.some.inj (hfirst.symm.trans hd))
    rw [beq_eq_false_iff_ne.mpr hc, if_neg Bool.false_ne_true]
    split
    · next hq =>
      -- The quote does not occur again.
      have hafter : textFrom? (byteLength front + 1) (front ++ c :: s) = some s := by
        have hs := textFrom?_append (front ++ [c]) s
        simpa [utf8Size_quote hq] using hs
      rw [hafter]
      simp only [byteIndex?, if_neg (h hq)]
    · rfl

/-- The answer of a search by offsets that stays between characters. -/
def Sought.ofOffset? : Option Nat → Sought
  | some offset => .found offset
  | none => .missing

theorem seekFrom_items (ht : isQuote target = false) (front rest : List Char) :
    seekFrom target (front ++ rest) (byteLength front) =
      .ofOffset? (itemOffset? target (byteLength front) (items rest)) := by
  induction rest using itemInduction generalizing front with
  | nil =>
    rw [items_nil]
    exact seekFrom_of_nil (textFrom?_append front [])
  | quoted quote inner s hq hi ih =>
    have hne : quote :: (inner ++ [quote]) ≠ [target] := by simp
    have h := ih (front ++ quote :: (inner ++ [quote]))
    simp only [List.append_assoc, List.cons_append, List.nil_append, byteLength_append front] at h
    rw [items_quoted hq hi, itemOffset?, if_neg hne, seekFrom_quoted ht hq hi, ← h]
  | single c s hs ih =>
    rw [items_single hs, itemOffset?]
    by_cases hc : c = target
    · subst hc
      rw [if_pos rfl]
      exact seekFrom_of_target (textFrom?_append front (c :: s))
    · have hne : [c] ≠ [target] := by simpa using hc
      have h := ih (front ++ [c])
      simp only [List.append_assoc, List.cons_append, List.nil_append, byteLength_append front] at h
      rw [if_neg hne, seekFrom_single hs hc, ← h]

theorem getLast?_of_append (h : (s ++ t).getLast? = some c) (hs : c ∉ s) : t.getLast? = some c := by
  cases hl : t.getLast? with
  | none =>
    rw [List.getLast?_append, hl, Option.none_or] at h
    exact absurd (List.mem_of_getLast? h) hs
  | some d => rwa [List.getLast?_append, hl, Option.some_or] at h

theorem getLast?_trimStart (h : s.getLast? = some c) (hc : isBlank c = false) :
    (trimStart s).getLast? = some c := by
  obtain ⟨x, hx, hs⟩ := exists_eq_append_trimStart s
  rw [hs] at h
  exact getLast?_of_append h (hx.not_mem hc)

end TableLint.Text

namespace TableLint.Definition.AttributeLine

open Text

variable {line s t rest name : List Char} {fail : List Char → Expected → Problem}

/-! ### The end of a type -/

/-- The line is read up to its type, which starts at `t`: before it come a name, an optional default
and a colon. -/
def ReachesType (line t : List Char) : Prop :=
  ∃ name afterName default afterDefault afterColon,
    takeName? (trimStart (line ++ ['#'])) = some (name, afterName) ∧
      (∀ fail, takeDefault fail (trimStart afterName) = .ok (default, afterDefault)) ∧
      trimStart afterDefault = ':' :: afterColon ∧ t = trimStart afterColon

theorem getLast?_of_takeName? (h : takeName? s = some (name, rest)) (hs : s.getLast? = some '#') :
    rest.getLast? = some '#' := by
  cases s with
  | nil => cases h
  | cons c s =>
    rw [takeName?] at h
    split at h
    · next hc =>
      cases h
      rw [← List.takeWhile_append_dropWhile (p := isNameChar) (l := s), ← List.cons_append] at hs
      apply getLast?_of_append hs
      intro hm
      rcases List.mem_cons.mp hm with rfl | hm
      · cases hc
      · cases List.mem_takeWhile_imp hm
    · cases h

theorem getLast?_of_takeDefault {default : Option (List Char)}
    (h : takeDefault fail s = .ok (default, rest)) (hs : s.getLast? = some '#') :
    rest.getLast? = some '#' := by
  unfold takeDefault at h
  split at h
  · next s' =>
    split at h
    · next before after hsplit =>
      cases h
      obtain ⟨rfl, hhead⟩ := splitUnquotedFrom_eq_some hsplit
      -- A hash in front of the colon may be the default, but the colon is not the last character.
      obtain ⟨after, rfl⟩ := List.head?_eq_some_iff.mp hhead
      rw [← List.cons_append, List.getLast?_append, List.getLast?_cons, Option.some_or] at hs
      rwa [List.getLast?_cons]
    · cases h
  · cases h
    exact hs

/-- The hash that is put at the end of a line stands behind the start of its type. -/
theorem getLast?_of_reachesType (h : ReachesType line t) : t.getLast? = some '#' := by
  obtain ⟨name, afterName, default, afterDefault, afterColon, hname, hdefault, hcolon, rfl⟩ := h
  have hpadded : (trimStart (line ++ ['#'])).getLast? = some '#' :=
    getLast?_trimStart (by simp) (by decide)
  have hname := getLast?_of_takeName? hname hpadded
  have hdefault := getLast?_of_takeDefault (hdefault fun _ _ => .filepathDisabled)
    (getLast?_trimStart hname (by decide))
  have hcolon' := getLast?_trimStart hdefault (by decide)
  rw [hcolon, ← List.singleton_append] at hcolon'
  exact getLast?_trimStart (getLast?_of_append hcolon' (by decide)) (by decide)

theorem takeDefault_eq_ok {default : Option (List Char)}
    (fail fail' : List Char → Expected → Problem)
    (h : takeDefault fail s = .ok (default, rest)) : takeDefault fail' s = .ok (default, rest) := by
  unfold takeDefault at h ⊢
  split at h
  · split at h
    · exact h
    · cases h
  · exact h

/-- The problem of a line that breaks off where `rest` is left of it. -/
def problemAt (line rest : List Char) (expected : Expected) : Problem :=
  .attributeLine ((line ++ ['#']).length - rest.length) (line ++ ['#']) expected

theorem takeDefault_ne_hash {position : Nat} {text : List Char} :
    takeDefault (problemAt line) s ≠ .error (.attributeLine position text .hash) := by
  unfold takeDefault
  split
  · split
    · exact fun h => by cases h
    · exact fun h => by cases h
  · exact fun h => by cases h

/-- Only after the type can a hash be missing. -/
theorem exists_reachesType_of_hash {position : Nat} {text : List Char}
    (h : parse line = .error (.attributeLine position text .hash)) :
    ∃ t, ReachesType line t ∧
      typeAndComment (problemAt line) t = .error (.attributeLine position text .hash) := by
  rw [parse] at h
  split at h
  · cases h
  · next name afterName hname =>
    split at h
    · next problem hdefault =>
      obtain rfl := Except.error.inj h
      exact absurd hdefault takeDefault_ne_hash
    · next default afterDefault hdefault =>
      split at h
      · next afterColon hcolon =>
        split at h
        · next problem htype =>
          obtain rfl := Except.error.inj h
          refine ⟨trimStart afterColon, ?_, htype⟩
          exact ⟨name, afterName, default, afterDefault, afterColon, hname,
            fun fail => takeDefault_eq_ok _ fail hdefault, hcolon, rfl⟩
        · cases h
      · cases h

/-- A type that is not in angle brackets is read up to a hash if there is one outside quotes. -/
theorem head?_of_typeAndComment_hash {position : Nat} {text : List Char}
    (hs : (splitUnquoted '#' s).isSome = true)
    (h : typeAndComment (problemAt line) s = .error (.attributeLine position text .hash)) :
    s.head? = some '<' := by
  unfold typeAndComment at h
  split at h
  · rfl
  · split at h
    · split at h
      · cases h
      · next hnone =>
        rw [hnone] at hs
        cases hs
    · cases h
  · cases h

/-- For every target that is no quote, such as a colon or a hash, the search from a place between
two characters answers with the first item that is the target, and so does the search by byte
offsets, which never asks for the text at an offset inside a character. On a line that is read as
far as its type, a hash is found from there on, since one is put at the end. So a hash can be
missing only behind a type in angle brackets, which is read without a search. -/
theorem unquotedSearch_firstItem :
    (∀ (target : Char) (front rest : List Char), isQuote target = false →
      seekFrom target (front ++ rest) (byteLength front) =
          .ofOffset? (itemOffset? target (byteLength front) (items rest)) ∧
        (splitUnquoted target rest).map (fun p => byteLength front + byteLength p.1) =
          itemOffset? target (byteLength front) (items rest) ∧
        ∀ before after, splitUnquoted target rest = some (before, after) →
          rest = before ++ after ∧ after.head? = some target) ∧
      (∀ line t, ReachesType line t → (splitUnquoted '#' t).isSome = true) ∧
      ∀ line position text, parse line = .error (.attributeLine position text .hash) →
        ∃ t, ReachesType line t ∧ t.head? = some '<' := by
  have hfound : ∀ line t, ReachesType line t → (splitUnquoted '#' t).isSome = true :=
    fun line t h => splitUnquoted_isSome (by decide) (getLast?_of_reachesType h)
  refine ⟨?_, hfound, ?_⟩
  · intro target front rest ht
    exact ⟨seekFrom_items ht front rest, map_splitUnquoted ht rest _,
      fun before after h => splitUnquotedFrom_eq_some h⟩
  · intro line position text h
    obtain ⟨t, ht, herror⟩ := exists_reachesType_of_hash h
    exact ⟨t, ht, head?_of_typeAndComment_hash (hfound line t ht) herror⟩

/-- A quote that is never closed, one that is, characters of two bytes, and a line whose hash is
missing. -/
theorem unquotedSearch_firstItem_accents :
    (items "'é#' é\"# ".toList =
        ["'é#'".toList, [' '], ['é'], ['"'], ['#'], [' ']] ∧
      seekFrom '#' "é'é#' é\"# ".toList 2 = .found 11) ∧
      (ReachesType "k : enum('#".toList "enum('##".toList ∧
        (splitUnquoted '#' "enum('##".toList).isSome = true) ∧
      ∃ t, ReachesType "k : <a> b".toList t ∧ t.head? = some '<' := by
  obtain ⟨hitems, hfound, hmissing⟩ := unquotedSearch_firstItem
  have hreach : ReachesType "k : enum('#".toList "enum('##".toList :=
    ⟨['k'], _, none, _, _, rfl, fun _ => rfl, rfl, by decide⟩
  refine ⟨⟨by decide +kernel, ?_⟩, ⟨hreach, hfound _ _ hreach⟩, ?_⟩
  · exact (hitems '#' ['é'] "'é#' é\"# ".toList (by decide)).1.trans (by decide +kernel)
  · exact hmissing "k : <a> b".toList 8 "k : <a> b#".toList (by decide +kernel)

end TableLint.Definition.AttributeLine
