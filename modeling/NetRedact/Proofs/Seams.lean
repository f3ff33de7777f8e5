import NetRedact.Proofs.Shapes

/-!
# Inner places of literals

Every character of a literal is a digit, a separator that the literal's detector blocks, or a dot
between two digits.  So a side that ends at an inner place of a literal is never clear.  A search
that goes on behind a hit can therefore miss no literal: one that begins inside of the hit would not
be clear in front.
-/

namespace NetRedact.Scan

open NetRedact.Text

/-- Every dot stands between two digits. -/
def DotsEnclosed (cs : List Char) : Prop :=
  ∀ front back, cs = front ++ '.' :: back →
    (∃ inner d, front = inner ++ [d] ∧ isHexDigit d = true) ∧
      ∃ d inner, back = d :: inner ∧ isHexDigit d = true

theorem dotsEnclosed_of_not_mem {cs : List Char} (h : '.' ∉ cs) : DotsEnclosed cs := by
  rintro front back rfl
  exact absurd (by simp) h

theorem dotsEnclosed_append {xs ys : List Char} (hx : DotsEnclosed xs) (hy : DotsEnclosed ys) :
    DotsEnclosed (xs ++ ys) := by
  intro front back h
  rcases List.append_eq_append_iff.mp h with ⟨middle, hfront, hys⟩ | ⟨middle, hxs, hback⟩
  · obtain ⟨⟨inner, d, hinner, hd⟩, hafter⟩ := hy middle back hys
    exact ⟨⟨xs ++ inner, d, by rw [hfront, hinner, List.append_assoc], hd⟩, hafter⟩
  · cases middle with
    | nil =>
        obtain ⟨⟨inner, d, hinner, -⟩, -⟩ := hy [] back (by simpa using hback.symm)
        simp at hinner
    | cons c middle =>
        obtain ⟨rfl, rfl⟩ : '.' = c ∧ back = middle ++ ys := by simpa using hback
        obtain ⟨hbefore, d, inner, rfl, hd⟩ := hx front middle hxs
        exact ⟨hbefore, d, inner ++ ys, rfl, hd⟩

theorem mem_joinWith {s c : Char} {words : List (List Char)} (h : c ∈ joinWith [s] words) :
    c = s ∨ ∃ word ∈ words, c ∈ word := by
  cases words with
  | nil => simp [joinWith] at h
  | cons word words =>
      simp only [joinWith, List.mem_append, List.mem_flatMap, List.mem_singleton] at h
      rcases h with hword | ⟨other, hother, rfl | hc⟩
      · exact Or.inr ⟨word, by simp, hword⟩
      · exact Or.inl rfl
      · exact Or.inr ⟨other, by simp [hother], hc⟩

theorem not_mem_of_run {test : Char → Bool} {least most : Nat} {word : List Char} {s : Char}
    (hrun : Run test least most word) (hs : test s = false) : s ∉ word := by
  intro hmem
  rw [hrun.1 s hmem] at hs
  contradiction

/-- The last word of a join is its end. -/
theorem joinWith_getLast (s : Char) {words : List (List Char)} (hne : words ≠ []) :
    ∃ front last, last ∈ words ∧ joinWith [s] words = front ++ last := by
  rcases List.eq_nil_or_concat' words with rfl | ⟨before, last, rfl⟩
  · exact absurd rfl hne
  · exact ⟨before.flatMap (· ++ [s]), last, by simp, joinWith_concat s before last⟩

/-- Dots that join non-empty words stand between digits. -/
theorem dotsEnclosed_of_joined {count least most : Nat} {test : Char → Bool} {cs : List Char}
    (htest : ∀ c, test c = true → isHexDigit c = true) (hleast : 0 < least)
    (h : Joined '.' count test least most cs) : DotsEnclosed cs := by
  obtain ⟨words, -, hwords, rfl⟩ := h
  have hdot : test '.' = false := by
    cases hvalue : test '.' with
    | false => rfl
    | true => exact absurd (htest _ hvalue) (by decide)
  intro front back hsplit
  obtain ⟨before, after, rfl, hbefore, hafter, rfl, rfl⟩ :=
    joinWith_eq_append_cons (fun word hword => not_mem_of_run (hwords word hword) hdot) hsplit
  -- The dot cuts the words in two, and its neighbours are the last digit of the words before it and
  -- the first digit of the words behind it.
  constructor
  · obtain ⟨start, last, hlast, hjoin⟩ := joinWith_getLast '.' hbefore
    have hrun := hwords last (by simp [hlast])
    rcases List.eq_nil_or_concat' last with rfl | ⟨inner, d, rfl⟩
    · have := hrun.2.1
      simp only [List.length_nil] at this
      omega
    · exact ⟨start ++ inner, d, by rw [hjoin, List.append_assoc], htest d (hrun.1 d (by simp))⟩
  · cases after with
    | nil => exact absurd rfl hafter
    | cons word words =>
        obtain ⟨rest, hjoin, -⟩ := joinWith_cons '.' word words
        have hrun := hwords word (by simp)
        cases word with
        | nil =>
            have := hrun.2.1
            simp only [List.length_nil] at this
            omega
        | cons d inner =>
            exact ⟨d, inner ++ rest, by rw [hjoin, List.cons_append], htest d (hrun.1 d (by simp))⟩

/-- At no inner place of the text is a side clear. -/
structure Linked (blocked cs : List Char) : Prop where
  /-- What ends there is not clear behind itself. -/
  before : ∀ front back beyond, cs = front ++ back → front ≠ [] →
    isClear blocked (front.reverse ++ beyond) = false
  /-- What begins there is not clear in front of itself. -/
  after : ∀ front back beyond, cs = front ++ back → back ≠ [] →
    isClear blocked (back ++ beyond) = false

/-- The characters of a literal of a detector that blocks the given separators. -/
def LiteralChar (blocked : List Char) (c : Char) : Prop :=
  isHexDigit c = true ∨ c = '.' ∨ (c ≠ '.' ∧ blocked.contains c = true)

private theorem isClear_of_literalChar {blocked : List Char} {c : Char} (hc : LiteralChar blocked c)
    (hdot : c ≠ '.') (beyond : List Char) : isClear blocked (c :: beyond) = false := by
  rcases hc with hhex | rfl | ⟨-, hblocked⟩
  · exact isClear_word (isWord_of_isHexDigit hhex) _ _
  · exact absurd rfl hdot
  · exact isClear_blocked hdot hblocked _

theorem linked_of_literalChar {blocked cs : List Char} (hchars : ∀ c ∈ cs, LiteralChar blocked c)
    (hdots : DotsEnclosed cs) : Linked blocked cs := by
  constructor
  · intro front back beyond hcs hne
    rcases List.eq_nil_or_concat' front with rfl | ⟨inner, c, rfl⟩
    · exact absurd rfl hne
    · rw [List.reverse_append]
      by_cases hc : c = '.'
      · subst hc
        obtain ⟨⟨inner', d, rfl, hd⟩, -⟩ := hdots inner back (by simpa using hcs)
        simpa using isClear_dot_word (isWord_of_isHexDigit hd) blocked (inner'.reverse ++ beyond)
      · exact isClear_of_literalChar (hchars c (by rw [hcs]; simp)) hc _
  · intro front back beyond hcs hne
    cases back with
    | nil => exact absurd rfl hne
    | cons c back =>
        by_cases hc : c = '.'
        · subst hc
          obtain ⟨-, d, inner, rfl, hd⟩ := hdots front back hcs
          exact isClear_dot_word (isWord_of_isHexDigit hd) blocked (inner ++ beyond)
        · exact isClear_of_literalChar (hchars c (by rw [hcs]; simp)) hc _

/-! ## The three shapes are linked -/

theorem quadShape_dotsEnclosed {cs : List Char} (h : QuadShape cs) : DotsEnclosed cs :=
  dotsEnclosed_of_joined (fun _ => isHexDigit_of_isDigit) Nat.one_pos h

/-- A dotted quad consists of digits and dots. -/
theorem quadShape_chars {cs : List Char} (h : QuadShape cs) :
    ∀ c ∈ cs, c.isDigit = true ∨ c = '.' := by
  obtain ⟨words, -, hwords, rfl⟩ := h
  intro c hc
  rcases mem_joinWith hc with rfl | ⟨word, hword, hc⟩
  · exact Or.inr rfl
  · exact Or.inl ((hwords word hword).1 c hc)

theorem quadShape_linked {cs : List Char} (h : QuadShape cs) : Linked [] cs := by
  refine linked_of_literalChar ?_ (quadShape_dotsEnclosed h)
  intro c hc
  rcases quadShape_chars h c hc with hdigit | rfl
  · exact Or.inl (isHexDigit_of_isDigit hdigit)
  · exact Or.inr (Or.inl rfl)

/-- An IPv6 literal consists of digits, colons and dots. -/
theorem ipv6Shape_chars {cs : List Char} (h : Ipv6Shape cs) :
    ∀ c ∈ cs, isHexDigit c = true ∨ c = '.' ∨ c = ':' := by
  obtain ⟨groups, last, -, -, hgroups, hlast, rfl⟩ := h
  intro c hc
  rcases mem_joinWith hc with rfl | ⟨word, hword, hmem⟩
  · exact Or.inr (Or.inr rfl)
  · rcases List.mem_append.mp hword with hgroup | hword
    · exact Or.inl ((hgroups word hgroup).1 c hmem)
    · obtain rfl := List.mem_singleton.mp hword
      rcases hlast with hquad | hrun
      · rcases quadShape_chars hquad c hmem with hdigit | rfl
        · exact Or.inl (isHexDigit_of_isDigit hdigit)
        · exact Or.inr (Or.inl rfl)
      · exact Or.inl (hrun.1 c hmem)

/-- The groups in front of the last word have no dot. -/
theorem dot_not_mem_groups {groups : List (List Char)}
    (hgroups : ∀ group ∈ groups, Run isHexDigit 0 4 group) :
    '.' ∉ groups.flatMap (· ++ [':']) := by
  simp only [List.mem_flatMap, List.mem_append, List.mem_singleton, not_exists, not_and, not_or]
  intro group hgroup
  exact ⟨not_mem_of_run (hgroups group hgroup) (by decide), by decide⟩

theorem ipv6Shape_dotsEnclosed {cs : List Char} (h : Ipv6Shape cs) : DotsEnclosed cs := by
  obtain ⟨groups, last, -, -, hgroups, hlast, rfl⟩ := h
  rw [joinWith_concat]
  refine dotsEnclosed_append (dotsEnclosed_of_not_mem (dot_not_mem_groups hgroups)) ?_
  rcases hlast with hquad | hrun
  · exact quadShape_dotsEnclosed hquad
  · exact dotsEnclosed_of_not_mem (not_mem_of_run hrun (by decide))

theorem ipv6Shape_linked {cs : List Char} (h : Ipv6Shape cs) : Linked [':'] cs := by
  refine linked_of_literalChar ?_ (ipv6Shape_dotsEnclosed h)
  intro c hc
  rcases ipv6Shape_chars h c hc with hhex | rfl | rfl
  · exact Or.inl hhex
  · exact Or.inr (Or.inl rfl)
  · exact Or.inr (Or.inr ⟨by decide, rfl⟩)

theorem joined_chars {s : Char} {count least most : Nat} {cs : List Char}
    (h : Joined s count isHexDigit least most cs) : ∀ c ∈ cs, isHexDigit c = true ∨ c = s := by
  obtain ⟨words, -, hwords, rfl⟩ := h
  intro c hc
  rcases mem_joinWith hc with rfl | ⟨word, hword, hc⟩
  · exact Or.inr rfl
  · exact Or.inl ((hwords word hword).1 c hc)

theorem macShape_linked {cs : List Char} (h : MacShape cs) : Linked [':', '-'] cs := by
  have hpairs : ∀ s, s ≠ '.' → [':', '-'].contains s = true →
      Joined s 6 isHexDigit 2 2 cs → Linked [':', '-'] cs := by
    intro s hdot hs hjoined
    refine linked_of_literalChar ?_ (dotsEnclosed_of_not_mem ?_)
    · intro c hc
      rcases joined_chars hjoined c hc with hhex | rfl
      · exact Or.inl hhex
      · exact Or.inr (Or.inr ⟨hdot, hs⟩)
    · intro hmem
      rcases joined_chars hjoined '.' hmem with hhex | heq
      · exact absurd hhex (by decide)
      · exact hdot heq.symm
  rcases h with hcolon | hhyphen | hdotted
  · exact hpairs ':' (by decide) rfl hcolon
  · exact hpairs '-' (by decide) rfl hhyphen
  · refine linked_of_literalChar ?_ (dotsEnclosed_of_joined (fun _ h => h) (by decide) hdotted)
    intro c hc
    rcases joined_chars hdotted c hc with hhex | rfl
    · exact Or.inl hhex
    · exact Or.inr (Or.inl rfl)

end NetRedact.Scan
