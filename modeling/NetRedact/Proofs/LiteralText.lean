import NetRedact.Proofs.Detection

/-!
# The characters of literals

What the shapes of the three kinds have in common as texts: which characters occur, which may stand
at either end, and in which order separators follow each other.  The words and separators of a
literal also determine its kind.
-/

namespace NetRedact.Scan

open NetRedact.Text Pattern

/-- The text has a shape of the kind. -/
def Shaped (kind : AddressKind) (cs : List Char) : Prop :=
  (detectorOf kind).pattern.Matches cs

theorem shaped_ipv4_iff (cs : List Char) : Shaped .ipv4 cs ↔ QuadShape cs :=
  quadPattern_matches_iff cs

theorem shaped_ipv6_iff (cs : List Char) : Shaped .ipv6 cs ↔ Ipv6Shape cs :=
  ipv6Pattern_matches_iff cs

theorem shaped_mac_iff (cs : List Char) : Shaped .mac cs ↔ MacShape cs :=
  macPattern_matches_iff cs

theorem shaped_of_isLiteral {kind : AddressKind} {cs : List Char} (h : IsLiteral kind cs) :
    Shaped kind cs := by
  obtain ⟨_, hmatches, -⟩ := (isLiteral_iff kind cs).mp h
  exact hmatches

/-- A MAC literal is a row of non-empty words with one separator. -/
theorem macShape_joined {cs : List Char} (h : MacShape cs) :
    ∃ s count width, isSeparator s = true ∧ 2 ≤ count ∧ 0 < width ∧
      Joined s count isHexDigit width width cs ∧
      (s ≠ '.' → (detectorOf .mac).blocked.contains s = true) := by
  rcases h with h | h | h
  · exact ⟨':', 6, 2, rfl, by decide, by decide, h, fun _ => rfl⟩
  · exact ⟨'-', 6, 2, rfl, by decide, by decide, h, fun _ => rfl⟩
  · exact ⟨'.', 3, 4, rfl, by decide, by decide, h, fun hdot => absurd rfl hdot⟩

/-! ## Characters -/

/-- Every character is a digit, a dot, or a separator that the kind's detector blocks. -/
theorem Shaped.literalChar {kind : AddressKind} {cs : List Char} (h : Shaped kind cs) :
    ∀ c ∈ cs, LiteralChar (detectorOf kind).blocked c := by
  intro c hc
  cases kind with
  | ipv4 =>
      rcases quadShape_chars ((shaped_ipv4_iff cs).mp h) c hc with hdigit | rfl
      · exact Or.inl (isHexDigit_of_isDigit hdigit)
      · exact Or.inr (Or.inl rfl)
  | ipv6 =>
      rcases ipv6Shape_chars ((shaped_ipv6_iff cs).mp h) c hc with hhex | rfl | rfl
      · exact Or.inl hhex
      · exact Or.inr (Or.inl rfl)
      · exact Or.inr (Or.inr ⟨by decide, rfl⟩)
  | mac =>
      obtain ⟨s, count, width, hs, -, -, hjoined, hblocked⟩ := macShape_joined ((shaped_mac_iff cs).mp h)
      rcases joined_chars hjoined c hc with hhex | rfl
      · exact Or.inl hhex
      · by_cases hdot : c = '.'
        · exact Or.inr (Or.inl hdot)
        · exact Or.inr (Or.inr ⟨hdot, hblocked hdot⟩)

theorem Shaped.dotsEnclosed {kind : AddressKind} {cs : List Char} (h : Shaped kind cs) :
    DotsEnclosed cs := by
  cases kind with
  | ipv4 => exact quadShape_dotsEnclosed ((shaped_ipv4_iff cs).mp h)
  | ipv6 => exact ipv6Shape_dotsEnclosed ((shaped_ipv6_iff cs).mp h)
  | mac =>
      obtain ⟨s, count, width, -, -, hwidth, hjoined, -⟩ := macShape_joined ((shaped_mac_iff cs).mp h)
      by_cases hdot : s = '.'
      · subst hdot
        exact dotsEnclosed_of_joined (fun _ => id) hwidth hjoined
      · refine dotsEnclosed_of_not_mem ?_
        intro hmem
        rcases joined_chars hjoined '.' hmem with hhex | heq
        · exact absurd hhex (by decide)
        · exact hdot heq.symm

theorem Shaped.ne_nil {kind : AddressKind} {cs : List Char} (h : Shaped kind cs) : cs ≠ [] := by
  rintro rfl
  exact (detectorOf_faithful kind).nonempty h

/-- A literal has a separator. -/
theorem Shaped.exists_separator {kind : AddressKind} {cs : List Char} (h : Shaped kind cs) :
    ∃ s ∈ cs, isSeparator s = true := by
  cases kind with
  | ipv4 =>
      obtain ⟨word, rest, -, rfl⟩ := joined_cases (by decide) ((shaped_ipv4_iff cs).mp h)
      exact ⟨'.', by simp, rfl⟩
  | ipv6 =>
      obtain ⟨groups, last, hleast, -, -, -, rfl⟩ := (shaped_ipv6_iff cs).mp h
      match groups, hleast with
      | first :: second :: groups, _ => exact ⟨':', by simp [joinWith_cons_cons], rfl⟩
  | mac =>
      obtain ⟨s, count, width, hs, hcount, -, hjoined, -⟩ := macShape_joined ((shaped_mac_iff cs).mp h)
      obtain ⟨word, rest, -, rfl⟩ := joined_cases hcount hjoined
      exact ⟨s, by simp, hs⟩

/-- An IPv6 literal has a colon. -/
theorem colon_mem_of_shaped {cs : List Char} (h : Shaped .ipv6 cs) : ':' ∈ cs := by
  obtain ⟨groups, last, hleast, -, -, -, rfl⟩ := (shaped_ipv6_iff cs).mp h
  match groups, hleast with
  | first :: second :: groups, _ => simp [joinWith_cons_cons]

/-! ## Order of separators -/

/-- Dots stand in the last word of an IPv6 literal only, and a dotted quad has no colon. -/
theorem colon_not_mem_behind_dot {front back : List Char} (h : Ipv6Shape (front ++ '.' :: back)) :
    ':' ∉ back := by
  obtain ⟨groups, last, -, -, hgroups, hlast, heq⟩ := h
  rw [joinWith_concat] at heq
  obtain ⟨middle, hmiddle⟩ : ∃ middle, last = middle ++ '.' :: back := by
    rcases List.append_eq_append_iff.mp heq with ⟨middle, hfront, hback⟩ | ⟨middle, -, hback⟩
    · cases middle with
      | nil => exact ⟨[], by simpa using hback.symm⟩
      | cons d middle =>
          obtain ⟨rfl, -⟩ : '.' = d ∧ back = middle ++ last := by simpa using hback
          exact absurd (by rw [hfront]; simp) (dot_not_mem_groups hgroups)
    · exact ⟨middle, hback⟩
  subst hmiddle
  rcases hlast with hquad | hrun
  · intro hmem
    rcases quadShape_chars hquad ':' (by simp [hmem]) with hdigit | heq
    · exact absurd hdigit (by decide)
    · exact absurd heq (by decide)
  · exact absurd (hrun.1 '.' (by simp)) (by decide)

/-- Behind a separator the same one follows, except that dots may follow a colon of an IPv6
literal. -/
theorem Shaped.separator_order {kind : AddressKind} {front back : List Char} {s c : Char}
    (h : Shaped kind (front ++ s :: back)) (hs : isSeparator s = true) (hc : c ∈ back)
    (hsep : isSeparator c = true) : c = s ∨ kind = .ipv6 ∧ s = ':' ∧ c = '.' := by
  have hsame : ∀ {t : Char}, (∀ d ∈ front ++ s :: back, isHexDigit d = true ∨ d = t) → c = s := by
    intro t hchars
    have hs' := (hchars s (by simp)).resolve_left (by
      rw [isHexDigit_eq_false_of_isSeparator hs]
      exact Bool.false_ne_true)
    have hc' := (hchars c (by simp [hc])).resolve_left (by
      rw [isHexDigit_eq_false_of_isSeparator hsep]
      exact Bool.false_ne_true)
    rw [hs', hc']
  cases kind with
  | ipv4 =>
      refine Or.inl (hsame (t := '.') fun d hd => ?_)
      exact (quadShape_chars ((shaped_ipv4_iff _).mp h) d hd).imp isHexDigit_of_isDigit id
  | mac =>
      obtain ⟨t, count, width, -, -, -, hjoined, -⟩ := macShape_joined ((shaped_mac_iff _).mp h)
      exact Or.inl (hsame (joined_chars hjoined))
  | ipv6 =>
      -- Colons and dots mix here, and what has to be excluded is a colon behind a dot.
      have hshape := (shaped_ipv6_iff _).mp h
      have hchars := ipv6Shape_chars hshape
      rcases hchars c (by simp [hc]) with hhex | rfl | rfl
      · rw [isHexDigit_eq_false_of_isSeparator hsep] at hhex
        contradiction
      · rcases hchars s (by simp) with hhex | rfl | rfl
        · rw [isHexDigit_eq_false_of_isSeparator hs] at hhex
          contradiction
        · exact Or.inl rfl
        · exact Or.inr ⟨rfl, rfl, rfl⟩
      · rcases hchars s (by simp) with hhex | rfl | rfl
        · rw [isHexDigit_eq_false_of_isSeparator hs] at hhex
          contradiction
        · exact absurd hc (colon_not_mem_behind_dot hshape)
        · exact Or.inl rfl

/-! ## Ends and words -/

theorem Shaped.char_cases {kind : AddressKind} {cs : List Char} (h : Shaped kind cs) :
    ∀ c ∈ cs, isHexDigit c = true ∨ isSeparator c = true := by
  intro c hc
  rcases h.literalChar c hc with hhex | rfl | ⟨-, hblocked⟩
  · exact Or.inl hhex
  · exact Or.inr rfl
  · refine Or.inr ((isSeparator_iff c).mpr ?_)
    cases kind <;> simp [detectorOf, Detector.ipv4, Detector.ipv6, Detector.mac] at hblocked
    · exact Or.inr (Or.inl hblocked)
    · exact Or.inr hblocked

/-- A literal does not begin with a dot. -/
theorem Shaped.head_ne_dot {kind : AddressKind} {cs : List Char} (h : Shaped kind ('.' :: cs)) :
    False := by
  obtain ⟨⟨inner, d, hinner, -⟩, -⟩ := h.dotsEnclosed [] cs rfl
  simp at hinner

/-- A literal does not end with a dot. -/
theorem Shaped.last_ne_dot {kind : AddressKind} {cs : List Char} (h : Shaped kind (cs ++ ['.'])) :
    False := by
  obtain ⟨-, d, inner, hinner, -⟩ := h.dotsEnclosed cs [] rfl
  simp at hinner

/-- A MAC literal begins with a digit. -/
theorem isHexDigit_of_shaped_mac {c : Char} {cs : List Char} (h : Shaped .mac (c :: cs)) :
    isHexDigit c = true := by
  obtain ⟨s, count, width, -, hcount, hwidth, hjoined, -⟩ := macShape_joined ((shaped_mac_iff _).mp h)
  obtain ⟨word, rest, hword, heq⟩ := joined_cases hcount hjoined
  obtain ⟨d, inner, rfl, hd⟩ := exists_cons_of_run hword hwidth
  obtain ⟨rfl, -⟩ : c = d ∧ cs = inner ++ s :: rest := by simpa using heq
  exact hd

/-- A word of a dotted quad has at most three digits. -/
theorem length_le_of_quadShape {front word : List Char} (h : QuadShape (front ++ '.' :: word))
    (hword : '.' ∉ word) : word.length ≤ 3 := by
  obtain ⟨words, -, hwords, heq⟩ := h
  obtain ⟨before, after, rfl, -, hafter, -, rfl⟩ := joinWith_eq_append_cons
    (fun w hw => not_mem_of_run (hwords w hw) (by decide)) heq.symm
  match after, hafter with
  | [w], _ =>
      rw [joinWith_singleton]
      exact (hwords w (by simp)).2.2
  | w :: next :: later, _ =>
      rw [joinWith_cons_cons] at hword
      exact absurd (by simp) hword

/-- Rows of words that make up one text have the same separator and the same number of words. -/
theorem joined_unique {s s' : Char} {count count' least least' most most' : Nat} {cs : List Char}
    (hs : isSeparator s = true) (hs' : isSeparator s' = true) (hcount : 2 ≤ count)
    (hcount' : 2 ≤ count') (h : Joined s count isHexDigit least most cs)
    (h' : Joined s' count' isHexDigit least' most' cs) : s = s' ∧ count = count' := by
  have hsame : s = s' := by
    obtain ⟨word, rest, hword, rfl⟩ := joined_cases hcount h
    obtain ⟨word', rest', hword', heq⟩ := joined_cases hcount' h'
    obtain ⟨-, hrest⟩ := run_append_inj heq hword.1 hword'.1
      (stopsAt_cons (isHexDigit_eq_false_of_isSeparator hs) _)
      (stopsAt_cons (isHexDigit_eq_false_of_isSeparator hs') _)
    exact (List.cons.inj hrest).1
  subst hsame
  refine ⟨rfl, ?_⟩
  obtain ⟨words, rfl, hwords, rfl⟩ := h
  obtain ⟨words', rfl, hwords', heq⟩ := h'
  have hfree : ∀ {w : List Char} {least most : Nat}, Run isHexDigit least most w → s ∉ w :=
    fun hw => not_mem_of_run hw (isHexDigit_eq_false_of_isSeparator hs)
  rw [joinWith_inj (fun w hw => hfree (hwords w hw)) (fun w hw => hfree (hwords' w hw))
    (by rintro rfl; simp at hcount) (by rintro rfl; simp at hcount') heq]

end NetRedact.Scan
