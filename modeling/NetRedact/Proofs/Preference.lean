import NetRedact.Proofs.Seams

/-!
# Preferred matches end where literals end

Of several matches at one place a pattern takes one, in the order of its choices and repetitions.
Where a literal stands there and the text behind it is clear, the match taken is the literal as a
whole: no repetition can go on behind it, and none has to give way inside of it.
-/

namespace NetRedact.Scan

open NetRedact.Text Pattern

/-- A clear text does not begin with a digit. -/
theorem stopsAt_of_isClear {blocked cs : List Char} (h : isClear blocked cs = true) :
    StopsAt isHexDigit cs := by
  cases cs with
  | nil => exact stopsAt_nil _
  | cons c cs =>
      refine stopsAt_cons ?_ cs
      cases hc : isHexDigit c with
      | false => rfl
      | true =>
          rw [isClear_word (isWord_of_isHexDigit hc)] at h
          contradiction

theorem stopsAt_isDigit {cs : List Char} (h : StopsAt isHexDigit cs) : StopsAt Char.isDigit cs := by
  intro c hc
  cases hdigit : c.isDigit with
  | false => rfl
  | true =>
      have := h c hc
      rw [isHexDigit_of_isDigit hdigit] at this
      contradiction

/-- A non-empty run begins with a character of its class. -/
theorem exists_cons_of_run {test : Char → Bool} {least most : Nat} {cs : List Char}
    (hrun : Run test least most cs) (hleast : 0 < least) :
    ∃ c rest, cs = c :: rest ∧ test c = true := by
  cases cs with
  | nil =>
      have := hrun.2.1
      simp only [List.length_nil] at this
      omega
  | cons c rest => exact ⟨c, rest, rfl, hrun.1 c (by simp)⟩

theorem run_mono {test test' : Char → Bool} {least most least' most' : Nat} {cs : List Char}
    (h : Run test least most cs) (htest : ∀ c, test c = true → test' c = true)
    (hleast : least' ≤ least) (hmost : most ≤ most') : Run test' least' most' cs :=
  ⟨fun c hc => htest c (h.1 c hc), Nat.le_trans hleast h.2.1, Nat.le_trans h.2.2 hmost⟩

/-! ## Dotted quads -/

/-- A dotted quad begins with a run of digits, then a dot, then a digit. -/
theorem quadShape_cases {cs : List Char} (h : QuadShape cs) :
    ∃ word d rest, Run Char.isDigit 1 3 word ∧ d.isDigit = true ∧ cs = word ++ '.' :: d :: rest := by
  obtain ⟨words, hlength, hwords, rfl⟩ := h
  match words, hlength with
  | [a, b, c, e], _ =>
      obtain ⟨d, rest, rfl, hd⟩ := exists_cons_of_run (hwords b (by simp)) Nat.one_pos
      exact ⟨a, d, _, hwords a (by simp), hd, by simp [joinWith_cons_cons]; rfl⟩

private theorem prefers_preceded {words : List (List Char)} {back : List Char}
    (hwords : ∀ word ∈ words, Run Char.isDigit 1 3 word) (hback : StopsAt Char.isDigit back) :
    Prefers (rep (seq (char '.') (rep (one Char.isDigit) 1 3)) words.length words.length)
      (words.flatMap (['.'] ++ ·)) back := by
  induction words with
  | nil => exact prefers_rep_nil (Or.inl rfl)
  | cons word words ih =>
      have hstop : StopsAt Char.isDigit (words.flatMap (['.'] ++ ·) ++ back) := by
        cases words with
        | nil => exact hback
        | cons next words => exact stopsAt_cons (by decide) _
      have hfirst : Prefers (seq (char '.') (rep (one Char.isDigit) 1 3)) (['.'] ++ word)
          (words.flatMap (['.'] ++ ·) ++ back) :=
        prefers_seq (prefers_one rfl _) (prefers_run (hwords word (by simp)) hstop)
      exact prefers_rep_append hfirst (ih fun w hw => hwords w (by simp [hw]))

theorem prefers_quad {cs back : List Char} (h : QuadShape cs) (hback : StopsAt Char.isDigit back) :
    Prefers quadPattern cs back := by
  obtain ⟨words, hlength, hwords, rfl⟩ := h
  match words, hlength with
  | word :: words, hlength =>
      obtain hthree : words.length = 3 := by simpa using hlength
      have hstop : StopsAt Char.isDigit (words.flatMap (['.'] ++ ·) ++ back) := by
        cases words with
        | nil => simp at hthree
        | cons next words => exact stopsAt_cons (by decide) _
      have hrun : ∀ w ∈ words, Run Char.isDigit 1 3 w := fun w hw => hwords w (by simp [hw])
      have hrest := prefers_preceded hrun hback
      rw [hthree] at hrest
      exact prefers_seq (prefers_run (hwords word (by simp)) hstop) hrest

/-! ## IPv6 literals -/

private theorem prefers_groups {groups : List (List Char)} {least most : Nat} {back : List Char}
    (hgroups : ∀ group ∈ groups, Run isHexDigit 0 4 group) (hleast : least ≤ groups.length)
    (hmost : groups.length ≤ most)
    (hback : (seq (rep (one isHexDigit) 0 4) (char ':')).lengths back = []) :
    Prefers (rep (seq (rep (one isHexDigit) 0 4) (char ':')) least most)
      (groups.flatMap (· ++ [':'])) back := by
  induction groups generalizing least most with
  | nil =>
      obtain rfl : least = 0 := by simpa using hleast
      exact prefers_rep_nil (Or.inr hback)
  | cons group groups ih =>
      cases most with
      | zero => simp at hmost
      | succ most =>
          simp only [List.length_cons] at hleast hmost
          have hfirst : Prefers (seq (rep (one isHexDigit) 0 4) (char ':')) (group ++ [':'])
              (groups.flatMap (· ++ [':']) ++ back) :=
            prefers_seq (prefers_run (hgroups group (by simp)) (stopsAt_cons (by decide) _))
              (prefers_one rfl _)
          exact prefers_rep_append hfirst
            (ih (fun g hg => hgroups g (by simp [hg])) (by omega) (by omega))

/-- No further group with a colon follows where an IPv6 literal ends. -/
private theorem group_lengths_eq_nil {last back : List Char}
    (hlast : QuadShape last ∨ Run isHexDigit 0 4 last) (hback : isClear [':'] back = true) :
    (seq (rep (one isHexDigit) 0 4) (char ':')).lengths (last ++ back) = [] := by
  rw [lengths_eq_nil_iff]
  rintro _ rest hsplit ⟨word, colon, rfl, hword, hcolon⟩
  obtain rfl := (matches_char_iff _ _).mp hcolon
  obtain ⟨hhex, -, -⟩ := (matches_run_iff _ _ _ _).mp hword
  rw [List.append_assoc, List.singleton_append] at hsplit
  rcases hlast with hquad | hrun
  · obtain ⟨octet, d, more, hoctet, -, rfl⟩ := quadShape_cases hquad
    have hdots := run_append_inj (by simpa using hsplit)
      (fun c hc => isHexDigit_of_isDigit (hoctet.1 c hc)) hhex (stopsAt_cons (by decide) _)
      (stopsAt_cons (by decide) rest)
    simp at hdots
  · obtain ⟨-, rfl⟩ := run_append_inj hsplit hrun.1 hhex (stopsAt_of_isClear hback)
      (stopsAt_cons (by decide) rest)
    rw [isClear_blocked (by decide) rfl] at hback
    contradiction

/-- Where a group ends against a clear text there is no dotted quad. -/
private theorem quad_lengths_eq_nil {last back : List Char} (hlast : Run isHexDigit 0 4 last)
    (hback : isClear [':'] back = true) : quadPattern.lengths (last ++ back) = [] := by
  rw [lengths_eq_nil_iff]
  intro front rest hsplit hmatch
  obtain ⟨octet, d, more, hoctet, hd, rfl⟩ := quadShape_cases ((quadPattern_matches_iff _).mp hmatch)
  have hcut : last ++ back = octet ++ '.' :: d :: (more ++ rest) := by simpa using hsplit
  obtain ⟨-, rfl⟩ := run_append_inj hcut hlast.1 (fun c hc => isHexDigit_of_isDigit (hoctet.1 c hc)) (stopsAt_of_isClear hback)
    (stopsAt_cons (by decide) _)
  rw [isClear_dot_word (isWord_of_isHexDigit (isHexDigit_of_isDigit hd))] at hback
  contradiction

private theorem prefers_last {last back : List Char}
    (hlast : QuadShape last ∨ Run isHexDigit 0 4 last) (hback : isClear [':'] back = true) :
    Prefers (.optional (.alt quadPattern (.rep (.one isHexDigit) 1 4))) last back := by
  have hstop := stopsAt_of_isClear hback
  have htake : Prefers (.alt quadPattern (.rep (.one isHexDigit) 1 4)) last back →
      Prefers (.optional (.alt quadPattern (.rep (.one isHexDigit) 1 4))) last back := by
    intro hbody
    have hone : Prefers (.alt quadPattern (.rep (.one isHexDigit) 1 4)) last ([] ++ back) := hbody
    have hnone : Prefers (.rep (.alt quadPattern (.rep (.one isHexDigit) 1 4)) (0 - 1) 0) [] back :=
      prefers_rep_nil (Or.inl rfl)
    simpa [Pattern.optional] using prefers_rep_append hone hnone
  rcases hlast with hquad | hrun
  · exact htake (prefers_alt_left (prefers_quad hquad (stopsAt_isDigit hstop)))
  · have hquad := quad_lengths_eq_nil hrun hback
    cases last with
    | cons c last =>
        exact htake (prefers_alt_right hquad (prefers_run ⟨hrun.1, by simp, hrun.2.2⟩ hstop))
    | nil =>
        refine prefers_rep_nil (Or.inr ?_)
        rw [lengths_eq_nil_iff]
        rintro front rest rfl (hmatch | hmatch)
        · exact (lengths_eq_nil_iff _ _).mp hquad front rest rfl hmatch
        · obtain ⟨c, word, rfl, hc⟩ :=
            exists_cons_of_run ((matches_run_iff _ _ _ _).mp hmatch) Nat.one_pos
          rw [hstop c rfl] at hc
          contradiction

theorem prefers_ipv6 {cs back : List Char} (h : Ipv6Shape cs) (hback : isClear [':'] back = true) :
    Prefers ipv6Pattern cs back := by
  obtain ⟨groups, last, hleast, hmost, hgroups, hlast, rfl⟩ := h
  rw [joinWith_concat]
  exact prefers_seq
    (prefers_groups hgroups hleast hmost (group_lengths_eq_nil hlast hback))
    (prefers_last hlast hback)

/-! ## MAC literals -/

theorem joinWith_length (s : Char) {words : List (List Char)} {n : Nat} (hne : words ≠ [])
    (hwords : ∀ word ∈ words, word.length = n) :
    (joinWith [s] words).length + 1 = words.length * (n + 1) := by
  induction words with
  | nil => exact absurd rfl hne
  | cons word words ih =>
      cases words with
      | nil => simp [hwords word (by simp)]
      | cons next words =>
          have hrest := ih (by simp) (fun w hw => hwords w (by simp [hw]))
          have hword := hwords word (by simp)
          simp only [joinWith_cons_cons, List.length_append, List.length_cons, List.length_nil,
            Nat.add_mul] at hrest ⊢
          omega

private theorem joined_length {s : Char} {count n : Nat} {test : Char → Bool} {cs : List Char}
    (hcount : count ≠ 0) (h : Joined s count test n n cs) : cs.length + 1 = count * (n + 1) := by
  obtain ⟨words, rfl, hwords, rfl⟩ := h
  refine joinWith_length s (by rintro rfl; exact hcount rfl) fun word hword => ?_
  exact Nat.le_antisymm (hwords word hword).2.2 (hwords word hword).2.1

/-- A join of two or more runs shows its first word and its separator. -/
theorem joined_cases {s : Char} {count least most : Nat} {test : Char → Bool} {cs : List Char}
    (hcount : 2 ≤ count) (h : Joined s count test least most cs) :
    ∃ word rest, Run test least most word ∧ cs = word ++ s :: rest := by
  obtain ⟨words, rfl, hwords, rfl⟩ := h
  match words, hcount with
  | word :: next :: words, _ =>
      exact ⟨word, _, hwords word (by simp), by rw [joinWith_cons_cons, List.append_assoc]; rfl⟩

/-- Pairs and quadruples of digits do not begin with the same text. -/
private theorem pairs_ne_quadruples {s : Char} {cs cs' back back' : List Char}
    (hs : isSeparator s = true) (h : Joined s 6 isHexDigit 2 2 cs)
    (h' : Joined '.' 3 isHexDigit 4 4 cs') : cs ++ back ≠ cs' ++ back' := by
  intro heq
  obtain ⟨word, rest, hword, rfl⟩ := joined_cases (by decide) h
  obtain ⟨word', rest', hword', rfl⟩ := joined_cases (by decide) h'
  have hcut : word ++ s :: (rest ++ back) = word' ++ '.' :: (rest' ++ back') := by simpa using heq
  obtain ⟨rfl, -⟩ := run_append_inj hcut hword.1 hword'.1
    (stopsAt_cons (isHexDigit_eq_false_of_isSeparator hs) _) (stopsAt_cons (by decide) _)
  have := hword.2.2
  have := hword'.2.1
  omega

private theorem macShape_cases {cs : List Char} (h : MacShape cs) :
    (∃ s, isSeparator s = true ∧ Joined s 6 isHexDigit 2 2 cs) ∨ Joined '.' 3 isHexDigit 4 4 cs := by
  rcases h with h | h | h
  · exact Or.inl ⟨':', rfl, h⟩
  · exact Or.inl ⟨'-', rfl, h⟩
  · exact Or.inr h

/-- MAC literals at one place have one length. -/
theorem macShape_length_eq {cs cs' back back' : List Char} (h : MacShape cs) (h' : MacShape cs')
    (heq : cs ++ back = cs' ++ back') : cs.length = cs'.length := by
  rcases macShape_cases h with ⟨s, hs, hpairs⟩ | hquads <;>
    rcases macShape_cases h' with ⟨s', hs', hpairs'⟩ | hquads'
  · have := joined_length (by decide) hpairs
    have := joined_length (by decide) hpairs'
    omega
  · exact absurd heq (pairs_ne_quadruples hs hpairs hquads')
  · exact absurd heq.symm (pairs_ne_quadruples hs' hpairs' hquads)
  · have := joined_length (by decide) hquads
    have := joined_length (by decide) hquads'
    omega

theorem prefers_mac {cs : List Char} (h : MacShape cs) (back : List Char) :
    Prefers macPattern cs back := by
  have hmem : cs.length ∈ macPattern.lengths (cs ++ back) :=
    (mem_lengths_iff _ _ _).mpr ⟨cs, back, rfl, rfl, (macPattern_matches_iff cs).mpr h⟩
  cases hhead : macPattern.matchLength? (cs ++ back) with
  | none =>
      rw [matchLength?, List.head?_eq_none_iff] at hhead
      rw [hhead] at hmem
      exact absurd hmem List.not_mem_nil
  | some n =>
      obtain ⟨front, rest, heq, rfl, hfront⟩ := matches_of_matchLength? hhead
      rw [Prefers, hhead, macShape_length_eq h ((macPattern_matches_iff front).mp hfront) heq]

end NetRedact.Scan
