import NetRedact.Proofs.Words
import NetRedact.Scan.Detect

/-!
# The shapes of literals

What the three scan patterns describe, in terms of words and separators, and what all shapes have in
common: between two neighbouring characters of a literal neither side is clear.  That is why no
search for a literal is ever led astray by a hit that begins in front of it.
-/

namespace NetRedact.Scan

open NetRedact.Text Pattern

/-- Four runs of one to three decimal digits joined by dots. -/
def QuadShape (cs : List Char) : Prop :=
  Joined '.' 4 Char.isDigit 1 3 cs

/-- Two to eight groups of at most four digits with a colon behind each, and at the end a dotted
quad or one more group of at most four digits. -/
def Ipv6Shape (cs : List Char) : Prop :=
  ∃ groups last, 2 ≤ groups.length ∧ groups.length ≤ 8 ∧
    (∀ group ∈ groups, Run isHexDigit 0 4 group) ∧
    (QuadShape last ∨ Run isHexDigit 0 4 last) ∧ cs = joinWith [':'] (groups ++ [last])

/-- Six pairs of digits joined by colons or by hyphens, or three quadruples joined by dots. -/
def MacShape (cs : List Char) : Prop :=
  Joined ':' 6 isHexDigit 2 2 cs ∨ Joined '-' 6 isHexDigit 2 2 cs ∨ Joined '.' 3 isHexDigit 4 4 cs

/-! ## The languages of the scan patterns -/

private theorem matches_terminated_iff (p : Pattern) (s : Char) (cs : List Char) :
    (seq p (char s)).Matches cs ↔ ∃ word, p.Matches word ∧ cs = word ++ [s] := by
  constructor
  · rintro ⟨word, _, rfl, hword, hs⟩
    obtain rfl := (matches_char_iff _ _).mp hs
    exact ⟨word, hword, rfl⟩
  · rintro ⟨word, hword, rfl⟩
    exact ⟨word, [s], rfl, hword, (matches_char_iff _ _).mpr rfl⟩

private theorem matches_preceded_iff (p : Pattern) (s : Char) (cs : List Char) :
    (seq (char s) p).Matches cs ↔ ∃ word, p.Matches word ∧ cs = [s] ++ word := by
  constructor
  · rintro ⟨_, word, rfl, hs, hword⟩
    obtain rfl := (matches_char_iff _ _).mp hs
    exact ⟨word, hword, rfl⟩
  · rintro ⟨word, hword, rfl⟩
    exact ⟨[s], word, rfl, (matches_char_iff _ _).mpr rfl, hword⟩

/-- A body, and further bodies behind separators, are a join. -/
private theorem matches_joined_iff (s : Char) (count : Nat) (test : Char → Bool)
    (least most : Nat) (cs : List Char) :
    (seq (rep (one test) least most)
      (times count (seq (char s) (rep (one test) least most)))).Matches cs ↔
      Joined s (count + 1) test least most cs := by
  constructor
  · rintro ⟨word, rest, rfl, hword, hrest⟩
    rw [matches_times_iff, copies_iff (matches_preceded_iff _ _)] at hrest
    obtain ⟨words, hlength, hwords, rfl⟩ := hrest
    refine ⟨word :: words, by simp [hlength], ?_, rfl⟩
    intro w hw
    rcases List.mem_cons.mp hw with rfl | hw
    · exact (matches_run_iff _ _ _ _).mp hword
    · exact (matches_run_iff _ _ _ _).mp (hwords w hw)
  · rintro ⟨words, hlength, hwords, rfl⟩
    cases words with
    | nil => simp at hlength
    | cons word words =>
        refine ⟨word, words.flatMap ([s] ++ ·), rfl,
          (matches_run_iff _ _ _ _).mpr (hwords word (by simp)), ?_⟩
        rw [matches_times_iff, copies_iff (matches_preceded_iff _ _)]
        refine ⟨words, by simpa using hlength, ?_, rfl⟩
        intro w hw
        exact (matches_run_iff _ _ _ _).mpr (hwords w (by simp [hw]))

theorem quadPattern_matches_iff (cs : List Char) : quadPattern.Matches cs ↔ QuadShape cs :=
  matches_joined_iff '.' 3 Char.isDigit 1 3 cs

/-- Separated bodies with one more behind them are a join, too. -/
private theorem matches_concat_iff (s : Char) (count : Nat) (test : Char → Bool)
    (least most : Nat) (cs : List Char) :
    (seq (times count (seq (rep (one test) least most) (char s)))
      (rep (one test) least most)).Matches cs ↔ Joined s (count + 1) test least most cs := by
  constructor
  · rintro ⟨_, last, rfl, hfront, hlast⟩
    rw [matches_times_iff, copies_iff (matches_terminated_iff _ _)] at hfront
    obtain ⟨words, hlength, hwords, rfl⟩ := hfront
    refine ⟨words ++ [last], by simp [hlength], ?_, (joinWith_concat s words last).symm⟩
    intro w hw
    rcases List.mem_append.mp hw with hw | hw
    · exact (matches_run_iff _ _ _ _).mp (hwords w hw)
    · obtain rfl := List.mem_singleton.mp hw
      exact (matches_run_iff _ _ _ _).mp hlast
  · rintro ⟨words, hlength, hwords, rfl⟩
    rcases List.eq_nil_or_concat' words with rfl | ⟨front, last, rfl⟩
    · simp at hlength
    · rw [joinWith_concat]
      refine ⟨front.flatMap (· ++ [s]), last, rfl, ?_,
        (matches_run_iff _ _ _ _).mpr (hwords last (by simp))⟩
      rw [matches_times_iff, copies_iff (matches_terminated_iff _ _)]
      refine ⟨front, by simpa using hlength, ?_, rfl⟩
      intro w hw
      exact (matches_run_iff _ _ _ _).mpr (hwords w (by simp [hw]))

theorem macPairsPattern_matches_iff (s : Char) (cs : List Char) :
    (macPairsPattern s).Matches cs ↔ Joined s 6 isHexDigit 2 2 cs :=
  matches_concat_iff s 5 isHexDigit 2 2 cs

private theorem quadruples_matches_iff (cs : List Char) :
    (seq (times 4 (one isHexDigit)) (seq (char '.') (seq (times 4 (one isHexDigit))
      (seq (char '.') (times 4 (one isHexDigit)))))).Matches cs ↔
      Joined '.' 3 isHexDigit 4 4 cs := by
  constructor
  · rintro ⟨a, _, rfl, ha, _, _, rfl, hdot, b, _, rfl, hb, _, c, rfl, hdot', hc⟩
    obtain rfl := (matches_char_iff _ _).mp hdot
    obtain rfl := (matches_char_iff _ _).mp hdot'
    refine ⟨[a, b, c], rfl, ?_, by simp [joinWith]⟩
    intro w hw
    simp only [List.mem_cons, List.not_mem_nil, or_false] at hw
    rcases hw with rfl | rfl | rfl
    · exact (matches_run_iff _ _ _ _).mp ha
    · exact (matches_run_iff _ _ _ _).mp hb
    · exact (matches_run_iff _ _ _ _).mp hc
  · rintro ⟨words, hlength, hwords, rfl⟩
    obtain ⟨a, b, c, rfl⟩ := List.length_eq_three.mp hlength
    have hrun : ∀ w ∈ [a, b, c], (times 4 (one isHexDigit)).Matches w := fun w hw =>
      (matches_run_iff _ _ _ _).mpr (hwords w hw)
    refine ⟨a, '.' :: b ++ '.' :: c, by simp [joinWith], hrun a (by simp), ['.'], b ++ '.' :: c, rfl,
      (matches_char_iff _ _).mpr rfl, b, '.' :: c, rfl, hrun b (by simp), ['.'], c, rfl,
      (matches_char_iff _ _).mpr rfl, hrun c (by simp)⟩

theorem macPattern_matches_iff (cs : List Char) : macPattern.Matches cs ↔ MacShape cs := by
  unfold macPattern MacShape
  simp only [Matches]
  rw [macPairsPattern_matches_iff, macPairsPattern_matches_iff]
  exact or_congr_right (or_congr_right (quadruples_matches_iff cs))

theorem ipv6Pattern_matches_iff (cs : List Char) : ipv6Pattern.Matches cs ↔ Ipv6Shape cs := by
  constructor
  · rintro ⟨_, last, rfl, ⟨count, hleast, hmost, hcopies⟩, hlast⟩
    rw [copies_iff (matches_terminated_iff _ _)] at hcopies
    obtain ⟨groups, rfl, hgroups, rfl⟩ := hcopies
    refine ⟨groups, last, hleast, hmost, ?_, ?_, (joinWith_concat ':' groups last).symm⟩
    · intro group hgroup
      exact (matches_run_iff _ _ _ _).mp (hgroups group hgroup)
    · rcases (matches_optional_iff _ _).mp hlast with rfl | hquad | hgroup
      · exact Or.inr ⟨by simp, by simp, by simp⟩
      · exact Or.inl ((quadPattern_matches_iff _).mp hquad)
      · obtain ⟨hall, -, hmost⟩ := (matches_run_iff _ _ _ _).mp hgroup
        exact Or.inr ⟨hall, Nat.zero_le _, hmost⟩
  · rintro ⟨groups, last, hleast, hmost, hgroups, hlast, rfl⟩
    rw [joinWith_concat]
    refine ⟨groups.flatMap (· ++ [':']), last, rfl, ⟨groups.length, hleast, hmost, ?_⟩, ?_⟩
    · rw [copies_iff (matches_terminated_iff _ _)]
      exact ⟨groups, rfl, fun group hgroup => (matches_run_iff _ _ _ _).mpr (hgroups group hgroup),
        rfl⟩
    · rw [matches_optional_iff]
      rcases hlast with hquad | ⟨hall, -, hmost⟩
      · exact Or.inr (Or.inl ((quadPattern_matches_iff _).mpr hquad))
      · cases last with
        | nil => exact Or.inl rfl
        | cons c last =>
            exact Or.inr (Or.inr ((matches_run_iff _ _ _ _).mpr ⟨hall, by simp, hmost⟩))

end NetRedact.Scan
