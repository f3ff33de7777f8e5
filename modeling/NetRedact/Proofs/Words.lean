import NetRedact.Proofs.Characters
import NetRedact.Proofs.PatternLanguage
import NetRedact.Text.Units
import Mathlib.Data.List.TakeDrop

/-!
# Words joined by separators

Every literal is a row of words, that is runs of digits, joined by separators.  This module treats
runs and joins for themselves: how a join falls apart at one of its separators, which patterns
describe it, why a clear side never lies inside of it, and which translations of characters keep it.
-/

namespace NetRedact.Scan

open NetRedact.Text Pattern

/-! ## Runs -/

/-- Characters of one class, at least `least` and at most `most` of them. -/
def Run (test : Char → Bool) (least most : Nat) (cs : List Char) : Prop :=
  (∀ c ∈ cs, test c = true) ∧ least ≤ cs.length ∧ cs.length ≤ most

/-- The text does not begin with a character of the class. -/
def StopsAt (test : Char → Bool) (cs : List Char) : Prop :=
  ∀ c, cs.head? = some c → test c = false

theorem stopsAt_nil (test : Char → Bool) : StopsAt test [] := by
  simp [StopsAt]

theorem stopsAt_cons {test : Char → Bool} {c : Char} (h : test c = false) (cs : List Char) :
    StopsAt test (c :: cs) := by
  simpa [StopsAt] using h

/-- Where two texts agree, two runs that both stop are the same. -/
theorem run_append_inj {test : Char → Bool} {front rest front' rest' : List Char}
    (h : front ++ rest = front' ++ rest') (hfront : ∀ c ∈ front, test c = true)
    (hfront' : ∀ c ∈ front', test c = true) (hrest : StopsAt test rest)
    (hrest' : StopsAt test rest') : front = front' ∧ rest = rest' := by
  have hempty : ∀ {middle back whole : List Char}, whole = middle ++ back →
      (∀ c ∈ middle, test c = true) → StopsAt test whole → middle = [] := by
    intro middle back whole hwhole hmiddle hstop
    cases middle with
    | nil => rfl
    | cons c middle =>
        have hfalse := hstop c (by rw [hwhole]; rfl)
        rw [hmiddle c (by simp)] at hfalse
        contradiction
  rcases List.append_eq_append_iff.mp h with ⟨middle, hf, hr⟩ | ⟨middle, hf, hr⟩
  · have hnil := hempty hr (fun c hc => hfront' c (by rw [hf]; simp [hc])) hrest
    subst hnil
    exact ⟨by simpa using hf.symm, by simpa using hr⟩
  · have hnil := hempty hr (fun c hc => hfront c (by rw [hf]; simp [hc])) hrest'
    subst hnil
    exact ⟨by simpa using hf, by simpa using hr.symm⟩

/-- Cutting off the front of a class gives a run that stops. -/
theorem span_eq_iff {test : Char → Bool} {cs word rest : List Char} :
    cs.span test = (word, rest) ↔
      cs = word ++ rest ∧ (∀ c ∈ word, test c = true) ∧ StopsAt test rest := by
  rw [List.span_eq_takeWhile_dropWhile, Prod.mk.injEq]
  have hall : ∀ c ∈ cs.takeWhile test, test c = true := List.all_eq_true.mp List.all_takeWhile
  have hstop : StopsAt test (cs.dropWhile test) := by
    intro c hc
    have := List.head?_dropWhile_not test cs
    rw [hc] at this
    simpa using this
  constructor
  · rintro ⟨rfl, rfl⟩
    exact ⟨List.takeWhile_append_dropWhile.symm, hall, hstop⟩
  · rintro ⟨hcs, hword, hrest⟩
    exact run_append_inj (List.takeWhile_append_dropWhile.trans hcs) hall hword hstop hrest

private theorem matches_one_iff (test : Char → Bool) (cs : List Char) :
    (one test).Matches cs ↔ ∃ c, test c = true ∧ cs = [c] := by
  simp [Matches, and_comm]

/-- A repeated class describes the runs of that class. -/
theorem matches_run_iff (test : Char → Bool) (least most : Nat) (cs : List Char) :
    (rep (one test) least most).Matches cs ↔ Run test least most cs := by
  constructor
  · rintro ⟨count, hleast, hmost, hcopies⟩
    rw [copies_iff (matches_one_iff test)] at hcopies
    obtain ⟨items, rfl, hitems, rfl⟩ := hcopies
    simp only [List.flatMap_singleton'] at hitems ⊢
    exact ⟨hitems, hleast, hmost⟩
  · rintro ⟨hall, hleast, hmost⟩
    refine ⟨cs.length, hleast, hmost, ?_⟩
    rw [copies_iff (matches_one_iff test)]
    exact ⟨cs, rfl, hall, by simp⟩

/-- A repeated class takes a run as a whole if the text behind it does not go on with the class. -/
theorem prefers_run {test : Char → Bool} {least most : Nat} {cs back : List Char}
    (hrun : Run test least most cs) (hback : StopsAt test back) :
    Prefers (rep (one test) least most) cs back := by
  induction cs generalizing least most with
  | nil =>
      obtain rfl : least = 0 := by simpa using hrun.2.1
      refine prefers_rep_nil (Or.inr ?_)
      rw [lengths_eq_nil_iff]
      rintro - rest hrest ⟨c, rfl, hc⟩
      rw [hback c (by rw [hrest]; rfl)] at hc
      contradiction
  | cons c cs ih =>
      obtain ⟨hall, hleast, hmost⟩ := hrun
      cases most with
      | zero => simp at hmost
      | succ most =>
          have hfirst : Prefers (one test) [c] (cs ++ back) := prefers_one (hall c (by simp)) _
          refine prefers_rep_append hfirst (ih ⟨?_, ?_, ?_⟩)
          · intro d hd
            exact hall d (by simp [hd])
          · simp only [List.length_cons] at hleast
            omega
          · simpa using hmost

/-- Runs of one length have that length. -/
theorem map_length_of_run {test : Char → Bool} {width : Nat} {words : List (List Char)}
    (hwords : ∀ word ∈ words, Run test width width word) :
    words.map List.length = List.replicate words.length width := by
  refine List.eq_replicate_iff.mpr ⟨by simp, ?_⟩
  intro n hn
  obtain ⟨word, hword, rfl⟩ := List.mem_map.mp hn
  exact Nat.le_antisymm (hwords word hword).2.2 (hwords word hword).2.1

/-! ## Joins -/

@[simp] theorem joinWith_singleton (separator word : List Char) :
    joinWith separator [word] = word := by
  simp [joinWith]

theorem joinWith_cons_cons (separator word next : List Char) (words : List (List Char)) :
    joinWith separator (word :: next :: words) =
      word ++ separator ++ joinWith separator (next :: words) := by
  simp [joinWith]

/-- A join begins with its first word, and goes on with a separator if it goes on. -/
theorem joinWith_cons (s : Char) (word : List Char) (words : List (List Char)) :
    ∃ rest, joinWith [s] (word :: words) = word ++ rest ∧
      (rest = [] ∧ words = [] ∨ ∃ more, rest = s :: more ∧ words ≠ []) := by
  cases words with
  | nil => exact ⟨[], by simp, Or.inl ⟨rfl, rfl⟩⟩
  | cons next words =>
      exact ⟨s :: joinWith [s] (next :: words), by simp [joinWith_cons_cons],
        Or.inr ⟨_, rfl, by simp⟩⟩

theorem joinWith_append (s : Char) {front back : List (List Char)} (hfront : front ≠ [])
    (hback : back ≠ []) :
    joinWith [s] (front ++ back) = joinWith [s] front ++ s :: joinWith [s] back := by
  induction front with
  | nil => exact absurd rfl hfront
  | cons word front ih =>
      cases front with
      | nil =>
          cases back with
          | nil => exact absurd rfl hback
          | cons next back => simp [joinWith_cons_cons]
      | cons next front =>
          have hrest := ih (by simp)
          simp only [List.cons_append] at hrest ⊢
          rw [joinWith_cons_cons, joinWith_cons_cons, hrest]
          simp

/-- A join with a last word, as each other word with a separator behind it. -/
theorem joinWith_concat (s : Char) (words : List (List Char)) (last : List Char) :
    joinWith [s] (words ++ [last]) = words.flatMap (· ++ [s]) ++ last := by
  induction words with
  | nil => simp
  | cons word words ih =>
      rw [List.cons_append]
      cases words with
      | nil => simp [joinWith]
      | cons next words =>
          rw [List.cons_append, joinWith_cons_cons, ← List.cons_append, ih]
          simp

/-- Words without the separator fall apart at each separator of their join, and only there. -/
theorem joinWith_eq_append_cons {s : Char} {words : List (List Char)}
    (hwords : ∀ word ∈ words, s ∉ word) {front back : List Char}
    (h : joinWith [s] words = front ++ s :: back) :
    ∃ before after, words = before ++ after ∧ before ≠ [] ∧ after ≠ [] ∧
      front = joinWith [s] before ∧ back = joinWith [s] after := by
  induction words generalizing front with
  | nil => simp [joinWith] at h
  | cons word words ih =>
      cases words with
      | nil =>
          rw [joinWith_singleton] at h
          exact absurd (by rw [h]; simp) (hwords word (by simp))
      | cons next words =>
          rw [joinWith_cons_cons, List.append_assoc, List.singleton_append] at h
          -- The separator stands behind the first word, or further on, but not inside of the word.
          rcases List.append_eq_append_iff.mp h with ⟨middle, hfront, hback⟩ | ⟨middle, hword, hback⟩
          · cases middle with
            | nil =>
                obtain rfl : joinWith [s] (next :: words) = back := by simpa using hback
                exact ⟨[word], next :: words, rfl, by simp, by simp, by simpa using hfront, rfl⟩
            | cons c middle =>
                obtain ⟨rfl, hnext⟩ : s = c ∧ joinWith [s] (next :: words) = middle ++ s :: back := by
                  simpa using hback
                obtain ⟨before, after, hsplit, hbefore, hafter, rfl, rfl⟩ :=
                  ih (fun w hw => hwords w (by simp [hw])) hnext
                refine ⟨word :: before, after, by simp [hsplit], by simp, hafter, ?_, rfl⟩
                rw [hfront]
                simpa using (joinWith_append s (List.cons_ne_nil word []) hbefore).symm
          · cases middle with
            | nil =>
                obtain rfl : back = joinWith [s] (next :: words) := by simpa using hback
                exact ⟨[word], next :: words, rfl, by simp, by simp, by simpa using hword.symm, rfl⟩
            | cons c middle =>
                obtain ⟨rfl, -⟩ : s = c ∧ back = middle ++ s :: joinWith [s] (next :: words) := by
                  simpa using hback
                exact absurd (by rw [hword]; simp) (hwords word (by simp))

/-- A join determines its words. -/
theorem joinWith_inj {s : Char} {words words' : List (List Char)}
    (hwords : ∀ word ∈ words, s ∉ word) (hwords' : ∀ word ∈ words', s ∉ word) (hne : words ≠ [])
    (hne' : words' ≠ []) (h : joinWith [s] words = joinWith [s] words') : words = words' := by
  induction words generalizing words' with
  | nil => exact absurd rfl hne
  | cons word words ih =>
      cases words' with
      | nil => exact absurd rfl hne'
      | cons word' words' =>
          have htest : ∀ {w : List Char}, s ∉ w → ∀ c ∈ w, (c != s) = true := by
            intro w hw c hc
            simp only [bne_iff_ne, ne_eq]
            rintro rfl
            exact hw hc
          have hstop : ∀ {rest : List Char} {later : List (List Char)},
              (rest = [] ∧ later = [] ∨ ∃ more, rest = s :: more ∧ later ≠ []) →
                StopsAt (· != s) rest := by
            rintro rest later (⟨rfl, -⟩ | ⟨more, rfl, -⟩)
            · exact stopsAt_nil _
            · exact stopsAt_cons (by simp) _
          -- Both first words are runs without the separator, and both stop at it or at the end.
          obtain ⟨rest, hrest, hends⟩ := joinWith_cons s word words
          obtain ⟨rest', hrest', hends'⟩ := joinWith_cons s word' words'
          rw [hrest, hrest'] at h
          obtain ⟨rfl, rfl⟩ := run_append_inj h (htest (hwords word (by simp)))
            (htest (hwords' word' (by simp))) (hstop hends) (hstop hends')
          cases words with
          | nil =>
              obtain rfl : rest = [] := by simpa using hrest
              rcases hends' with ⟨-, rfl⟩ | ⟨more, hmore, -⟩
              · rfl
              · contradiction
          | cons next words =>
              cases words' with
              | nil =>
                  obtain rfl : rest = [] := by simpa using hrest'
                  simp [joinWith_cons_cons] at hrest
              | cons next' words' =>
                  rw [← hrest', joinWith_cons_cons, joinWith_cons_cons] at hrest
                  have hnext : joinWith [s] (next :: words) = joinWith [s] (next' :: words') := by
                    simpa using hrest
                  rw [ih (fun w hw => hwords w (by simp [hw]))
                    (fun w hw => hwords' w (List.mem_cons_of_mem _ hw)) (by simp) (by simp) hnext]

/-- Exactly `count` runs of one class joined by one separator. -/
def Joined (s : Char) (count : Nat) (test : Char → Bool) (least most : Nat) (cs : List Char) : Prop :=
  ∃ words : List (List Char), words.length = count ∧ (∀ word ∈ words, Run test least most word) ∧
    cs = joinWith [s] words

/-! ## Translated characters -/

section Translation

variable {f : Char → Char} {test : Char → Bool} {s : Char}

theorem run_map_iff (htest : ∀ c, test (f c) = test c) {least most : Nat} {word : List Char} :
    Run test least most (word.map f) ↔ Run test least most word := by
  simp [Run, htest]

theorem map_joinWith (f : Char → Char) (separator : List Char) (words : List (List Char)) :
    (joinWith separator words).map f = joinWith (separator.map f) (words.map (List.map f)) := by
  cases words with
  | nil => rfl
  | cons word words => simp [joinWith, List.map_flatMap, List.flatMap_map]

/-- If a translation turns nothing but the separator into the separator, a text that it turns into a
join is a join itself. -/
theorem exists_joinWith_of_map (hs : ∀ c, f c = s → c = s) {words : List (List Char)}
    {cs : List Char} (h : cs.map f = joinWith [s] words) :
    ∃ before, words = before.map (List.map f) ∧ cs = joinWith [s] before := by
  induction words generalizing cs with
  | nil => exact ⟨[], rfl, List.map_eq_nil_iff.mp h⟩
  | cons word words ih =>
      cases words with
      | nil =>
          rw [joinWith_singleton] at h
          exact ⟨[cs], by simp [h], by simp⟩
      | cons next words =>
          -- The text is cut where its translation is cut, in front of the first separator.
          rw [joinWith_cons_cons, List.append_assoc, List.singleton_append,
            List.map_eq_append_iff] at h
          obtain ⟨front, rest, rfl, rfl, hrest⟩ := h
          obtain ⟨c, back, rfl, hc, hback⟩ := List.map_eq_cons_iff.mp hrest
          obtain rfl : c = s := hs c hc
          obtain ⟨before, hwords, rfl⟩ := ih hback
          cases before with
          | nil => contradiction
          | cons second before =>
              refine ⟨front :: second :: before, by rw [hwords]; rfl, ?_⟩
              simp [joinWith_cons_cons]

/-- A translation that respects the class and the separator does not change whether a text is a row of
words. -/
theorem joined_map_iff (hs : ∀ c, f c = s ↔ c = s) (htest : ∀ c, test (f c) = test c)
    {count least most : Nat} {cs : List Char} :
    Joined s count test least most (cs.map f) ↔ Joined s count test least most cs := by
  constructor
  · rintro ⟨words, rfl, hwords, hcs⟩
    obtain ⟨before, rfl, rfl⟩ := exists_joinWith_of_map (fun c => (hs c).mp) hcs
    refine ⟨before, by simp, ?_, rfl⟩
    intro word hword
    exact (run_map_iff htest).mp (hwords _ (List.mem_map_of_mem hword))
  · rintro ⟨words, rfl, hwords, rfl⟩
    refine ⟨words.map (List.map f), by simp, ?_, ?_⟩
    · intro word hword
      obtain ⟨before, hbefore, rfl⟩ := List.mem_map.mp hword
      exact (run_map_iff htest).mpr (hwords before hbefore)
    · rw [map_joinWith, List.map_singleton, (hs s).mpr rfl]

end Translation

end NetRedact.Scan
