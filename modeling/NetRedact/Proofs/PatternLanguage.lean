import NetRedact.Scan.Pattern
import Mathlib.Data.List.Basic

/-!
# What patterns match and prefer

`lengths` lists exactly the fronts of a text that a pattern describes.  `Prefers` says which of them
comes first; its rules follow the constructors, and none of them needs to look at the alternatives
that come later in the list.
-/

namespace NetRedact.Scan.Pattern

/-! ## The listed lengths are the fronts that match -/

/-- The lengths listed for a repetition are those of copies, if the lengths listed for its body are
those of the body.  The induction is on the largest count. -/
private theorem mem_repLengths_iff {step : List Char → List Nat} {language : List Char → Prop}
    (hstep : ∀ cs n, n ∈ step cs ↔
      ∃ front back, cs = front ++ back ∧ n = front.length ∧ language front) :
    ∀ (most least : Nat) (cs : List Char) (n : Nat), n ∈ repLengths step least most cs ↔
      ∃ front back, cs = front ++ back ∧ n = front.length ∧
        ∃ count, least ≤ count ∧ count ≤ most ∧ Copies language count front := by
  intro most
  induction most with
  | zero =>
      intro least cs n
      constructor
      · intro h
        by_cases hleast : least = 0
        · rw [repLengths, if_pos hleast, List.mem_singleton] at h
          exact ⟨[], cs, rfl, h, 0, by omega, by omega, rfl⟩
        · rw [repLengths, if_neg hleast] at h
          exact absurd h List.not_mem_nil
      · rintro ⟨front, back, rfl, rfl, count, hleast, hmost, hcopies⟩
        obtain rfl : count = 0 := by omega
        obtain rfl : front = [] := hcopies
        rw [repLengths, if_pos (by omega)]
        simp
  | succ most ih =>
      intro least cs n
      rw [repLengths, List.mem_append, List.mem_flatMap]
      constructor
      · rintro (⟨first, hfirst, hn⟩ | hn)
        · -- One copy, and a shorter repetition on what is left of the text behind it.
          rw [List.mem_map] at hn
          obtain ⟨later, hlater, rfl⟩ := hn
          obtain ⟨front, back, rfl, rfl, hfront⟩ := (hstep cs first).mp hfirst
          rw [List.drop_left, ih] at hlater
          obtain ⟨front', back', rfl, rfl, count, hleast, hmost, hcopies⟩ := hlater
          exact ⟨front ++ front', back', by simp, by simp, count + 1, by omega, by omega,
            front, front', rfl, hfront, hcopies⟩
        · by_cases hleast : least = 0
          · rw [if_pos hleast, List.mem_singleton] at hn
            exact ⟨[], cs, rfl, hn, 0, by omega, by omega, rfl⟩
          · rw [if_neg hleast] at hn
            exact absurd hn List.not_mem_nil
      · rintro ⟨front, back, rfl, rfl, count, hleast, hmost, hcopies⟩
        cases count with
        | zero =>
            obtain rfl : front = [] := hcopies
            right
            rw [if_pos (by omega)]
            simp
        | succ count =>
            obtain ⟨first, later, rfl, hfirst, hcopies⟩ := hcopies
            left
            refine ⟨first.length, (hstep _ _).mpr ⟨first, later ++ back, by simp, rfl, hfirst⟩, ?_⟩
            rw [List.append_assoc, List.drop_left, List.mem_map]
            refine ⟨later.length, (ih _ _ _).mpr ?_, by simp⟩
            exact ⟨later, back, rfl, rfl, count, by omega, by omega, hcopies⟩

/-- The lengths that are listed for a text are those of its fronts in the language. -/
theorem mem_lengths_iff (p : Pattern) (cs : List Char) (n : Nat) :
    n ∈ p.lengths cs ↔ ∃ front back, cs = front ++ back ∧ n = front.length ∧ p.Matches front := by
  induction p generalizing cs n with
  | one test =>
      cases cs with
      | nil => simp [lengths, Matches]
      | cons c cs =>
          by_cases hc : test c = true
          · rw [lengths, if_pos hc, List.mem_singleton]
            constructor
            · rintro rfl
              exact ⟨[c], cs, rfl, rfl, c, rfl, hc⟩
            · rintro ⟨front, back, -, rfl, d, rfl, -⟩
              rfl
          · rw [lengths, if_neg hc]
            constructor
            · intro h
              exact absurd h List.not_mem_nil
            · rintro ⟨front, back, hcs, -, d, rfl, hd⟩
              rw [List.singleton_append, List.cons.injEq] at hcs
              exact absurd (hcs.1 ▸ hd) hc
  | seq first second ihFirst ihSecond =>
      rw [lengths, List.mem_flatMap]
      constructor
      · rintro ⟨k, hk, hn⟩
        rw [List.mem_map] at hn
        obtain ⟨m, hm, rfl⟩ := hn
        obtain ⟨front, back, rfl, rfl, hfront⟩ := (ihFirst _ _).mp hk
        rw [List.drop_left, ihSecond] at hm
        obtain ⟨front', back', rfl, rfl, hfront'⟩ := hm
        exact ⟨front ++ front', back', by simp, by simp, front, front', rfl, hfront, hfront'⟩
      · rintro ⟨-, back, rfl, rfl, front, front', rfl, hfront, hfront'⟩
        refine ⟨front.length, (ihFirst _ _).mpr ⟨front, front' ++ back, by simp, rfl, hfront⟩, ?_⟩
        rw [List.append_assoc, List.drop_left, List.mem_map]
        exact ⟨front'.length, (ihSecond _ _).mpr ⟨front', back, rfl, rfl, hfront'⟩, by simp⟩
  | alt left right ihLeft ihRight =>
      rw [lengths, List.mem_append, ihLeft, ihRight]
      constructor
      · rintro (⟨front, back, hcs, hn, h⟩ | ⟨front, back, hcs, hn, h⟩)
        · exact ⟨front, back, hcs, hn, Or.inl h⟩
        · exact ⟨front, back, hcs, hn, Or.inr h⟩
      · rintro ⟨front, back, hcs, hn, h | h⟩
        · exact Or.inl ⟨front, back, hcs, hn, h⟩
        · exact Or.inr ⟨front, back, hcs, hn, h⟩
  | rep body least most ih =>
      exact mem_repLengths_iff ih most least cs n

/-- A preferred match is a match. -/
theorem matches_of_matchLength? {p : Pattern} {cs : List Char} {n : Nat}
    (h : p.matchLength? cs = some n) :
    ∃ front back, cs = front ++ back ∧ n = front.length ∧ p.Matches front :=
  (mem_lengths_iff p cs n).mp (List.mem_of_head? h)

theorem lengths_eq_nil_iff (p : Pattern) (cs : List Char) :
    p.lengths cs = [] ↔ ∀ front back, cs = front ++ back → ¬ p.Matches front := by
  rw [List.eq_nil_iff_forall_not_mem]
  constructor
  · intro h front back hcs hmatch
    exact h _ ((mem_lengths_iff p cs _).mpr ⟨front, back, hcs, rfl, hmatch⟩)
  · intro h n hn
    obtain ⟨front, back, hcs, -, hmatch⟩ := (mem_lengths_iff p cs n).mp hn
    exact h front back hcs hmatch

/-- Copies of a language whose texts are made from items are made from lists of items. -/
theorem copies_iff {α : Type} {language : List Char → Prop} {valid : α → Prop}
    {make : α → List Char} (hlanguage : ∀ cs, language cs ↔ ∃ item, valid item ∧ cs = make item)
    (count : Nat) (cs : List Char) :
    Copies language count cs ↔
      ∃ items : List α, items.length = count ∧ (∀ item ∈ items, valid item) ∧
        cs = items.flatMap make := by
  induction count generalizing cs with
  | zero =>
      constructor
      · rintro rfl
        exact ⟨[], by simp⟩
      · rintro ⟨items, hlength, -, rfl⟩
        obtain rfl := List.length_eq_zero_iff.mp hlength
        rfl
  | succ count ih =>
      constructor
      · rintro ⟨front, rest, rfl, hfront, hrest⟩
        obtain ⟨item, hitem, rfl⟩ := (hlanguage front).mp hfront
        obtain ⟨items, hlength, hitems, rfl⟩ := (ih rest).mp hrest
        refine ⟨item :: items, by simp [hlength], ?_, by simp⟩
        simpa [hitem] using hitems
      · rintro ⟨items, hlength, hitems, rfl⟩
        cases items with
        | nil => simp at hlength
        | cons item items =>
            refine ⟨make item, items.flatMap make, by simp,
              (hlanguage _).mpr ⟨item, hitems item (by simp), rfl⟩, (ih _).mpr ⟨items, ?_, ?_, rfl⟩⟩
            · simpa using hlength
            · intro other hother
              exact hitems other (by simp [hother])

theorem matches_char_iff (c : Char) (cs : List Char) : (char c).Matches cs ↔ cs = [c] := by
  simp [char, Matches]

theorem matches_times_iff (count : Nat) (p : Pattern) (cs : List Char) :
    (times count p).Matches cs ↔ Copies p.Matches count cs := by
  constructor
  · rintro ⟨n, hleast, hmost, hcopies⟩
    obtain rfl : n = count := by omega
    exact hcopies
  · intro hcopies
    exact ⟨count, Nat.le_refl _, Nat.le_refl _, hcopies⟩

theorem matches_optional_iff (p : Pattern) (cs : List Char) :
    (optional p).Matches cs ↔ cs = [] ∨ p.Matches cs := by
  constructor
  · rintro ⟨count, -, hmost, hcopies⟩
    cases count with
    | zero => exact Or.inl hcopies
    | succ count =>
        obtain rfl : count = 0 := by omega
        obtain ⟨front, back, rfl, hfront, rfl⟩ := hcopies
        exact Or.inr (by simpa using hfront)
  · rintro (rfl | hmatch)
    · exact ⟨0, Nat.le_refl _, Nat.zero_le _, rfl⟩
    · exact ⟨1, Nat.zero_le _, Nat.le_refl _, cs, [], by simp, hmatch, rfl⟩

/-! ## The preferred match -/

/-- Of the text `front ++ back` the pattern takes `front`. -/
def Prefers (p : Pattern) (front back : List Char) : Prop :=
  p.matchLength? (front ++ back) = some front.length

private theorem head?_flatMap {f : Nat → List Nat} {l : List Nat} {a b : Nat}
    (hl : l.head? = some a) (hf : (f a).head? = some b) : (l.flatMap f).head? = some b := by
  cases l with
  | nil => simp at hl
  | cons c l =>
      obtain rfl : c = a := by simpa using hl
      rw [List.flatMap_cons, List.head?_append, hf]
      rfl

theorem prefers_one {test : Char → Bool} {c : Char} (hc : test c = true) (back : List Char) :
    Prefers (one test) [c] back := by
  simp [Prefers, matchLength?, lengths, hc]

theorem prefers_seq {p q : Pattern} {front middle back : List Char}
    (hp : Prefers p front (middle ++ back)) (hq : Prefers q middle back) :
    Prefers (seq p q) (front ++ middle) back := by
  unfold Prefers matchLength? at *
  rw [lengths, List.append_assoc]
  refine head?_flatMap hp ?_
  rw [List.drop_left, List.head?_map, hq]
  simp

theorem prefers_alt_left {p q : Pattern} {front back : List Char} (hp : Prefers p front back) :
    Prefers (alt p q) front back := by
  unfold Prefers matchLength? at *
  rw [lengths, List.head?_append, hp]
  rfl

theorem prefers_alt_right {p q : Pattern} {front back : List Char}
    (hp : p.lengths (front ++ back) = []) (hq : Prefers q front back) :
    Prefers (alt p q) front back := by
  unfold Prefers matchLength? at *
  rw [lengths, hp, List.nil_append, hq]

/-- A repetition stops where it may and no further copy matches. -/
theorem prefers_rep_nil {body : Pattern} {most : Nat} {back : List Char}
    (h : most = 0 ∨ body.lengths back = []) : Prefers (rep body 0 most) [] back := by
  unfold Prefers matchLength?
  rw [lengths, List.nil_append]
  cases most with
  | zero => rfl
  | succ most =>
      have hbody : body.lengths back = [] := h.resolve_left (Nat.succ_ne_zero most)
      rw [repLengths, hbody]
      rfl

/-- A repetition takes a copy if what follows lets it go on. -/
theorem prefers_rep_append {body : Pattern} {least most : Nat} {front middle back : List Char}
    (hbody : Prefers body front (middle ++ back))
    (hrest : Prefers (rep body (least - 1) most) middle back) :
    Prefers (rep body least (most + 1)) (front ++ middle) back := by
  unfold Prefers matchLength? at *
  rw [lengths] at hrest ⊢
  rw [repLengths, List.head?_append, List.append_assoc]
  have hcopy := head?_flatMap (f := fun n =>
      (repLengths body.lengths (least - 1) most ((front ++ (middle ++ back)).drop n)).map (n + ·))
    (b := front.length + middle.length) hbody (by
      rw [List.drop_left, List.head?_map, hrest]
      rfl)
  rw [hcopy]
  simp

end NetRedact.Scan.Pattern
