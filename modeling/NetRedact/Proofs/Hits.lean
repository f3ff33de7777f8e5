import NetRedact.Proofs.Offsets
import NetRedact.Proofs.Preference

/-!
# The hits of a pattern

A search from left to right finds hits in ascending order, each the preferred match at its place,
and passes over a place at which the pattern matches only where an earlier hit covers it.  For a
detector whose literals are linked no literal between clear sides is covered in this way, so the
candidates of one detector are exactly its literals.
-/

namespace NetRedact.Scan

open NetRedact.Text Pattern

/-! ## The search -/

private theorem hitsFrom_found (p : Pattern) (found : List Hit) (before : List Char)
    (offset skip : Nat) (rest : List Char) :
    hitsFrom p found before offset skip rest =
      found.reverse ++ hitsFrom p [] before offset skip rest := by
  induction rest generalizing found before offset skip with
  | nil => simp [hitsFrom]
  | cons c rest ih =>
      cases skip with
      | succ skip =>
          rw [hitsFrom, hitsFrom, ih]
      | zero =>
          rw [hitsFrom, hitsFrom]
          cases p.matchLength? (c :: rest) with
          | none => simp only [ih found]
          | some n =>
              simp only
              rw [ih (_ :: found), ih [_]]
              simp

/-- The hit lies `passed` characters into a text whose front is already passed. -/
private structure HitAfter (p : Pattern) (before passed rest : List Char) (h : Hit) : Prop where
  before_eq : h.before = passed.reverse ++ before
  text_eq : rest = passed ++ (h.literal ++ h.after)
  start_eq : h.start = byteLength h.before
  prefers : Prefers p h.literal h.after

private theorem hitAfter_cons {p : Pattern} {before passed rest : List Char} {c : Char} {h : Hit}
    (hhit : HitAfter p (c :: before) passed rest h) :
    HitAfter p before (c :: passed) (c :: rest) h :=
  ⟨by simp [hhit.before_eq], by simp [hhit.text_eq], hhit.start_eq, hhit.prefers⟩

private theorem hitAfter_nil {p : Pattern} {before text : List Char} {n : Nat}
    (hn : p.matchLength? text = some n) :
    HitAfter p before [] text ⟨before, text.take n, text.drop n, byteLength before⟩ := by
  refine ⟨rfl, by simp, rfl, ?_⟩
  obtain ⟨front, back, rfl, rfl, -⟩ := matches_of_matchLength? hn
  simpa [Prefers] using hn

/-- Each hit that is still to come is a hit of the rest of the text, behind what is skipped. -/
private theorem hitAfter_of_mem {p : Pattern} {before rest : List Char} {skip : Nat} {h : Hit}
    (hmem : h ∈ hitsFrom p [] before (byteLength before) skip rest) :
    ∃ passed, HitAfter p before passed rest h ∧ skip ≤ passed.length := by
  induction rest generalizing before skip with
  | nil => simp [hitsFrom] at hmem
  | cons c rest ih =>
      have hoffset : byteLength before + c.utf8Size = byteLength (c :: before) := by
        rw [byteLength_cons, Nat.add_comm]
      cases skip with
      | succ skip =>
          rw [hitsFrom, hoffset] at hmem
          obtain ⟨passed, hhit, hskip⟩ := ih hmem
          exact ⟨c :: passed, hitAfter_cons hhit, by simpa using hskip⟩
      | zero =>
          rw [hitsFrom, hoffset] at hmem
          cases hn : p.matchLength? (c :: rest) with
          | none =>
              rw [hn] at hmem
              obtain ⟨passed, hhit, -⟩ := ih hmem
              exact ⟨c :: passed, hitAfter_cons hhit, Nat.zero_le _⟩
          | some n =>
              simp only [hn] at hmem
              rw [hitsFrom_found] at hmem
              rcases List.mem_append.mp hmem with hhead | htail
              · obtain rfl : h = _ := by simpa using hhead
                exact ⟨[], hitAfter_nil hn, Nat.zero_le _⟩
              · obtain ⟨passed, hhit, -⟩ := ih htail
                exact ⟨c :: passed, hitAfter_cons hhit, Nat.zero_le _⟩

/-- A hit cuts the text, knows its offset, and is what the pattern prefers at its place. -/
theorem hit_of_mem {p : Pattern} {text : List Char} {h : Hit} (hmem : h ∈ hits p text) :
    text = h.before.reverse ++ (h.literal ++ h.after) ∧ h.start = byteLength h.before ∧
      Prefers p h.literal h.after := by
  obtain ⟨passed, hhit, -⟩ := hitAfter_of_mem hmem
  refine ⟨?_, hhit.start_eq, hhit.prefers⟩
  rw [hhit.before_eq, List.append_nil, List.reverse_reverse]
  exact hhit.text_eq

private theorem hitsFrom_pairwise (p : Pattern) (before : List Char) (skip : Nat)
    (rest : List Char) :
    (hitsFrom p [] before (byteLength before) skip rest).Pairwise
      fun earlier later => earlier.span.stop ≤ later.span.start := by
  induction rest generalizing before skip with
  | nil => simp [hitsFrom]
  | cons c rest ih =>
      have hoffset : byteLength before + c.utf8Size = byteLength (c :: before) := by
        rw [byteLength_cons, Nat.add_comm]
      cases skip with
      | succ skip =>
          rw [hitsFrom, hoffset]
          exact ih _ _
      | zero =>
          rw [hitsFrom, hoffset]
          cases hn : p.matchLength? (c :: rest) with
          | none => exact ih _ _
          | some n =>
              simp only
              rw [hitsFrom_found]
              refine List.pairwise_append.mpr ⟨by simp, ih _ _, ?_⟩
              intro earlier hearlier later hlater
              obtain rfl : earlier = _ := by simpa using hearlier
              obtain ⟨passed, hhit, hskip⟩ := hitAfter_of_mem hlater
              change byteLength before + byteLength ((c :: rest).take n) ≤ later.start
              rw [hhit.start_eq, hhit.before_eq]
              -- The next search starts behind the hit, so the hit lies in what is passed by then.
              have hprefix : byteLength ((c :: rest).take n) ≤ byteLength (c :: passed) := by
                have htake : (c :: rest).take n = (c :: passed).take n := by
                  rw [hhit.text_eq, ← List.cons_append, List.take_append_of_le_length]
                  simp only [List.length_cons]
                  omega
                have hsplit := congrArg byteLength (List.take_append_drop n (c :: passed))
                rw [byteLength_append] at hsplit
                rw [htake]
                omega
              simp only [byteLength_append, byteLength_reverse, byteLength_cons] at hprefix ⊢
              omega

/-- Hits come in ascending order and do not overlap. -/
theorem hits_pairwise (p : Pattern) (text : List Char) :
    (hits p text).Pairwise fun earlier later => earlier.span.stop ≤ later.span.start :=
  hitsFrom_pairwise p [] 0 text

/-- A hit covers the place between `passed` and `tail`: it begins there or before, and is not over
there. -/
private def Covers (before passed tail : List Char) (h : Hit) : Prop :=
  ∃ outer inner, passed = outer ++ inner ∧ h.before = outer.reverse ++ before ∧
    h.literal ++ h.after = inner ++ tail ∧ inner.length < h.literal.length

private theorem covers_cons {c : Char} {before passed tail : List Char} {h : Hit}
    (hcovers : Covers (c :: before) passed tail h) : Covers before (c :: passed) tail h := by
  obtain ⟨outer, inner, hpassed, hbefore, htext, hlength⟩ := hcovers
  refine ⟨c :: outer, inner, by rw [hpassed, List.cons_append], ?_, htext, hlength⟩
  rw [hbefore, List.reverse_cons, List.append_assoc, List.singleton_append]

/-- A hit at the front covers every place that it reaches beyond. -/
private theorem covers_front {before : List Char} (passed : List Char) {tail : List Char} {n : Nat}
    (hlt : passed.length < n) (hle : n ≤ (passed ++ tail).length) :
    Covers before passed tail
      ⟨before, (passed ++ tail).take n, (passed ++ tail).drop n, byteLength before⟩ := by
  refine ⟨[], passed, rfl, rfl, List.take_append_drop n _, ?_⟩
  show passed.length < ((passed ++ tail).take n).length
  rw [List.length_take]
  omega

private theorem matchLength?_bounds {p : Pattern} (hp : ¬ p.Matches []) {cs : List Char} {m : Nat}
    (hm : p.matchLength? cs = some m) : 0 < m ∧ m ≤ cs.length := by
  obtain ⟨front, back, rfl, rfl, hfront⟩ := matches_of_matchLength? hm
  have hne : front ≠ [] := fun hnil => hp (hnil ▸ hfront)
  exact ⟨List.length_pos_iff.mpr hne, by simp⟩

/-- A place at which the pattern matches is covered by a hit, unless it is skipped. -/
private theorem exists_hit_covering {p : Pattern} (hp : ¬ p.Matches []) {tail : List Char} {n : Nat}
    (hn : p.matchLength? tail = some n) (before passed : List Char) (skip : Nat) :
    passed.length < skip ∨
      ∃ h ∈ hitsFrom p [] before (byteLength before) skip (passed ++ tail),
        Covers before passed tail h := by
  induction passed generalizing before skip with
  | nil =>
      cases skip with
      | succ skip => exact .inl (Nat.succ_pos skip)
      | zero =>
          right
          obtain ⟨hpos, hle⟩ := matchLength?_bounds hp hn
          cases tail with
          | nil => exact absurd hle (Nat.not_le_of_gt hpos)
          | cons c tail =>
              rw [List.nil_append, hitsFrom, hn]
              simp only
              rw [hitsFrom_found]
              exact ⟨_, List.mem_append_left _ (by simp), covers_front [] hpos hle⟩
  | cons c passed ih =>
      have hoffset : byteLength before + c.utf8Size = byteLength (c :: before) := by
        rw [byteLength_cons, Nat.add_comm]
      rw [List.cons_append]
      cases skip with
      | succ skip =>
          rw [hitsFrom, hoffset]
          cases ih (c :: before) skip with
          | inl hskip => exact .inl (Nat.succ_lt_succ hskip)
          | inr hhit =>
              obtain ⟨h, hmem, hcovers⟩ := hhit
              exact .inr ⟨h, hmem, covers_cons hcovers⟩
      | zero =>
          right
          rw [hitsFrom, hoffset]
          cases hm : p.matchLength? (c :: (passed ++ tail)) with
          | none =>
              obtain ⟨h, hmem, hcovers⟩ :=
                (ih (c :: before) 0).resolve_left (Nat.not_lt_zero _)
              exact ⟨h, hmem, covers_cons hcovers⟩
          | some m =>
              simp only
              rw [hitsFrom_found]
              cases ih (c :: before) (m - 1) with
              | inl hskip =>
                  -- The place is one of those that the hit found here skips.
                  obtain ⟨hpos, hle⟩ := matchLength?_bounds hp hm
                  have hlt : (c :: passed).length < m := by
                    simp only [List.length_cons]
                    omega
                  exact ⟨_, List.mem_append_left _ (by simp),
                    covers_front (c :: passed) hlt hle⟩
              | inr hhit =>
                  obtain ⟨h, hmem, hcovers⟩ := hhit
                  exact ⟨h, List.mem_append_right _ hmem, covers_cons hcovers⟩

/-- Where the pattern matches, a hit begins, or a hit that began earlier is not over. -/
theorem exists_hit {p : Pattern} (hp : ¬ p.Matches []) (before : List Char) {tail : List Char}
    {n : Nat} (hn : p.matchLength? tail = some n) :
    ∃ h ∈ hits p (before ++ tail), ∃ outer inner, before = outer ++ inner ∧
      h.before = outer.reverse ∧ h.literal ++ h.after = inner ++ tail ∧
      inner.length < h.literal.length := by
  have hcover := exists_hit_covering hp hn [] before 0
  simpa [hits, Covers] using hcover.resolve_left (Nat.not_lt_zero _)

end NetRedact.Scan
