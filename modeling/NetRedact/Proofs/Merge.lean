import NetRedact.Scan.Candidate
import Mathlib.Data.List.Sort

/-!
# Joining candidates

Candidates in ascending order without overlaps are joined with others of that form.  A binary search
finds the only held candidate that can overlap a new one, so asking that one is as good as asking
all; and the result is again in ascending order without overlaps.
-/

namespace NetRedact.Scan

/-! ## The binary search -/

/-- The items that pass the test come first. -/
def PassesFirst {α : Type} (test : α → Bool) (items : Array α) : Prop :=
  ∀ i j (hij : i ≤ j) (hj : j < items.size), test items[j] = true → test items[i] = true

private theorem firstFailingBetween_spec {α : Type} {test : α → Bool} {items : Array α}
    (h : PassesFirst test items) {low high : Nat} (hle : low ≤ high) (hsize : high ≤ items.size)
    (hlow : ∀ i (hi : i < items.size), i < low → test items[i] = true)
    (hhigh : ∀ i (hi : i < items.size), high ≤ i → test items[i] = false) :
    (∀ i (hi : i < items.size), i < firstFailingBetween test items low high →
        test items[i] = true) ∧
      ∀ i (hi : i < items.size), firstFailingBetween test items low high ≤ i →
        test items[i] = false := by
  fun_induction firstFailingBetween test items low high with
  | case1 low high hlt middle hpass ih =>
      have hmiddle : middle < items.size := by omega
      rw [Array.getElem?_eq_getElem hmiddle, Option.any_some] at hpass
      refine ih (by omega) hsize ?_ hhigh
      intro i hi hlti
      exact h i middle (by omega) hmiddle hpass
  | case2 low high hlt middle hfail ih =>
      have hmiddle : middle < items.size := by omega
      rw [Array.getElem?_eq_getElem hmiddle, Option.any_some] at hfail
      refine ih (by omega) (by omega) hlow ?_
      intro i hi hle
      cases hvalue : test items[i] with
      | false => rfl
      | true => exact absurd (h middle i hle hi hvalue) hfail
  | case3 low high hlt =>
      obtain rfl : low = high := by omega
      exact ⟨hlow, hhigh⟩

/-- Where items that pass come first, the search splits them from those that fail. -/
theorem firstFailing_spec {α : Type} {test : α → Bool} {items : Array α}
    (h : PassesFirst test items) :
    (∀ i (hi : i < items.size), i < firstFailing test items → test items[i] = true) ∧
      ∀ i (hi : i < items.size), firstFailing test items ≤ i → test items[i] = false :=
  firstFailingBetween_spec h (Nat.zero_le _) (Nat.le_refl _) (by omega) (by omega)

/-! ## Overlaps -/

theorem Span.overlaps_iff (a b : Span) :
    a.overlaps b = true ↔ a.start < b.stop ∧ b.start < a.stop := by
  simp [Span.overlaps]

theorem Candidate.overlaps_iff (a b : Candidate) :
    a.overlaps b = true ↔ a.span.start < b.span.stop ∧ b.span.start < a.span.stop :=
  Span.overlaps_iff a.span b.span

/-- Spans in ascending order without overlaps, none of them empty. -/
structure Ascending (candidates : List Candidate) : Prop where
  pairwise : candidates.Pairwise fun earlier later => earlier.span.stop ≤ later.span.start
  nonempty : ∀ c ∈ candidates, c.span.start < c.span.stop

theorem Ascending.stop_le {candidates : List Candidate} (h : Ascending candidates) {i j : Nat}
    (hij : i < j) (hj : j < candidates.length) :
    candidates[i].span.stop ≤ candidates[j].span.start :=
  List.pairwise_iff_getElem.mp h.pairwise i j (by omega) hj hij

/-- Lists in ascending order are the same if they have the same members. -/
theorem Ascending.eq_of_mem_iff {candidates candidates' : List Candidate} (h : Ascending candidates)
    (h' : Ascending candidates') (hmem : ∀ c, c ∈ candidates ↔ c ∈ candidates') :
    candidates = candidates' := by
  have starts : ∀ {cs : List Candidate}, Ascending cs →
      cs.Pairwise fun earlier later => earlier.span.start < later.span.start := by
    intro cs hcs
    refine hcs.pairwise.imp_of_mem ?_
    intro earlier later hearlier _ hle
    exact Nat.lt_of_lt_of_le (hcs.nonempty earlier hearlier) hle
  have hirrefl : Std.Irrefl fun a b : Candidate => a.span.start < b.span.start :=
    ⟨fun a => Nat.lt_irrefl a.span.start⟩
  have hantisymm : Std.Antisymm fun a b : Candidate => a.span.start < b.span.start :=
    ⟨fun a b hab hba => absurd hab (Nat.lt_asymm hba)⟩
  exact (starts h).eq_of_mem_iff (starts h') hmem

/-- Spans that are sorted and apart in pairs are in ascending order. -/
theorem ascending_of_sorted {candidates : List Candidate}
    (hsorted : candidates.Pairwise fun a b => a.span.start ≤ b.span.start)
    (hapart : candidates.Pairwise fun a b =>
      a.span.stop ≤ b.span.start ∨ b.span.stop ≤ a.span.start)
    (hnonempty : ∀ c ∈ candidates, c.span.start < c.span.stop) : Ascending candidates := by
  refine ⟨(hsorted.and hapart).imp_of_mem ?_, hnonempty⟩
  rintro a b ha hb ⟨hle, hab⟩
  have := hnonempty a ha
  have := hnonempty b hb
  omega

/-- Asking the one candidate that the search finds is as good as asking all. -/
theorem overlapsAny_eq_any {held : List Candidate} (h : Ascending held) (c : Candidate) :
    overlapsAny held.toArray c = held.any (·.overlaps c) := by
  -- Stops ascend, so the candidates that end before the start of `c` come first.
  have hfirst : PassesFirst (fun k : Candidate => decide (k.span.stop ≤ c.span.start))
      held.toArray := by
    intro i j hij hj hpass
    simp only [List.getElem_toArray, decide_eq_true_eq] at hpass ⊢
    rcases Nat.lt_or_eq_of_le hij with hlt | rfl
    · have := h.stop_le hlt (by simpa using hj)
      have := h.nonempty _ (List.getElem_mem (by simpa using hj))
      omega
    · exact hpass
  obtain ⟨hpass, hfail⟩ := firstFailing_spec hfirst
  unfold overlapsAny
  generalize firstFailing _ held.toArray = next at hpass hfail
  rw [Bool.eq_iff_iff, List.any_eq_true]
  constructor
  · intro hany
    by_cases hnext : next < held.length
    · simp only [List.getElem?_toArray, List.getElem?_eq_getElem hnext, Option.any_some] at hany
      exact ⟨_, List.getElem_mem hnext, hany⟩
    · simp [List.getElem?_eq_none (Nat.le_of_not_lt hnext)] at hany
  · rintro ⟨k, hk, hoverlaps⟩
    obtain ⟨j, hj, rfl⟩ := List.getElem_of_mem hk
    have hle : next ≤ j := by
      by_contra hlt
      have := hpass j (by simpa using hj) (by omega)
      simp only [List.getElem_toArray, decide_eq_true_eq] at this
      have := (Candidate.overlaps_iff _ _).mp hoverlaps
      omega
    have hnext : next < held.length := by omega
    have hstop := hfail next (by simpa using hnext) (Nat.le_refl _)
    simp only [List.getElem_toArray, decide_eq_false_iff_not] at hstop
    simp only [List.getElem?_toArray, List.getElem?_eq_getElem hnext, Option.any_some]
    rcases Nat.lt_or_eq_of_le hle with hlt | rfl
    · -- What ends behind the start of `c` and in front of one that overlaps `c` overlaps it, too.
      have := h.stop_le hlt hj
      have := h.nonempty _ (List.getElem_mem hnext)
      have := (Candidate.overlaps_iff _ _).mp hoverlaps
      exact (Candidate.overlaps_iff _ _).mpr (by omega)
    · exact hoverlaps

/-! ## The join -/

/-- The joined candidates are the held ones and those that overlap none of them. -/
theorem mem_mergeDisjoint_iff {held : List Candidate} (h : Ascending held)
    (incoming : List Candidate) (c : Candidate) :
    c ∈ mergeDisjoint held incoming ↔
      c ∈ held ∨ c ∈ incoming ∧ ∀ k ∈ held, k.overlaps c = false := by
  have htaken : c ∈ incoming.filter (fun c => !overlapsAny held.toArray c) ↔
      c ∈ incoming ∧ ∀ k ∈ held, k.overlaps c = false := by
    rw [List.mem_filter, overlapsAny_eq_any h]
    simp
  unfold mergeDisjoint
  simp only
  split
  · rename_i hempty
    rw [List.isEmpty_iff] at hempty
    rw [hempty] at htaken
    simp only [← htaken, List.not_mem_nil, or_false]
  · rw [List.mem_mergeSort, List.mem_append, htaken]

/-- Candidates that come in behind all held ones are taken as they are. -/
theorem mergeDisjoint_eq_append {held incoming : List Candidate}
    (h : Ascending (held ++ incoming)) : mergeDisjoint held incoming = held ++ incoming := by
  obtain ⟨hheld, -, hbehind⟩ := List.pairwise_append.mp h.pairwise
  have hfree : incoming.filter (fun c => !overlapsAny held.toArray c) = incoming := by
    rw [List.filter_eq_self]
    intro c hc
    rw [overlapsAny_eq_any ⟨hheld, fun k hk => h.nonempty k (by simp [hk])⟩]
    simp only [Bool.not_eq_true', List.any_eq_false]
    intro k hk hoverlaps
    have := hbehind k hk c hc
    have := (Candidate.overlaps_iff k c).mp hoverlaps
    omega
  have hsorted : (held ++ incoming).Pairwise fun a b : Candidate =>
      decide (a.span.start ≤ b.span.start) = true := by
    refine h.pairwise.imp_of_mem ?_
    intro a b ha _ hab
    have := h.nonempty a ha
    exact decide_eq_true (by omega)
  unfold mergeDisjoint
  simp only [hfree]
  split
  · rename_i hempty
    rw [List.isEmpty_iff.mp hempty, List.append_nil]
  · exact List.mergeSort_of_pairwise hsorted

/-- The joined candidates are in order and apart, as the lists were that they come from. -/
theorem mergeDisjoint_ascending {held incoming : List Candidate} (h : Ascending held)
    (h' : Ascending incoming) : Ascending (mergeDisjoint held incoming) := by
  have hnonempty : ∀ c ∈ mergeDisjoint held incoming, c.span.start < c.span.stop := by
    intro c hc
    rcases (mem_mergeDisjoint_iff h incoming c).mp hc with hc | ⟨hc, -⟩
    · exact h.nonempty c hc
    · exact h'.nonempty c hc
  unfold mergeDisjoint at hnonempty ⊢
  simp only at hnonempty ⊢
  split at hnonempty
  · rename_i hempty
    rw [if_pos hempty]
    exact h
  · rename_i hempty
    rw [if_neg hempty]
    generalize htaken : incoming.filter (fun c => !overlapsAny held.toArray c) = taken at *
    -- Any two are apart before sorting, in either order, and sorting cannot change that.
    have hapart : (held ++ taken).Pairwise fun a b =>
        a.span.stop ≤ b.span.start ∨ b.span.stop ≤ a.span.start := by
      refine List.pairwise_append.mpr ⟨h.pairwise.imp Or.inl, ?_, ?_⟩
      · rw [← htaken]
        exact (h'.pairwise.filter _).imp Or.inl
      · intro k hk c hc
        rw [← htaken, List.mem_filter, overlapsAny_eq_any h] at hc
        have hfree : k.overlaps c = false := by simpa using (List.any_eq_false.mp (by simpa using hc.2)) k hk
        have := (Candidate.overlaps_iff k c).not.mp (by simp [hfree])
        omega
    have hapart' := ((List.mergeSort_perm (held ++ taken) fun a b =>
      decide (a.span.start ≤ b.span.start)).symm.pairwise_iff (by
        intro a b hab
        exact hab.symm)).mp hapart
    have hsorted : ((held ++ taken).mergeSort fun a b =>
        decide (a.span.start ≤ b.span.start)).Pairwise fun a b : Candidate =>
          decide (a.span.start ≤ b.span.start) = true :=
      List.pairwise_mergeSort (by simp; omega) (by simp; omega) (held ++ taken)
    exact ascending_of_sorted (hsorted.imp of_decide_eq_true) hapart' hnonempty

end NetRedact.Scan
