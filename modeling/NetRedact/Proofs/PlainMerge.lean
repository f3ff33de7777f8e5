import NetRedact.Proofs.Merge
import Mathlib.Order.Interval.Set.Disjoint

/-!
# The plain join

Two lists of candidates can be joined without any search: every incoming candidate is compared with
every held one, byte by byte, and what is left is put in order one by one.  This module says that the
join with the binary search comes to the same list, for any two lists that are in order.  That the
result is in order again is what allows it to be joined with the next list.

Here candidates are told apart by the bytes that they cover.  Where no span is empty, this is the
comparison of their ends.
-/

namespace NetRedact.Scan

/-! ## Bytes -/

/-- The bytes that a span covers. -/
def Span.bytes (s : Span) : Set Nat :=
  Set.Ico s.start s.stop

theorem Span.bytes_nonempty_iff (s : Span) : s.bytes.Nonempty ↔ s.start < s.stop :=
  Set.nonempty_Ico

/-- No byte belongs to both candidates. -/
def Candidate.Apart (a b : Candidate) : Prop :=
  ∀ byte ∈ a.span.bytes, byte ∉ b.span.bytes

theorem Candidate.apart_iff (a b : Candidate) :
    a.Apart b ↔ min a.span.stop b.span.stop ≤ max a.span.start b.span.start :=
  Set.disjoint_left.symm.trans Set.Ico_disjoint_Ico

instance (a b : Candidate) : Decidable (a.Apart b) :=
  decidable_of_iff _ (Candidate.apart_iff a b).symm

theorem Candidate.Apart.symm {a b : Candidate} (h : a.Apart b) : b.Apart a :=
  fun byte hb ha => h byte ha hb

/-- Comparing the ends of two spans tells whether they share a byte, unless one of them is empty. -/
theorem Candidate.apart_iff_overlaps {a b : Candidate} (ha : a.span.start < a.span.stop)
    (hb : b.span.start < b.span.stop) : a.Apart b ↔ a.overlaps b = false := by
  rw [Candidate.apart_iff, ← Bool.not_eq_true, Candidate.overlaps_iff]
  omega

/-! ## Lists in order -/

/-- Candidates sorted by offset, of which no two share a byte and none is empty. -/
structure InOrder (candidates : List Candidate) : Prop where
  sorted : candidates.Pairwise fun a b => a.span.start ≤ b.span.start
  apart : candidates.Pairwise Candidate.Apart
  nonempty : ∀ c ∈ candidates, c.span.bytes.Nonempty

/-- In a list in order, each candidate ends before the next one starts. -/
theorem inOrder_iff {candidates : List Candidate} :
    InOrder candidates ↔ Ascending candidates := by
  constructor
  · intro h
    have hnonempty : ∀ c ∈ candidates, c.span.start < c.span.stop :=
      fun c hc => c.span.bytes_nonempty_iff.mp (h.nonempty c hc)
    refine ascending_of_sorted h.sorted (h.apart.imp_of_mem ?_) hnonempty
    intro a b ha hb hapart
    have := hnonempty a ha
    have := hnonempty b hb
    have := (Candidate.apart_iff a b).mp hapart
    omega
  · intro h
    refine ⟨h.pairwise.imp_of_mem ?_, h.pairwise.imp ?_, ?_⟩
    · intro a b ha _ hle
      have := h.nonempty a ha
      omega
    · intro a b hle
      exact (Candidate.apart_iff a b).mpr (by omega)
    · exact fun c hc => c.span.bytes_nonempty_iff.mpr (h.nonempty c hc)

/-- No candidate stands twice in a list in order. -/
theorem InOrder.nodup {candidates : List Candidate} (h : InOrder candidates) :
    candidates.Nodup := by
  refine h.apart.imp_of_mem ?_
  rintro a b ha _ hapart rfl
  obtain ⟨byte, hbyte⟩ := h.nonempty a ha
  exact hapart byte hbyte hbyte

/-! ## The join -/

/-- Adds every incoming candidate that shares no byte with any held one, and puts them all in order
one by one. -/
def plainMerge (held incoming : List Candidate) : List Candidate :=
  (held ++ incoming.filter fun c => decide (∀ k ∈ held, k.Apart c)).insertionSort
    fun a b => a.span.start ≤ b.span.start

/-- What is taken is decided by comparing with all held candidates. -/
theorem mem_mergeDisjoint_iff_apart {held incoming : List Candidate} (h : InOrder held)
    (h' : InOrder incoming) (c : Candidate) :
    c ∈ mergeDisjoint held incoming ↔ c ∈ held ∨ c ∈ incoming ∧ ∀ k ∈ held, k.Apart c := by
  have hheld := inOrder_iff.mp h
  have hincoming := inOrder_iff.mp h'
  rw [mem_mergeDisjoint_iff hheld]
  refine or_congr_right (and_congr_right fun hc => forall₂_congr fun k hk => ?_)
  exact (Candidate.apart_iff_overlaps (hheld.nonempty k hk) (hincoming.nonempty c hc)).symm

theorem mem_plainMerge_iff (held incoming : List Candidate) (c : Candidate) :
    c ∈ plainMerge held incoming ↔ c ∈ held ∨ c ∈ incoming ∧ ∀ k ∈ held, k.Apart c := by
  simp [plainMerge, List.mem_insertionSort]

/-- The plain join of lists in order is in order.  Sorting does not change which candidates there
are, so it is enough that they are apart before they are sorted. -/
theorem plainMerge_inOrder {held incoming : List Candidate} (h : InOrder held)
    (h' : InOrder incoming) : InOrder (plainMerge held incoming) where
  sorted := by
    have : IsTrans Candidate fun a b => a.span.start ≤ b.span.start :=
      ⟨fun _ _ _ => Nat.le_trans⟩
    have : Std.Total fun a b : Candidate => a.span.start ≤ b.span.start :=
      ⟨fun _ _ => Nat.le_total _ _⟩
    exact List.pairwise_insertionSort _ _
  apart := by
    have hperm := List.perm_insertionSort (fun a b : Candidate => a.span.start ≤ b.span.start)
      (held ++ incoming.filter fun c => decide (∀ k ∈ held, k.Apart c))
    refine (hperm.pairwise_iff Candidate.Apart.symm).mpr ?_
    refine List.pairwise_append.mpr ⟨h.apart, h'.apart.filter _, ?_⟩
    intro k hk c hc
    exact of_decide_eq_true (List.mem_filter.mp hc).2 k hk
  nonempty := by
    intro c hc
    rcases (mem_plainMerge_iff held incoming c).mp hc with hc | ⟨hc, -⟩
    · exact h.nonempty c hc
    · exact h'.nonempty c hc

/-- The join with the search is the plain join, and it is in order again: it consists of the held
candidates and of each incoming one that shares no byte with any of them, each of them once. -/
theorem mergeDisjoint_eq_plainMerge {held incoming : List Candidate} (h : InOrder held)
    (h' : InOrder incoming) :
    mergeDisjoint held incoming = plainMerge held incoming ∧
      InOrder (mergeDisjoint held incoming) ∧ (mergeDisjoint held incoming).Nodup ∧
        ∀ c, c ∈ mergeDisjoint held incoming ↔
          c ∈ held ∨ c ∈ incoming ∧ ∀ k ∈ held, k.Apart c := by
  have hascending := mergeDisjoint_ascending (inOrder_iff.mp h) (inOrder_iff.mp h')
  have hinOrder : InOrder (mergeDisjoint held incoming) := inOrder_iff.mpr hascending
  have hmem := mem_mergeDisjoint_iff_apart h h'
  refine ⟨?_, hinOrder, hinOrder.nodup, hmem⟩
  -- Lists in order are the same if they have the same members.
  refine hascending.eq_of_mem_iff (inOrder_iff.mp (plainMerge_inOrder h h')) ?_
  intro c
  rw [hmem, mem_plainMerge_iff]

/-- Four candidates come to two held ones.  The one between them touches both and is taken, as is the
one behind them, while those that reach into the second one are not. -/
theorem mergeDisjoint_eq_plainMerge_touching :
    let place (start stop : Nat) : Candidate := ⟨⟨start, stop⟩, .ipv4 #v[10, 0, 0, 1]⟩
    let held := [place 2 9, place 16 30]
    let incoming := [place 9 16, place 17 20, place 28 36, place 36 44]
    InOrder held ∧ InOrder incoming ∧
      mergeDisjoint held incoming = [place 2 9, place 9 16, place 16 30, place 36 44] := by
  intro place held incoming
  have hheld : InOrder held := inOrder_iff.mpr ⟨by decide, by decide⟩
  have hincoming : InOrder incoming := inOrder_iff.mpr ⟨by decide, by decide⟩
  exact ⟨hheld, hincoming, (mergeDisjoint_eq_plainMerge hheld hincoming).1.trans (by decide)⟩

end NetRedact.Scan
