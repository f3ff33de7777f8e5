import NetRedact.Proofs.Splicing

/-!
# Giving a pass up

A pass looks at its caller's wish once for each hit of a detector, also for a hit that is then dropped,
and once more for each candidate that it replaces.  The main statement is that a pass has no result
between none and all: it is given up if the caller has given up by one of these checks, and otherwise it
gives what it gives without a caller who may give up.  A caller who gives up in advance is heard as soon
as one of the patterns occurs anywhere in the text; where none occurs there is nothing to replace.
-/

namespace NetRedact

open NetRedact.Text NetRedact.Scan

/-! ## Where a pass checks -/

/-- The number of checks of a pass that comes to its end: one for each hit, whether it is kept or not,
and one for each candidate. -/
def checks (text : List Char) : Nat :=
  hitCount text + (candidates text).length

/-- The rest of a pass checks once for each candidate, and else does not depend on the caller. -/
theorem Redaction.splice_eq (source : Source) (output : List Char) (entries : List MappingEntry)
    (occurrence cursor : Nat) (rest : List Char) (cs : List Candidate) (cancel : Cancellation) :
    splice source output entries occurrence cursor rest cs cancel =
      cancel.pass cs.length >>= fun _ =>
        splice source output entries occurrence cursor rest cs .never := by
  induction cs generalizing output entries occurrence cursor rest cancel with
  | nil => rfl
  | cons c cs ih =>
      rw [splice, List.length_cons, Cancellation.pass]
      cases cancel.check with
      | error e => rfl
      | ok left =>
          simp only
          rw [ih]
          rfl

/-- A pass is a row of checks, and behind them the result of the pass that is not given up. -/
theorem Redaction.runUntil_eq (source : Source) (text : List Char) (cancel : Cancellation) :
    runUntil source text cancel = cancel.pass (checks text) >>= fun _ => run source text := by
  rw [runUntil, findCandidates_eq, checks, Cancellation.pass_add, run_eq]
  cases cancel.pass (hitCount text) with
  | error e => rfl
  | ok left => exact splice_eq source [] [] 0 0 text (candidates text) left

/-! ## Texts without a hit -/

/-- Somewhere in the text stands what the pattern describes. -/
def Occurs (p : Pattern) (text : List Char) : Prop :=
  ∃ before literal after, text = before ++ (literal ++ after) ∧ p.Matches literal

/-- A search finds something wherever there is something, also where it would not be kept. -/
theorem hits_eq_nil_iff {p : Pattern} (hp : ¬ p.Matches []) (text : List Char) :
    hits p text = [] ↔ ¬ Occurs p text := by
  constructor
  · rintro hnone ⟨before, literal, after, rfl, hmatches⟩
    have hmem : literal.length ∈ p.lengths (literal ++ after) :=
      (Pattern.mem_lengths_iff p _ _).mpr ⟨literal, after, rfl, rfl, hmatches⟩
    obtain ⟨n, hn⟩ : ∃ n, p.matchLength? (literal ++ after) = some n := by
      rw [Pattern.matchLength?]
      exact ⟨_, List.head?_eq_some_head (List.ne_nil_of_mem hmem)⟩
    obtain ⟨h, hmem, -⟩ := exists_hit hp before hn
    rw [hnone] at hmem
    exact absurd hmem List.not_mem_nil
  · intro hfree
    rw [List.eq_nil_iff_forall_not_mem]
    intro h hmem
    obtain ⟨htext, -, hprefers⟩ := hit_of_mem hmem
    exact hfree ⟨_, _, _, htext, matches_of_prefers hprefers⟩

/-- Without hits there are no candidates, so there is nothing to check. -/
theorem checks_eq_zero_iff (text : List Char) :
    checks text = 0 ↔ ¬ ∃ kind, Occurs (detectorOf kind).pattern text := by
  have hkind (kind : AddressKind) : (hits (detectorOf kind).pattern text).length = 0 ↔
      ¬ Occurs (detectorOf kind).pattern text := by
    rw [List.length_eq_zero_iff, hits_eq_nil_iff (detectorOf_faithful kind).nonempty]
  constructor
  · rintro hzero ⟨kind, hoccurs⟩
    have hsome : ¬ (hits (detectorOf kind).pattern text).length = 0 := fun h =>
      (hkind kind).mp h hoccurs
    have hle : (hits (detectorOf kind).pattern text).length ≤ checks text := by
      cases kind <;> simp only [checks, hitCount, detectorOf] <;> omega
    omega
  · intro hfree
    have hnone (kind : AddressKind) : (hits (detectorOf kind).pattern text).length = 0 :=
      (hkind kind).mpr fun hoccurs => hfree ⟨kind, hoccurs⟩
    have hcandidates : candidates text = [] := by
      rw [List.eq_nil_iff_forall_not_mem]
      intro c hc
      have hfound := ((mem_candidates_iff text c).mp hc).1
      rw [Detector.found, List.length_eq_zero_iff.mp (hnone c.kind)] at hfound
      exact absurd hfound List.not_mem_nil
    have hipv6 : (hits Detector.ipv6.pattern text).length = 0 := hnone .ipv6
    have hipv4 : (hits Detector.ipv4.pattern text).length = 0 := hnone .ipv4
    have hmac : (hits Detector.mac.pattern text).length = 0 := hnone .mac
    rw [checks, hitCount, hipv6, hipv4, hmac, hcandidates]
    rfl

/-! ## All or nothing -/

/-- A pass is given up, or its result is the same as ever; and it is given up exactly if the caller has
given up by one of its checks.  If the caller gave up in advance, this means that one of the patterns
occurs in the text; and otherwise the text is not changed. -/
theorem runUntil_all_or_nothing (source : Source) (text : List Char) :
    ∃ r, Redaction.run source text = .ok r ∧
      (∀ cancel, Redaction.runUntil source text cancel = .error .cancelled ∨
        Redaction.runUntil source text cancel = .ok r) ∧
      (∀ cancel, Redaction.runUntil source text cancel = .error .cancelled ↔
        ∃ number < checks text, cancel.FiredBy number) ∧
      ((∃ kind, Occurs (detectorOf kind).pattern text) ∧
          Redaction.runUntil source text (.after 0) = .error .cancelled ∨
        (¬ ∃ kind, Occurs (detectorOf kind).pattern text) ∧
          Redaction.runUntil source text (.after 0) = .ok ⟨text, []⟩) := by
  obtain ⟨r, pieces, tail, hrun, hw⟩ := exists_woven source text
  have hresult (cancel : Cancellation) : Redaction.runUntil source text cancel =
      cancel.pass (checks text) >>= fun _ => .ok r := by
    rw [Redaction.runUntil_eq, hrun]
  refine ⟨r, hrun, ?_, ?_, ?_⟩
  · intro cancel
    rw [hresult]
    rcases cancel.pass_cases (checks text) with ⟨⟨left, hpass⟩, -⟩ | ⟨hpass, -⟩
    · rw [hpass]
      exact .inr rfl
    · rw [hpass]
      exact .inl rfl
  · intro cancel
    rw [hresult]
    rcases cancel.pass_cases (checks text) with ⟨⟨left, hpass⟩, hquiet⟩ | ⟨hpass, hfired⟩
    · rw [hpass]
      constructor
      · intro h
        cases h
      · rintro ⟨number, hlt, hfired⟩
        exact absurd hfired (hquiet number hlt)
    · rw [hpass]
      exact ⟨fun _ => hfired, fun _ => rfl⟩
  · rw [hresult, Cancellation.pass_after]
    by_cases hoccurs : ∃ kind, Occurs (detectorOf kind).pattern text
    · have hsome : ¬ checks text ≤ 0 := fun hle =>
        (checks_eq_zero_iff text).mp (Nat.le_zero.mp hle) hoccurs
      rw [if_neg hsome]
      exact .inl ⟨hoccurs, rfl⟩
    · have hzero := (checks_eq_zero_iff text).mpr hoccurs
      have hcandidates : candidates text = [] := by
        rw [checks] at hzero
        exact List.length_eq_zero_iff.mp (by omega)
      rw [hzero, if_pos (Nat.le_refl 0), hw.eq_of_candidates_nil hcandidates]
      exact .inr ⟨hoccurs, rfl⟩

end NetRedact
