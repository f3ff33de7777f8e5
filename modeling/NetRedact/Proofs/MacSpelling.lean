import NetRedact.Address.Mac
import NetRedact.Proofs.Seams

/-!
# Reading MAC literals

The reader of MAC literals looks at the digits alone.  Every text of the shape that the scan looks
for has twelve of them, so it is read, in the layout that its separator shows.
-/

namespace NetRedact.Mac

open NetRedact.Text NetRedact.Scan

theorem bytesOfHex?_isSome {n : Nat} {cs : List Char} (hcs : ∀ c ∈ cs, isHexDigit c = true)
    (hlength : cs.length = 2 * n) : ∃ bytes, bytesOfHex? cs = some bytes ∧ bytes.length = n := by
  induction n generalizing cs with
  | zero =>
      obtain rfl := List.length_eq_zero_iff.mp hlength
      exact ⟨[], rfl, rfl⟩
  | succ n ih =>
      match cs, hlength with
      | high :: low :: rest, hlength =>
          simp only [List.length_cons] at hlength
          have hrest : ∀ c ∈ rest, isHexDigit c = true := fun c hc => hcs c (by simp [hc])
          obtain ⟨bytes, hbytes, rfl⟩ := ih hrest (by omega)
          obtain ⟨h, hhigh⟩ := Option.isSome_iff_exists.mp (hcs high (by simp))
          obtain ⟨l, hlow⟩ := Option.isSome_iff_exists.mp (hcs low (by simp))
          refine ⟨UInt8.ofNat (16 * h + l) :: bytes, ?_, rfl⟩
          simp only [bytesOfHex?, hhigh, hlow, hbytes]

/-- The digits of a join are those of its words. -/
theorem filter_joinWith {s : Char} (hs : isSeparator s = true) {words : List (List Char)}
    (hwords : ∀ word ∈ words, ∀ c ∈ word, isHexDigit c = true) :
    (joinWith [s] words).filter isHexDigit = words.flatten := by
  induction words with
  | nil => rfl
  | cons word words ih =>
      have hword : word.filter isHexDigit = word := List.filter_eq_self.mpr (hwords word (by simp))
      have hrest := ih fun w hw => hwords w (by simp [hw])
      cases words with
      | nil => simp [hword]
      | cons next words =>
          rw [joinWith_cons_cons, List.filter_append, List.filter_append, hrest, hword]
          simp [isHexDigit_eq_false_of_isSeparator hs]

private theorem digits_of_joined {s : Char} {count width : Nat} {cs : List Char}
    (hs : isSeparator s = true) (h : Joined s count isHexDigit width width cs) :
    (cs.filter isHexDigit).length = count * width := by
  obtain ⟨words, rfl, hwords, rfl⟩ := h
  rw [filter_joinWith hs fun word hword => (hwords word hword).1, List.length_flatten,
    map_length_of_run hwords, List.sum_replicate_nat]

/-- Every MAC literal is read. -/
theorem read?_of_macShape {cs : List Char} (h : MacShape cs) :
    ∃ octets, read? cs = some (octets, styleOf cs) := by
  have htwelve : (cs.filter isHexDigit).length = 2 * 6 := by
    rcases h with hcolon | hhyphen | hdotted
    · show (cs.filter isHexDigit).length = 6 * 2
      exact digits_of_joined rfl hcolon
    · show (cs.filter isHexDigit).length = 6 * 2
      exact digits_of_joined rfl hhyphen
    · show (cs.filter isHexDigit).length = 3 * 4
      exact digits_of_joined rfl hdotted
  obtain ⟨bytes, hbytes, hlength⟩ :=
    bytesOfHex?_isSome (fun c hc => (List.mem_filter.mp hc).2) htwelve
  refine ⟨⟨bytes.toArray, hlength⟩, ?_⟩
  rw [read?, hbytes]
  simp [Octets.ofList?, hlength]

end NetRedact.Mac
