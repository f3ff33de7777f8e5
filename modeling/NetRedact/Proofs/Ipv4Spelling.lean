import NetRedact.Address.Ipv4
import NetRedact.Proofs.Preference
import Mathlib.Data.List.Forall2
import Mathlib.Data.List.TakeDrop

/-!
# Spellings of IPv4 addresses

The reader of dotted quads accepts exactly four octets in decimal, without leading zeros, joined by
dots, and takes no digit behind the last one.
-/

namespace NetRedact

open NetRedact.Text NetRedact.Scan

theorem Octets.ofList?_eq_some_iff {n : Nat} {bytes : List UInt8} {octets : Octets n} :
    Octets.ofList? n bytes = some octets ↔ octets.toList = bytes := by
  unfold Octets.ofList?
  constructor
  · intro h
    split at h
    · obtain rfl := Option.some.inj h
      rfl
    · contradiction
  · rintro rfl
    simp [Vector.toList]

namespace Ipv4

/-- One to three digits without a leading zero that give an octet. -/
structure OctetWord (word : List Char) (octet : UInt8) : Prop where
  run : Run Char.isDigit 1 3 word
  noLeadingZero : ∀ d rest, word ≠ '0' :: d :: rest
  le : decimalNumber word ≤ 255
  value : octet = UInt8.ofNat (decimalNumber word)

/-- An octet is read where a word for it stands and no further digit. -/
theorem readOctet_eq_some_iff {cs rest : List Char} {octet : UInt8} :
    readOctet cs = some (octet, rest) ↔
      ∃ word, cs = word ++ rest ∧ OctetWord word octet ∧ StopsAt Char.isDigit rest := by
  -- The reader takes all digits that there are, so it is looked at for a given cut of the text.
  have hread : ∀ word back, cs.span Char.isDigit = (word, back) →
      (readOctet cs = some (octet, rest) ↔
        back = rest ∧ word ≠ [] ∧ (∀ d more, word ≠ '0' :: d :: more) ∧ word.length ≤ 3 ∧
          decimalNumber word ≤ 255 ∧ octet = UInt8.ofNat (decimalNumber word)) := by
    intro word back hspan
    unfold readOctet spanDigits
    rw [hspan]
    split
    · rename_i heq
      obtain ⟨rfl, rfl⟩ := Prod.mk.inj heq
      rcases word with _ | ⟨c, _ | ⟨d, more⟩⟩
      · simp
      · simp only [Bool.and_eq_true, decide_eq_true_eq, Option.ite_none_right_eq_some,
          Option.some.injEq, Prod.mk.injEq]
        grind
      · by_cases hc : c = '0'
        · subst hc
          simp
        · simp only [Bool.and_eq_true, decide_eq_true_eq, Option.ite_none_right_eq_some,
            Option.some.injEq, Prod.mk.injEq]
          grind
  constructor
  · intro h
    obtain ⟨hcs, hall, hstop⟩ := span_eq_iff.mp (rfl : cs.span Char.isDigit = _)
    obtain ⟨hrest, hne, hzero, hlength, hle, hvalue⟩ := (hread _ _ rfl).mp h
    rw [hrest] at hcs hstop
    exact ⟨_, hcs, ⟨⟨hall, List.length_pos_iff.mpr hne, hlength⟩, hzero, hle, hvalue⟩, hstop⟩
  · rintro ⟨word, hcs, ⟨hrun, hzero, hle, hvalue⟩, hstop⟩
    refine (hread word rest (span_eq_iff.mpr ⟨hcs, hrun.1, hstop⟩)).mpr
      ⟨rfl, List.length_pos_iff.mp hrun.2.1, hzero, hrun.2.2, hle, hvalue⟩

/-- Octets are read where as many words stand with a dot before each. -/
theorem readDottedOctets_eq_some_iff {count : Nat} {cs rest : List Char} {octets : List UInt8}
    (hcount : count ≠ 0) :
    readDottedOctets count cs = some (octets, rest) ↔
      ∃ words, words.length = count ∧ List.Forall₂ OctetWord words octets ∧
        cs = words.flatMap (['.'] ++ ·) ++ rest ∧ StopsAt Char.isDigit rest := by
  induction count generalizing cs octets with
  | zero => exact absurd rfl hcount
  | succ count ih =>
      constructor
      · intro h
        rcases cs with _ | ⟨c, cs⟩
        · simp [readDottedOctets] at h
        · by_cases hc : c = '.'
          · subst hc
            simp only [readDottedOctets, Option.bind_eq_bind, Option.bind_eq_some_iff, Prod.exists,
              Option.pure_def, Option.some.injEq, Prod.mk.injEq] at h
            obtain ⟨octet, middle, hoctet, later, rest', hlater, rfl, rfl⟩ := h
            obtain ⟨word, rfl, hword, hstop⟩ := readOctet_eq_some_iff.mp hoctet
            cases count with
            | zero =>
                simp only [readDottedOctets, Option.some.injEq, Prod.mk.injEq] at hlater
                obtain ⟨rfl, rfl⟩ := hlater
                exact ⟨[word], rfl, by simpa using hword, by simp, hstop⟩
            | succ count =>
                obtain ⟨words, hlength, hwords, rfl, hstop'⟩ := (ih (Nat.succ_ne_zero _)).mp hlater
                exact ⟨word :: words, by simp [hlength], by simp [hword, hwords], by simp, hstop'⟩
          · rw [readDottedOctets] at h
            · contradiction
            · intro more hmore
              exact hc (List.cons.inj hmore).1
      · rintro ⟨words, hlength, hwords, rfl, hstop⟩
        cases hwords with
        | nil => simp at hlength
        | @cons word octet words octets hword hwords =>
            -- Behind the first word comes the dot of the next one, or what comes behind them all.
            have hnext : StopsAt Char.isDigit (words.flatMap (['.'] ++ ·) ++ rest) := by
              cases words with
              | nil => exact hstop
              | cons next words => exact stopsAt_cons (by decide) _
            have hoctet : readOctet (word ++ (words.flatMap (['.'] ++ ·) ++ rest)) =
                some (octet, words.flatMap (['.'] ++ ·) ++ rest) :=
              readOctet_eq_some_iff.mpr ⟨word, rfl, hword, hnext⟩
            have hlater : readDottedOctets count (words.flatMap (['.'] ++ ·) ++ rest) =
                some (octets, rest) := by
              cases count with
              | zero =>
                  obtain rfl := List.length_eq_zero_iff.mp (by simpa using hlength)
                  cases hwords
                  rfl
              | succ count =>
                  exact (ih (Nat.succ_ne_zero _)).mpr ⟨words, by simpa using hlength, hwords, rfl, hstop⟩
            simp only [List.flatMap_cons, List.append_assoc, List.singleton_append] at hoctet hlater ⊢
            simp [readDottedOctets, hoctet, hlater]

/-- Four words for the four octets of an address. -/
def Spells (words : List (List Char)) (octets : Octets 4) : Prop :=
  List.Forall₂ OctetWord words octets.toList

theorem Spells.length {words : List (List Char)} {octets : Octets 4} (h : Spells words octets) :
    words.length = 4 := by
  rw [List.Forall₂.length_eq h]
  simp

theorem Spells.run {words : List (List Char)} {octets : Octets 4} (h : Spells words octets) :
    ∀ word ∈ words, Run Char.isDigit 1 3 word := by
  rw [Spells] at h
  generalize octets.toList = bytes at h
  induction h with
  | nil => simp
  | cons hword _ ih =>
      intro w hw
      rcases List.mem_cons.mp hw with rfl | hw
      · exact hword.run
      · exact ih w hw

theorem Spells.quadShape {words : List (List Char)} {octets : Octets 4} (h : Spells words octets) :
    QuadShape (joinWith ['.'] words) :=
  ⟨words, h.length, h.run, rfl⟩

/-- An address is read at the front of a text where four words for it stand and no further digit. -/
theorem readFirst_eq_some_iff {cs rest : List Char} {octets : Octets 4} :
    readFirst cs = some (octets, rest) ↔
      ∃ words, Spells words octets ∧ cs = joinWith ['.'] words ++ rest ∧
        StopsAt Char.isDigit rest := by
  simp only [readFirst, Option.bind_eq_bind, Option.bind_eq_some_iff, Prod.exists, Option.pure_def,
    Option.some.injEq, Prod.mk.injEq]
  constructor
  · rintro ⟨octet, middle, hoctet, later, rest', hlater, quad, hquad, rfl, rfl⟩
    obtain ⟨word, rfl, hword, -⟩ := readOctet_eq_some_iff.mp hoctet
    obtain ⟨words, hlength, hwords, rfl, hstop⟩ :=
      (readDottedOctets_eq_some_iff (by decide)).mp hlater
    refine ⟨word :: words, ?_, by simp [joinWith], hstop⟩
    rw [Spells, Octets.ofList?_eq_some_iff.mp hquad]
    exact List.Forall₂.cons hword hwords
  · rintro ⟨words, hwords, rfl, hstop⟩
    have hlength := hwords.length
    rw [Spells] at hwords
    cases hlist : octets.toList with
    | nil =>
        rw [hlist] at hwords
        cases hwords
        simp at hlength
    | cons octet later =>
        rw [hlist] at hwords
        cases hwords with
        | @cons word _ words _ hword hwords =>
            have hthree : words.length = 3 := by simpa using hlength
            have hnext : StopsAt Char.isDigit (words.flatMap (['.'] ++ ·) ++ rest) := by
              cases words with
              | nil => simp at hthree
              | cons next words => exact stopsAt_cons (by decide) _
            refine ⟨octet, words.flatMap (['.'] ++ ·) ++ rest,
              readOctet_eq_some_iff.mpr ⟨word, by simp [joinWith], hword, hnext⟩, later, rest,
              (readDottedOctets_eq_some_iff (by decide)).mpr ⟨words, hthree, hwords, rfl, hstop⟩,
              octets, ?_, rfl, rfl⟩
            rw [Octets.ofList?_eq_some_iff, hlist]

/-- A text is read as an address exactly if it spells it. -/
theorem read?_eq_some_iff {cs : List Char} {octets : Octets 4} :
    read? cs = some octets ↔ ∃ words, Spells words octets ∧ cs = joinWith ['.'] words := by
  have hfirst : read? cs = some octets ↔ readFirst cs = some (octets, []) := by
    unfold read?
    constructor
    · intro h
      split at h
      · rename_i quad heq
        obtain rfl := Option.some.inj h
        exact heq
      · contradiction
    · intro h
      rw [h]
  rw [hfirst, readFirst_eq_some_iff]
  simp [stopsAt_nil]

/-- Every text that is read as an address has the shape of one. -/
theorem quadShape_of_read? {cs : List Char} {octets : Octets 4} (h : read? cs = some octets) :
    QuadShape cs := by
  obtain ⟨words, hwords, rfl⟩ := read?_eq_some_iff.mp h
  exact hwords.quadShape

end Ipv4

end NetRedact
