import NetRedact.Table
import Mathlib.Data.Set.Card

/-!
# What a table gives after it was changed

`Table` says what can be found after an insertion.  Sweeps take entries away, all at once and by a
test on the entry; what can be found then follows from the fact that no key stands twice.  For the
same reason a table grows and shrinks by single entries.
-/

namespace NetRedact.Table

variable {κ α : Type} [DecidableEq κ]

/-- Thinning out a list of pairs thins out what is found in it.  A pair that is dropped must not
uncover a later one, so the keys have to be different. -/
private theorem lookup_filter (keep : κ → α → Bool) (key : κ) :
    ∀ entries : List (κ × α), (entries.map Prod.fst).Nodup →
      (entries.filter fun entry => keep entry.1 entry.2).lookup key =
        (entries.lookup key).filter (keep key) := by
  intro entries
  induction entries with
  | nil =>
      intro _
      rfl
  | cons entry rest ih =>
      intro hnodup
      obtain ⟨k, v⟩ := entry
      have hfresh : k ∉ rest.map Prod.fst := (List.nodup_cons.mp hnodup).1
      have hrest := ih (List.nodup_cons.mp hnodup).2
      by_cases hkey : key = k
      · subst hkey
        have hnone : rest.lookup key = none := by
          rw [List.lookup_eq_none_iff]
          intro other hother
          have hmem : other.1 ∈ rest.map Prod.fst := List.mem_map_of_mem hother
          simpa using fun heq : key = other.1 => hfresh (heq ▸ hmem)
        by_cases hkeep : keep key v
        · rw [List.filter_cons_of_pos (by exact hkeep), List.lookup_cons_self, List.lookup_cons_self,
            Option.filter_some, if_pos hkeep]
        · rw [List.filter_cons_of_neg (by exact hkeep), hrest, hnone, List.lookup_cons_self,
            Option.filter_some, if_neg hkeep, Option.filter_none]
      · have hne : (key == k) = false := by simp [hkey]
        by_cases hkeep : keep k v
        · rw [List.filter_cons_of_pos (by exact hkeep), List.lookup_cons, List.lookup_cons, hne]
          exact hrest
        · rw [List.filter_cons_of_neg (by exact hkeep), List.lookup_cons, hne]
          exact hrest

/-- A key has its value after thinning out if the entry passes the test. -/
theorem find?_filter (keep : κ → α → Bool) (t : Table κ α) (key : κ) :
    (t.filter keep).find? key = (t.find? key).filter (keep key) :=
  lookup_filter keep key t.entries t.nodup

/-- An erased key has no value. -/
theorem find?_erase_self (t : Table κ α) (key : κ) : (t.erase key).find? key = none := by
  unfold erase
  rw [find?_filter]
  cases t.find? key with
  | none => rfl
  | some value => simp [Option.filter]

/-- Changing every value of a list of pairs changes what is found in it. -/
private theorem lookup_map (change : α → α) (key : κ) (entries : List (κ × α)) :
    (entries.map fun entry => (entry.1, change entry.2)).lookup key =
      (entries.lookup key).map change := by
  induction entries with
  | nil => rfl
  | cons entry rest ih =>
      obtain ⟨k, v⟩ := entry
      rw [List.map_cons, List.lookup_cons, List.lookup_cons]
      cases key == k with
      | true => rfl
      | false => exact ih

/-- A key has the changed value when all values have been changed. -/
theorem find?_map (change : α → α) (t : Table κ α) (key : κ) :
    (t.map change).find? key = (t.find? key).map change :=
  lookup_map change key t.entries

/-! ## Sizes -/

omit [DecidableEq κ] in
/-- A table holds the entries that pass a test and those that fail it. -/
theorem size_eq_size_filter_add (keep : κ → α → Bool) (t : Table κ α) :
    t.size = (t.filter keep).size + t.entries.countP fun entry => !keep entry.1 entry.2 := by
  have hsplit := List.length_eq_countP_add_countP (fun entry : κ × α => keep entry.1 entry.2)
    (l := t.entries)
  rw [List.countP_eq_length_filter] at hsplit
  simpa [size, filter] using hsplit

/-- A key without a value stands at no entry. -/
theorem ne_of_find?_eq_none {t : Table κ α} {key : κ} (hnone : t.find? key = none) :
    ∀ entry ∈ t.entries, entry.1 ≠ key := by
  intro entry hentry hkey
  have hne := List.lookup_eq_none_iff.mp hnone entry hentry
  simp [hkey] at hne

/-- A key with a value stands at one entry. -/
theorem countP_key {t : Table κ α} {key : κ} {value : α} (hsome : t.find? key = some value) :
    (t.entries.countP fun entry => entry.1 == key) = 1 := by
  obtain ⟨front, back, hentries, -⟩ := List.lookup_eq_some_iff.mp hsome
  have hmem : key ∈ t.entries.map Prod.fst := by
    rw [hentries]
    simp
  have hcount := t.nodup.count (a := key)
  rw [if_pos hmem, List.count_eq_countP, List.countP_map] at hcount
  exact hcount

/-- The keys that stand at an entry are those with a value. -/
theorem coe_keys (t : Table κ α) :
    ((t.entries.map Prod.fst).toFinset : Set κ) = {key | (t.find? key).isSome = true} := by
  ext key
  rw [List.coe_toFinset]
  show key ∈ t.entries.map Prod.fst ↔ (t.find? key).isSome = true
  constructor
  · intro hmem
    by_contra hnone
    obtain ⟨entry, hentry, hkey⟩ := List.mem_map.mp hmem
    exact ne_of_find?_eq_none (by simpa using hnone) entry hentry hkey
  · intro hsome
    obtain ⟨value, hvalue⟩ := Option.isSome_iff_exists.mp hsome
    obtain ⟨front, back, hentries, -⟩ := List.lookup_eq_some_iff.mp hvalue
    rw [hentries]
    simp

/-- Finitely many keys have a value. -/
theorem finite_keys (t : Table κ α) : {key | (t.find? key).isSome = true}.Finite := by
  rw [← coe_keys]
  exact Finset.finite_toSet _

/-- A table has as many entries as keys with a value. -/
theorem size_eq_ncard (t : Table κ α) : t.size = {key | (t.find? key).isSome = true}.ncard := by
  rw [← coe_keys, Set.ncard_coe_finset, List.toFinset_card_of_nodup t.nodup, List.length_map]
  rfl

/-- A table grows by one entry when a new key gets a value. -/
theorem size_insert {t : Table κ α} {key : κ} (value : α) (hnone : t.find? key = none) :
    (t.insert key value).size = t.size + 1 := by
  have hkept : (t.erase key).entries = t.entries := by
    unfold erase filter
    rw [List.filter_eq_self]
    intro entry hentry
    exact decide_eq_true (ne_of_find?_eq_none hnone entry hentry)
  show (t.erase key).entries.length + 1 = t.entries.length + 1
  rw [hkept]

/-- A table shrinks by one entry when a key loses its value. -/
theorem size_erase {t : Table κ α} {key : κ} {value : α} (hsome : t.find? key = some value) :
    t.size = (t.erase key).size + 1 := by
  rw [size_eq_size_filter_add (fun k _ => decide (k ≠ key)) t]
  have hone := countP_key hsome
  have hsame : (fun entry : κ × α => !decide (entry.1 ≠ key)) = fun entry => entry.1 == key := by
    funext entry
    simp only [ne_eq, decide_not, Bool.not_not]
    rfl
  rw [hsame, hone]
  rfl

end NetRedact.Table
