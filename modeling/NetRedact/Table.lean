/-!
# Tables

A finite map with at most one value for each key.  The order of the entries carries no meaning.
What each operation does is said by what can be found afterwards.
-/

namespace NetRedact

/-- A finite map. -/
structure Table (κ α : Type) where
  entries : List (κ × α)
  nodup : (entries.map Prod.fst).Nodup

namespace Table

variable {κ α : Type}

/-- The table without entries. -/
def empty : Table κ α :=
  ⟨[], List.nodup_nil⟩

instance : Inhabited (Table κ α) := ⟨empty⟩

/-- The number of entries. -/
def size (t : Table κ α) : Nat :=
  t.entries.length

/-- The entries that pass a test. -/
def filter (keep : κ → α → Bool) (t : Table κ α) : Table κ α :=
  ⟨t.entries.filter fun entry => keep entry.1 entry.2,
    t.nodup.sublist (List.filter_sublist.map Prod.fst)⟩

/-- The table with every value changed by a function. -/
def map (change : α → α) (t : Table κ α) : Table κ α :=
  ⟨t.entries.map fun entry => (entry.1, change entry.2), by
    simpa [List.map_map, Function.comp_def] using t.nodup⟩

variable [DecidableEq κ]

/-- The value of a key. -/
def find? (t : Table κ α) (key : κ) : Option α :=
  t.entries.lookup key

/-- The table without an entry for a key. -/
def erase (t : Table κ α) (key : κ) : Table κ α :=
  t.filter fun k _ => k ≠ key

/-- The table in which a key has the given value. -/
def insert (t : Table κ α) (key : κ) (value : α) : Table κ α :=
  ⟨(key, value) :: (t.erase key).entries, by
    refine List.nodup_cons.mpr ⟨?_, (t.erase key).nodup⟩
    simp [erase, filter]⟩

theorem find?_empty (key : κ) : (empty : Table κ α).find? key = none := rfl

theorem find?_insert_self (t : Table κ α) (key : κ) (value : α) :
    (t.insert key value).find? key = some value := by
  simp [insert, find?]

private theorem lookup_filter_ne (entries : List (κ × α)) {key other : κ} (h : other ≠ key) :
    (entries.filter fun entry => decide (entry.1 ≠ key)).lookup other = entries.lookup other := by
  induction entries with
  | nil => rfl
  | cons entry rest ih =>
    obtain ⟨k, v⟩ := entry
    by_cases hk : k = key
    · have hne : (other == key) = false := by simp [h]
      rw [List.filter_cons_of_neg (by simp [hk]), ih, hk, List.lookup_cons, hne]
    · rw [List.filter_cons_of_pos (by simp [hk]), List.lookup_cons, List.lookup_cons, ih]

theorem find?_insert_ne (t : Table κ α) {key other : κ} (h : other ≠ key) (value : α) :
    (t.insert key value).find? other = t.find? other := by
  have hne : (other == key) = false := by simp [h]
  rw [find?, insert, List.lookup_cons, hne]
  exact lookup_filter_ne t.entries h

theorem find?_erase_ne (t : Table κ α) {key other : κ} (h : other ≠ key) :
    (t.erase key).find? other = t.find? other :=
  lookup_filter_ne t.entries h

end Table

end NetRedact
