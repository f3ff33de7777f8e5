import NetRedact.Mapping.Codec
import NetRedact.Proofs.Handles
import NetRedact.Proofs.JsonValues
import NetRedact.Proofs.Stamps

/-!
# Stored records are read back

The text of a record can always be read, and it keeps the handle, the entries with whatever
characters their texts hold, and both stamps to the nanosecond.  One thing gets lost: that a stamp
lies in a leap second that does not end a minute.  Such a stamp is read as the same fraction of the
second behind, and the lifetime of the record may change with it.  All other records are read as they
were.
-/

namespace NetRedact

open NetRedact.Json NetRedact.Text

/-- A kind is known by its name. -/
theorem AddressKind.ofJson?_label (kind : AddressKind) :
    AddressKind.ofJson? (.text (some kind.label.toList)) = some kind := by
  have hname : String.ofList kind.label.toList = kind.label := String.ofList_toList
  change AddressKind.ofLabel? (String.ofList kind.label.toList) = some kind
  rw [hname]
  cases kind <;> decide

/-! ## Entries -/

namespace MappingEntry

/-- The members of an entry in its text. -/
def members (e : MappingEntry) : List Member :=
  [⟨"original", quote e.literal, .text (some e.literal)⟩,
    ⟨"surrogate", quote e.surrogate, .text (some e.surrogate)⟩,
    ⟨"kind", quote e.kind.label.toList, .text (some e.kind.label.toList)⟩]

/-- The value that the text of an entry spells. -/
def value (e : MappingEntry) : Value :=
  .object (e.members.map Member.read)

theorem spells_toJson (e : MappingEntry) : Spells e.toJson e.value := by
  have hmembers : ∀ m ∈ e.members, Spells m.text m.value := by simp [members, spells_quote]
  have htext : e.toJson = object (e.members.map Member.written) := rfl
  rw [htext]
  exact spells_object hmembers

theorem ofJson?_value (e : MappingEntry) : ofJson? e.value = some e := by
  have hnames : (e.members.map Member.name).Nodup :=
    (by decide : ["original", "surrogate", "kind"].Nodup)
  have hfields : Value.fields? ["original", "surrogate", "kind"] e.value = _ :=
    fields?_read hnames
  rw [ofJson?, hfields]
  simp [members, Value.text?, AddressKind.ofJson?_label]

end MappingEntry

/-! ## Records -/

namespace MappingRecord

/-- The stamps of a record are stamps. -/
def IsValid (r : MappingRecord) : Prop :=
  r.createdAt.IsValid ∧ r.expiresAt.IsValid

instance (r : MappingRecord) : Decidable r.IsValid :=
  inferInstanceAs (Decidable (_ ∧ _))

/-- If a stamp of the record lies in a leap second, then this is one at the end of a minute. -/
def LeapsEndMinutes (r : MappingRecord) : Prop :=
  r.createdAt.LeapEndsMinute ∧ r.expiresAt.LeapEndsMinute

instance (r : MappingRecord) : Decidable r.LeapsEndMinutes :=
  inferInstanceAs (Decidable (_ ∧ _))

/-- The record that the text of a record tells. -/
def told (r : MappingRecord) : MappingRecord :=
  { r with createdAt := r.createdAt.told, expiresAt := r.expiresAt.told }

theorem told_eq_self_iff {r : MappingRecord} : r.told = r ↔ r.LeapsEndMinutes := by
  unfold LeapsEndMinutes
  rw [← Timestamp.told_eq_self_iff, ← Timestamp.told_eq_self_iff]
  constructor
  · exact fun h => ⟨congrArg createdAt h, congrArg expiresAt h⟩
  · rintro ⟨hcreated, hexpires⟩
    rw [told, hcreated, hexpires]

/-- The members of a record in its text. -/
def members (r : MappingRecord) : List Member :=
  [⟨"handle", quote r.handle.render, .text (some r.handle.render)⟩,
    ⟨"entries", array (r.entries.map (·.toJson)), .array (r.entries.map (·.value))⟩,
    ⟨"created_at", quote (Rfc3339.render r.createdAt), .text (some (Rfc3339.render r.createdAt))⟩,
    ⟨"expires_at", quote (Rfc3339.render r.expiresAt), .text (some (Rfc3339.render r.expiresAt))⟩]

/-- The value that the text of a record spells. -/
def value (r : MappingRecord) : Value :=
  .object (r.members.map Member.read)

theorem spells_entries (entries : List MappingEntry) :
    Spells (array (entries.map (·.toJson))) (.array (entries.map (·.value))) := by
  refine spells_array ?_
  induction entries with
  | nil => exact .nil
  | cons e entries ih => exact .cons e.spells_toJson ih

theorem spells_toJson (r : MappingRecord) : Spells r.toJson r.value := by
  have hmembers : ∀ m ∈ r.members, Spells m.text m.value := by
    simp [members, spells_quote, spells_entries]
  have htext : r.toJson = object (r.members.map Member.written) := rfl
  rw [htext]
  exact spells_object hmembers

theorem entriesOfJson?_value (entries : List MappingEntry) :
    entriesOfJson? (.array (entries.map (·.value))) = some entries := by
  rw [entriesOfJson?, mapM_map_eq_some (k := id) fun e _ => e.ofJson?_value]
  simp

/-- A stored record is read up to its stamps, which are read from their own texts. -/
theorem decode?_encode (r : MappingRecord) :
    decode? r.encode = (do
      let createdAt ← Rfc3339.read? (Rfc3339.render r.createdAt)
      let expiresAt ← Rfc3339.read? (Rfc3339.render r.expiresAt)
      pure ⟨r.handle, r.entries, createdAt, expiresAt⟩) := by
  have hnames : (r.members.map Member.name).Nodup :=
    (by decide : ["handle", "entries", "created_at", "expires_at"].Nodup)
  have hfields : Value.fields? ["handle", "entries", "created_at", "expires_at"] r.value = _ :=
    fields?_read hnames
  have hread : Json.read? r.encode = some r.value := read?_of_spells r.spells_toJson
  simp only [decode?, hread, Option.bind_eq_bind, Option.bind_some, ofJson?, hfields]
  simp [members, Value.text?, Handle.read?_render, entriesOfJson?_value]

/-- A stored record is read as the one that its text tells. -/
theorem decode?_encode_of_isValid {r : MappingRecord} (h : r.IsValid) :
    decode? r.encode = some r.told := by
  rw [decode?_encode, Rfc3339.read?_render h.1, Rfc3339.read?_render h.2]
  rfl

/-- A stored record is always read, as the one that its text tells.  It is read as it was, with the
lifetime that it had, exactly if its leap seconds end minutes.  Nothing is asked of the handle and the
entries. -/
theorem decode?_encode_eq_told {r : MappingRecord} (hvalid : r.IsValid) :
    decode? r.encode = some r.told ∧
      ((decode? r.encode = some r ∧ (decode? r.encode).map ttl = some r.ttl) ↔
        r.LeapsEndMinutes) := by
  have hread := decode?_encode_of_isValid hvalid
  refine ⟨hread, ?_⟩
  rw [hread, Option.map_some, Option.some.injEq, Option.some.injEq]
  constructor
  · rintro ⟨hsame, -⟩
    exact told_eq_self_iff.mp hsame
  · intro hleaps
    have hsame := told_eq_self_iff.mpr hleaps
    exact ⟨hsame, congrArg ttl hsame⟩

/-- A record made in the leap second at the end of 2016, with an entry of unusual characters.  It is
read as it was if it expires outside leap seconds.  If it expires in a leap second within a minute then
it is read with the second behind. -/
theorem decode?_encode_eq_told_leap_seconds :
    let r : MappingRecord :=
      ⟨⟨.replicate 16 0⟩, [⟨['"', '\\', '\n', '😀'], ['\u00e4', '\u0000'], .mac⟩],
        ⟨1483228799, 1500000000⟩, ⟨1483228830, 999999999⟩⟩
    let leap : MappingRecord := { r with expiresAt := ⟨1483228830, 1999999999⟩ }
    r.IsValid ∧ (decode? r.encode = some r ∧ (decode? r.encode).map ttl = some r.ttl) ∧
      leap.IsValid ∧ decode? leap.encode = some { r with expiresAt := ⟨1483228831, 999999999⟩ } := by
  intro r leap
  have hvalid : r.IsValid := by decide
  have hleap : leap.IsValid := by decide
  exact ⟨hvalid, (decode?_encode_eq_told hvalid).2.mpr (by decide), hleap,
    (decode?_encode_eq_told hleap).1.trans (by decide)⟩

/-- Not every record is read as it was.  One that was made in a leap second behind the first second of
1970 is read with the second behind, and with a lifetime that is shorter by a second. -/
theorem leap_second_within_minute_lost :
    let r : MappingRecord := ⟨⟨.replicate 16 0⟩, [], ⟨0, 1500000000⟩, ⟨30, 0⟩⟩
    r.IsValid ∧ decode? r.encode ≠ some r ∧
      decode? r.encode = some { r with createdAt := ⟨1, 500000000⟩ } ∧
      r.ttl = ⟨29500000000⟩ ∧ (decode? r.encode).map ttl = some ⟨28500000000⟩ := by
  intro r
  have hvalid : r.IsValid := by decide
  have hread : decode? r.encode = some { r with createdAt := ⟨1, 500000000⟩ } :=
    (decode?_encode_of_isValid hvalid).trans (by decide)
  rw [hread]
  exact ⟨hvalid, by decide, rfl, by decide, by decide⟩

end MappingRecord

end NetRedact
