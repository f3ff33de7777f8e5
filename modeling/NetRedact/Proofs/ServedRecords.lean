import NetRedact.Proofs.Reclamation
import NetRedact.Proofs.RecordTexts

/-!
# Records in a server

What a store relies on in a server is a law about two of its commands.  A value is written only
where none lives, and then it lives for just as long as was asked for; and a request is answered by
the value that lives.  `KeepsValues` is this law, for any server and any view of the values that live
in it.  It says nothing about lifetimes that a server need not take.

By this law a put writes the text of a record or changes nothing, and a request reads what was
written.  Three things carry this.  The key of a record determines its name space and its handle.
The text of a record is always read, as the record that it tells.  And the lifetime that the server
is asked for is never one that it need not take.

The server that executes commands on a table keeps the law.
-/

namespace NetRedact.Redis

open NetRedact.Text

/-! ## The law of a server -/

section Law

variable {σ : Type}

/-- From a reading of the clock on, the same values live in two states. -/
def SameFrom (live? : Moment → List Char → σ → Option (List Char)) (now : Moment) (s t : σ) : Prop :=
  ∀ key later, now ≤ later → live? later key t = live? later key s

/-- In the second state a value lives under a key for some nanoseconds, and under all other keys the
same values live as in the first one. -/
def Writes (live? : Moment → List Char → σ → Option (List Char)) (now : Moment)
    (key value : List Char) (kept : Nat) (s t : σ) : Prop :=
  ∀ other later, now ≤ later → live? later other t =
    if other = key then if later.nanos < now.nanos + kept then some value else none
    else live? later other s

/-- The law of a server, where `live? now key s` is the value that lives under a key. -/
structure KeepsValues (serve : Moment → Command → σ → Option Reply × σ)
    (live? : Moment → List Char → σ → Option (List Char)) : Prop where
  /-- A request is answered by the value that lives, or by nothing. -/
  get_reply : ∀ now key s, (serve now (.get key) s).1 =
    some (match live? now key s with
      | some value => .bulk (utf8 value)
      | none => .nil)
  /-- A request changes nothing. -/
  get_same : ∀ now key s, SameFrom live? now s (serve now (.get key) s).2
  /-- Where a value lives, none is written. -/
  set_of_live : ∀ now key value milliseconds s other, 0 < milliseconds →
    milliseconds < Server.lifetimeBound → live? now key s = some other →
      (serve now (.setFresh key value milliseconds) s).1 = some .nil ∧
        SameFrom live? now s (serve now (.setFresh key value milliseconds) s).2
  /-- Where no value lives, one is written, and it lives for as long as was asked for. -/
  set_of_free : ∀ now key value milliseconds s, 0 < milliseconds →
    milliseconds < Server.lifetimeBound → live? now key s = none →
      (serve now (.setFresh key value milliseconds) s).1 = some (.line (utf8 "OK".toList)) ∧
        Writes live? now key value (milliseconds * 1000000) s
          (serve now (.setFresh key value milliseconds) s).2

end Law

/-- The server with a table keeps the law. -/
theorem Server.keepsValues : KeepsValues Server.serve Server.live? where
  get_reply := by
    intro now key s
    unfold Server.serve Server.execute
    cases hlive : s.live? now key with
    | none => simp only [hlive]
    | some value => simp only [hlive]
  get_same := by
    intro now key s other later hle
    unfold Server.serve Server.execute
    cases hlive : s.live? now key with
    | none => simp only [hlive]
    | some value => simp only [hlive]
  set_of_live := by
    intro now key value milliseconds s other hpos hbound hlive
    have hrange : ¬(milliseconds = 0 ∨ Server.lifetimeBound ≤ milliseconds) := by omega
    unfold Server.serve Server.execute
    simp only [hrange, if_false, hlive]
    exact ⟨trivial, fun _ _ _ => rfl⟩
  set_of_free := by
    intro now key value milliseconds s hpos hbound hlive
    have hrange : ¬(milliseconds = 0 ∨ Server.lifetimeBound ≤ milliseconds) := by omega
    unfold Server.serve Server.execute
    simp only [hrange, if_false, hlive]
    refine ⟨trivial, ?_⟩
    intro other later hle
    rw [Server.live?_eq, Server.live?_eq]
    by_cases hother : other = key
    · subst hother
      have hdeadline : later < (⟨now.nanos + milliseconds * 1000000⟩ : Moment) ↔
          later.nanos < now.nanos + (milliseconds * 1000000 : Nat) := by
        rw [Nat.cast_mul]
        exact Iff.rfl
      rw [if_pos rfl, Table.find?_insert_self]
      simp [Server.live, Option.filter, hdeadline]
    · rw [if_neg hother, Table.find?_insert_ne _ hother]

/-! ## Keys -/

/-- A key determines the name space and the handle.  The handle has as many characters as any other
one, so the key can only be cut in front of it. -/
theorem keyOf_inj {name name' : List Char} {handle handle' : Handle} :
    keyOf name handle = keyOf name' handle' ↔ name = name' ∧ handle = handle' := by
  constructor
  · intro heq
    have hlength : (':' :: handle.render).length = (':' :: handle'.render).length := by
      rw [List.length_cons, List.length_cons, Handle.length_render, Handle.length_render]
    obtain ⟨hname, hrest⟩ := List.append_inj' heq hlength
    exact ⟨hname, Handle.render_injective (List.cons.inj hrest).2⟩
  · rintro ⟨rfl, rfl⟩
    rfl

/-! ## Lifetimes -/

/-- The time for which a record is kept in nanoseconds: the whole milliseconds of its lifetime, but
one millisecond at least. -/
def keptNanos (record : MappingRecord) : Nat :=
  max 1 (record.ttl.nanos / 1000000) * 1000000

/-- The calendar is much shorter than the longest lifetime that a server takes. -/
theorem milliseconds_ttl_lt {record : MappingRecord} (h : record.IsValid) :
    record.ttl.milliseconds < Server.lifetimeBound := by
  obtain ⟨⟨hmin, -, -⟩, -, hmax, hnanos⟩ := h
  have hfirst : Timestamp.minSeconds = -8334601228800 := by decide
  have hlast : Timestamp.maxSeconds = 8210266876799 := by decide
  have hspan : record.expiresAt.nanosSince record.createdAt < 9223372036854775808 * 1000000 := by
    unfold Timestamp.nanosSince
    dsimp only
    split
    · omega
    · split <;> omega
  unfold MappingRecord.ttl Timestamp.since Duration.milliseconds Server.lifetimeBound
  dsimp only
  omega

theorem lifetime_ttl {record : MappingRecord} (h : record.IsValid) :
    lifetime record.ttl = max 1 (record.ttl.nanos / 1000000) ∧ 0 < lifetime record.ttl ∧
      lifetime record.ttl < Server.lifetimeBound := by
  have hbound := milliseconds_ttl_lt h
  unfold Server.lifetimeBound Duration.milliseconds at hbound
  unfold lifetime maxMilliseconds Server.lifetimeBound Duration.milliseconds
  omega

/-! ## Records -/

theorem text?_line (cs : List Char) : (Reply.line (utf8 cs)).text? = some cs := by
  rw [Reply.text?, decodeUtf8_eq_ok_iff.mpr rfl]
  rfl

theorem text?_bulk (cs : List Char) : (Reply.bulk (utf8 cs)).text? = some cs := by
  rw [Reply.text?, decodeUtf8_eq_ok_iff.mpr rfl]
  rfl

namespace KeepsValues

variable {σ : Type} {serve : Moment → Command → σ → Option Reply × σ}
  {live? : Moment → List Char → σ → Option (List Char)} {name : List Char} {now : Moment}
  {record : MappingRecord} {handle : Handle} {s : σ}

/-- Where a value lives, the command that writes a record is answered by nothing. -/
theorem putCommand_of_live (h : KeepsValues serve live?) (hrecord : record.IsValid)
    {other : List Char} (hlive : live? now (keyOf name record.handle) s = some other) :
    (serve now (putCommand name record) s).1 = some .nil ∧
      SameFrom live? now s (serve now (putCommand name record) s).2 := by
  obtain ⟨-, hpos, hbound⟩ := lifetime_ttl hrecord
  exact h.set_of_live now _ record.toJson _ s other hpos hbound hlive

/-- Where no value lives, the command writes the text of the record for its lifetime. -/
theorem putCommand_of_free (h : KeepsValues serve live?) (hrecord : record.IsValid)
    (hfree : live? now (keyOf name record.handle) s = none) :
    (serve now (putCommand name record) s).1 = some (.line (utf8 "OK".toList)) ∧
      Writes live? now (keyOf name record.handle) record.toJson (keptNanos record) s
        (serve now (putCommand name record) s).2 := by
  obtain ⟨hlifetime, hpos, hbound⟩ := lifetime_ttl hrecord
  rw [keptNanos, ← hlifetime]
  exact h.set_of_free now _ record.toJson _ s hpos hbound hfree

/-- The server takes the arguments of every command that writes a record. -/
theorem reply_ne_error (h : KeepsValues serve live?) (hrecord : record.IsValid)
    (text : List UInt8) : (serve now (putCommand name record) s).1 ≠ some (.error text) := by
  cases hlive : live? now (keyOf name record.handle) s with
  | none =>
      rw [(h.putCommand_of_free hrecord hlive).1]
      simp
  | some other =>
      rw [(h.putCommand_of_live hrecord hlive).1]
      simp

/-- A record is refused where a value lives, and nothing changes. -/
theorem put_of_live (h : KeepsValues serve live?) (hrecord : record.IsValid) {other : List Char}
    (hlive : live? now (keyOf name record.handle) s = some other) :
    ((MappingStore.redis name serve).put now record s).1 = .error (.alreadyExists record.handle) ∧
      SameFrom live? now s ((MappingStore.redis name serve).put now record s).2 := by
  obtain ⟨hreply, hsame⟩ := h.putCommand_of_live hrecord hlive
  exact ⟨congrArg (putResult record.handle) hreply, hsame⟩

/-- A record is accepted where no value lives, and its text is written. -/
theorem put_of_free (h : KeepsValues serve live?) (hrecord : record.IsValid)
    (hfree : live? now (keyOf name record.handle) s = none) :
    ((MappingStore.redis name serve).put now record s).1 = .ok record.handle ∧
      Writes live? now (keyOf name record.handle) record.toJson (keptNanos record) s
        ((MappingStore.redis name serve).put now record s).2 := by
  obtain ⟨hreply, hwrites⟩ := h.putCommand_of_free hrecord hfree
  refine ⟨(congrArg (putResult record.handle) hreply).trans ?_, hwrites⟩
  simp only [putResult, optionalText, text?_line]

/-- A request for a record is told that there is none where no value lives. -/
theorem get_of_free (h : KeepsValues serve live?) (hfree : live? now (keyOf name handle) s = none) :
    ((MappingStore.redis name serve).get now handle s).1 = .error .notFound := by
  have hreply := h.get_reply now (keyOf name handle) s
  rw [hfree] at hreply
  exact congrArg getResult hreply

/-- A request for a record reads the text that lives. -/
theorem get_of_live (h : KeepsValues serve live?) (hrecord : record.IsValid)
    (hlive : live? now (keyOf name handle) s = some record.toJson) :
    ((MappingStore.redis name serve).get now handle s).1 = .ok record.told := by
  have hreply := h.get_reply now (keyOf name handle) s
  rw [hlive] at hreply
  refine (congrArg getResult hreply).trans ?_
  have hread : MappingRecord.decode? (utf8 record.toJson) = some record.told :=
    MappingRecord.decode?_encode_of_isValid hrecord
  simp only [getResult, optionalText, text?_bulk, hread]

/-- A request for a record changes nothing. -/
theorem get_keeps (h : KeepsValues serve live?) :
    SameFrom live? now s ((MappingStore.redis name serve).get now handle s).2 :=
  h.get_same now (keyOf name handle) s

end KeepsValues

end NetRedact.Redis
