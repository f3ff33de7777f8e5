import NetRedact.Json.Value
import NetRedact.Proofs.JsonStrings
import Mathlib.Data.List.Nodup

/-!
# Written values are read back

A text spells a value if the lexer takes it as tokens and the machine takes these as the value, both
with anything before and behind.  Strings, arrays and objects are written so that they spell what
they were written from, given that their parts do, and a text that spells a value is read as that
value.
-/

namespace NetRedact.Json

open NetRedact.Text

/-! ## Tokens of a value -/

/-- Where a value may begin, the machine takes the tokens as the value. -/
def Parses (tokens : List Token) (v : Value) : Prop :=
  ∀ stack rest, Machine.run ⟨stack, .value⟩ (tokens ++ rest) =
    Machine.run ⟨stack, .after v⟩ rest

theorem parses_text (content : Option (List Char)) : Parses [.text content] (.text content) :=
  fun _ _ => rfl

/-- A value does not begin with the end of an array, so it may be the first of one. -/
theorem Parses.first {tokens : List Token} {v : Value} (h : Parses tokens v) (stack : List Frame)
    (rest : List Token) : Machine.run ⟨.array [] :: stack, .first⟩ (tokens ++ rest) =
      Machine.run ⟨.array [] :: stack, .after v⟩ rest := by
  rw [← h]
  match tokens with
  | [] =>
      have := h [] []
      simp [Machine.run] at this
  | token :: more =>
      have hopen : token ≠ .closeArray := by
        rintro rfl
        have := h [] []
        simp [Machine.run, Machine.step, Machine.begin?] at this
      have hstep : Machine.step ⟨.array [] :: stack, .first⟩ token =
          Machine.step ⟨.array [] :: stack, .value⟩ token := by
        simp [Machine.step, hopen]
      rw [List.cons_append, Machine.run, Machine.run, hstep]

/-! ## Texts of a value -/

/-- The text spells the value. -/
def Spells (cs : List Char) (v : Value) : Prop :=
  ∃ tokens, Lexes (utf8 cs) tokens ∧ Parses tokens v

theorem spells_quote (cs : List Char) : Spells (quote cs) (.text (some cs)) :=
  ⟨_, lexes_quote cs, parses_text _⟩

/-- The items of an array behind the first, each with its comma: with the end behind them they
complete the array. -/
theorem exists_items {texts : List (List Char)} {values : List Value}
    (h : List.Forall₂ Spells texts values) :
    ∃ tokens, Lexes (utf8 (texts.flatMap ([','] ++ ·))) tokens ∧
      ∀ done v stack rest, Machine.run ⟨.array done :: stack, .after v⟩
          (tokens ++ .closeArray :: rest) =
        Machine.run ⟨stack, .after (.array ((v :: done).reverse ++ values))⟩ rest := by
  induction h with
  | nil => exact ⟨[], lexes_nil, fun done v stack rest => by simp [Machine.run, Machine.step]⟩
  | @cons text value texts values htext _ ih =>
      obtain ⟨first, hfirst, hparses⟩ := htext
      obtain ⟨later, hlater, hrun⟩ := ih
      have hcomma : Lexes (utf8 [',']) [.comma] :=
        lexes_punctuation (b := 0x2C) (by decide) (by decide) (by decide)
      refine ⟨.comma :: (first ++ later), ?_, ?_⟩
      · rw [List.flatMap_cons, utf8_append, utf8_append]
        exact (hcomma.append hfirst).append hlater
      · intro done v stack rest
        rw [List.cons_append, List.append_assoc]
        change Machine.run ⟨.array (v :: done) :: stack, .value⟩ (first ++ _) = _
        rw [hparses, hrun]
        simp

theorem spells_array {texts : List (List Char)} {values : List Value}
    (h : List.Forall₂ Spells texts values) : Spells (array texts) (.array values) := by
  have hopen : Lexes (utf8 ['[']) [.openArray] :=
    lexes_punctuation (b := 0x5B) (by decide) (by decide) (by decide)
  have hclose : Lexes (utf8 [']']) [.closeArray] :=
    lexes_punctuation (b := 0x5D) (by decide) (by decide) (by decide)
  cases h with
  | nil => exact ⟨[.openArray, .closeArray], hopen.append hclose, fun _ _ => rfl⟩
  | @cons text value texts values htext hlater =>
      obtain ⟨first, hfirst, hparses⟩ := htext
      obtain ⟨later, hlater, hrun⟩ := exists_items hlater
      refine ⟨.openArray :: (first ++ later ++ [.closeArray]), ?_, ?_⟩
      · change Lexes (utf8 (['['] ++ (text ++ texts.flatMap ([','] ++ ·) ++ [']']))) _
        rw [utf8_append, utf8_append, utf8_append]
        exact hopen.append ((hfirst.append hlater).append hclose)
      · intro stack rest
        rw [List.cons_append, List.append_assoc, List.append_assoc]
        change Machine.run ⟨.array [] :: stack, .first⟩ (first ++ _) = _
        rw [hparses.first, List.singleton_append, hrun]
        simp

/-! ## Objects -/

/-- A member of an object: its name, the text of its value, and the value. -/
structure Member where
  name : String
  text : List Char
  value : Value

namespace Member

/-- The member as it is handed to the writer. -/
def written (m : Member) : String × List Char :=
  (m.name, m.text)

/-- The member as it is read. -/
def read (m : Member) : Option (List Char) × Value :=
  (some m.name.toList, m.value)

/-- The member as it stands in the text. -/
def spelled (m : Member) : List Char :=
  quote m.name.toList ++ ':' :: m.text

end Member

/-- A member is a key, a colon and the tokens of its value. -/
theorem exists_member {m : Member} (h : Spells m.text m.value) :
    ∃ tokens, Lexes (utf8 m.spelled) (.text (some m.name.toList) :: .colon :: tokens) ∧
      Parses tokens m.value := by
  obtain ⟨tokens, hlexes, hparses⟩ := h
  have hcolon : Lexes (utf8 [':']) [.colon] :=
    lexes_punctuation (b := 0x3A) (by decide) (by decide) (by decide)
  refine ⟨tokens, ?_, hparses⟩
  change Lexes (utf8 (quote m.name.toList ++ ([':'] ++ m.text))) _
  rw [utf8_append, utf8_append]
  exact (lexes_quote _).append (hcolon.append hlexes)

/-- The members of an object behind the first, each with its comma: with the end behind them they
complete the object. -/
theorem exists_members {members : List Member} (h : ∀ m ∈ members, Spells m.text m.value) :
    ∃ tokens, Lexes (utf8 ((members.map Member.spelled).flatMap ([','] ++ ·))) tokens ∧
      ∀ done key v stack rest, Machine.run ⟨.object done key :: stack, .after v⟩
          (tokens ++ .closeObject :: rest) =
        Machine.run ⟨stack,
          .after (.object (((key, v) :: done).reverse ++ members.map Member.read))⟩ rest := by
  induction members with
  | nil => exact ⟨[], lexes_nil, fun done key v stack rest => by simp [Machine.run, Machine.step]⟩
  | cons m members ih =>
      obtain ⟨first, hfirst, hparses⟩ := exists_member (h m (by simp))
      obtain ⟨later, hlater, hrun⟩ := ih fun m hm => h m (by simp [hm])
      have hcomma : Lexes (utf8 [',']) [.comma] :=
        lexes_punctuation (b := 0x2C) (by decide) (by decide) (by decide)
      refine ⟨.comma :: (.text (some m.name.toList) :: .colon :: first ++ later), ?_, ?_⟩
      · rw [List.map_cons, List.flatMap_cons, utf8_append, utf8_append]
        exact (hcomma.append hfirst).append hlater
      · intro done key v stack rest
        simp only [List.cons_append, List.append_assoc]
        change Machine.run ⟨.object ((key, v) :: done) (some m.name.toList) :: stack, .value⟩
          (first ++ _) = _
        rw [hparses, hrun]
        simp [Member.read]

theorem spells_object {members : List Member} (h : ∀ m ∈ members, Spells m.text m.value) :
    Spells (object (members.map Member.written)) (.object (members.map Member.read)) := by
  have hopen : Lexes (utf8 ['\x7b']) [.openObject] :=
    lexes_punctuation (b := 0x7B) (by decide) (by decide) (by decide)
  have hclose : Lexes (utf8 ['\x7d']) [.closeObject] :=
    lexes_punctuation (b := 0x7D) (by decide) (by decide) (by decide)
  match members with
  | [] => exact ⟨[.openObject, .closeObject], hopen.append hclose, fun _ _ => rfl⟩
  | m :: members =>
      obtain ⟨first, hfirst, hparses⟩ := exists_member (h m (by simp))
      obtain ⟨later, hlater, hrun⟩ :=
        exists_members fun m' (hm : m' ∈ members) => h m' (by simp [hm])
      have htext : object ((m :: members).map Member.written) =
          ['\x7b'] ++
            (m.spelled ++ (members.map Member.spelled).flatMap ([','] ++ ·) ++ ['\x7d']) := by
        unfold object
        rw [List.map_map]
        rfl
      refine ⟨.openObject :: (.text (some m.name.toList) :: .colon :: first ++ later ++
        [.closeObject]), ?_, ?_⟩
      · rw [htext, utf8_append, utf8_append, utf8_append]
        exact hopen.append ((hfirst.append hlater).append hclose)
      · intro stack rest
        simp only [List.cons_append, List.append_assoc, List.nil_append]
        change Machine.run ⟨.object [] (some m.name.toList) :: stack, .value⟩ (first ++ _) = _
        rw [hparses, hrun]
        simp [Member.read]

/-! ## Whole texts -/

/-- A text that spells a value is read as that value. -/
theorem read?_of_spells {cs : List Char} {v : Value} (h : Spells cs v) :
    read? (utf8 cs) = some v := by
  obtain ⟨tokens, hlexes, hparses⟩ := h
  have hrun : Machine.start.run tokens = some ⟨[], .after v⟩ := by
    have := hparses [] []
    rwa [List.append_nil] at this
  simp [read?, tokens?_of_lexes hlexes, hrun, Machine.result?]

/-! ## Fields -/

theorem mapM_map_eq_some {α β γ : Type} {f : β → Option γ} {g : α → β} {k : α → γ} {l : List α}
    (h : ∀ a ∈ l, f (g a) = some (k a)) : (l.map g).mapM f = some (l.map k) := by
  induction l with
  | nil => rfl
  | cons a l ih =>
      have hrest := ih fun a ha => h a (by simp [ha])
      simp [h a (by simp), hrest]

/-- Where no key occurs twice, a key selects its own member. -/
theorem filter_key_eq {members : List (List Char × Value)} (h : (members.map (·.1)).Nodup)
    {member : List Char × Value} (hmem : member ∈ members) :
    members.filter (fun other => other.1 == member.1) = [member] := by
  induction members with
  | nil => contradiction
  | cons first members ih =>
      rw [List.map_cons, List.nodup_cons] at h
      rcases List.mem_cons.mp hmem with rfl | hmem
      · have hnone : members.filter (fun other => other.1 == member.1) = [] := by
          rw [List.filter_eq_nil_iff]
          intro other hother heq
          exact h.1 (List.mem_map.mpr ⟨other, hother, by simpa using heq⟩)
        simp [hnone]
      · have hne : first.1 ≠ member.1 := by
          rintro heq
          exact h.1 (List.mem_map.mpr ⟨member, hmem, heq.symm⟩)
        simp [hne, ih h.2 hmem]

/-- An object with exactly the fields of a structure, each once and in order, gives their values. -/
theorem fields?_read {members : List Member} (h : (members.map Member.name).Nodup) :
    Value.fields? (members.map Member.name) (.object (members.map Member.read)) =
      some (members.map fun m => some m.value) := by
  have hkeys : Value.members? (members.map Member.read) =
      some (members.map fun m => (m.name.toList, m.value)) :=
    mapM_map_eq_some fun _ _ => rfl
  have hnodup : ((members.map fun m => (m.name.toList, m.value)).map (·.1)).Nodup := by
    rw [List.map_map]
    change (members.map (String.toList ∘ Member.name)).Nodup
    rw [← List.map_map]
    exact List.Nodup.map (fun _ _ => String.toList_injective) h
  simp only [Value.fields?, hkeys, Option.bind_eq_bind, Option.bind_some]
  refine mapM_map_eq_some fun m hm => ?_
  have hmem : (m.name.toList, m.value) ∈ members.map fun m => (m.name.toList, m.value) :=
    List.mem_map.mpr ⟨m, hm, rfl⟩
  rw [filter_key_eq hnodup hmem]

end NetRedact.Json
