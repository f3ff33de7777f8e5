import NetRedact.Address.Ipv6
import NetRedact.Proofs.Ipv4Spelling

/-!
# Spellings of IPv6 addresses

The reader of colon groups takes as many words as there are, tries a dotted quad before a group,
and asks for `::` where groups are missing.  What it accepts is stated here by a grammar of words:
eight groups in all, or a front and a back with `::` between them that leave at least one group to
fill.  Only the last word may be a quad.
-/

namespace NetRedact.Ipv6

open NetRedact.Text NetRedact.Scan

/-- One to four hexadecimal digits and the group that they give. -/
structure GroupWord (word : List Char) (group : UInt16) : Prop where
  run : Run isHexDigit 1 4 word
  value : (hexNumber? word).map UInt16.ofNat = some group

/-- Words and the groups that they give; the flag says that the last word is a quad. -/
inductive GroupWords : Bool → List (List Char) → List UInt16 → Prop where
  | nil : GroupWords false [] []
  | group {quad : Bool} {word : List Char} {group : UInt16} {words : List (List Char)}
      {groups : List UInt16} : GroupWord word group → GroupWords quad words groups →
      GroupWords quad (word :: words) (group :: groups)
  | quad {word : List Char} {octets : Octets 4} : Ipv4.read? word = some octets →
      GroupWords true [word] (groupsOfQuad octets)

/-- A word at the start of a literal has no separator, a later one has a colon in front. -/
def spelled (first : Bool) (words : List (List Char)) : List Char :=
  if first then joinWith [':'] words else words.flatMap ([':'] ++ ·)

theorem spelled_nil (first : Bool) : spelled first [] = [] := by
  cases first <;> rfl

theorem spelled_cons (first : Bool) (word : List Char) (words : List (List Char)) :
    spelled first (word :: words) = spelled first [word] ++ spelled false words := by
  cases first <;> simp [spelled, joinWith]

theorem afterSeparator_spelled (first : Bool) (word rest : List Char) :
    afterSeparator first (spelled first [word] ++ rest) = some (word ++ rest) := by
  cases first <;> simp [spelled, afterSeparator]

theorem afterSeparator_eq_some {first : Bool} {cs body : List Char}
    (h : afterSeparator first cs = some body) :
    ∀ word rest, body = word ++ rest → cs = spelled first [word] ++ rest := by
  rintro word rest rfl
  cases first with
  | true =>
      obtain rfl := Option.some.inj h
      simp [spelled]
  | false =>
      rcases cs with _ | ⟨c, cs⟩
      · simp [afterSeparator] at h
      · by_cases hc : c = ':'
        · subst hc
          obtain rfl := Option.some.inj h
          simp [spelled]
        · simp [afterSeparator, hc] at h

/-! ## One word -/

/-- A group is read where a word for it stands and no further digit. -/
theorem readGroup_eq_some_iff {cs rest : List Char} {group : UInt16} :
    readGroup cs = some (group, rest) ↔
      ∃ word, cs = word ++ rest ∧ GroupWord word group ∧ StopsAt isHexDigit rest := by
  -- The reader takes all digits that there are, so it is looked at for a given cut of the text.
  have hread : ∀ word back, cs.span isHexDigit = (word, back) →
      (readGroup cs = some (group, rest) ↔
        back = rest ∧ word ≠ [] ∧ word.length ≤ 4 ∧
          (hexNumber? word).map UInt16.ofNat = some group) := by
    intro word back hspan
    unfold readGroup
    rw [hspan]
    by_cases hword : word.isEmpty || decide (4 < word.length)
    · simp only [hword, ↓reduceIte, reduceCtorEq, false_iff]
      rintro ⟨-, hne, hle, -⟩
      simp only [Bool.or_eq_true, List.isEmpty_iff, decide_eq_true_eq] at hword
      rcases hword with hnil | hlong
      · exact hne hnil
      · omega
    · simp only [hword, Bool.false_eq_true, ↓reduceIte, Option.map_eq_some_iff, Prod.mk.injEq]
      simp only [Bool.or_eq_true, List.isEmpty_iff, decide_eq_true_eq, not_or, Nat.not_lt] at hword
      constructor
      · rintro ⟨n, hn, hgroup, rfl⟩
        exact ⟨rfl, hword.1, hword.2, n, hn, hgroup⟩
      · rintro ⟨rfl, -, -, n, hn, hgroup⟩
        exact ⟨n, hn, hgroup, rfl⟩
  constructor
  · intro h
    obtain ⟨hcs, hall, hstop⟩ := span_eq_iff.mp (rfl : cs.span isHexDigit = _)
    obtain ⟨hrest, hne, hle, hvalue⟩ := (hread _ _ rfl).mp h
    rw [hrest] at hcs hstop
    exact ⟨_, hcs, ⟨⟨hall, List.length_pos_iff.mpr hne, hle⟩, hvalue⟩, hstop⟩
  · rintro ⟨word, hcs, ⟨hrun, hvalue⟩, hstop⟩
    exact (hread word rest (span_eq_iff.mpr ⟨hcs, hrun.1, hstop⟩)).mpr
      ⟨rfl, List.length_pos_iff.mp hrun.2.1, hrun.2.2, hvalue⟩

/-- Where digits stop and no dot follows there is no quad. -/
theorem readFirst_quad_eq_none {word rest : List Char} (hword : ∀ c ∈ word, isHexDigit c = true)
    (hrest : StopsAt isHexDigit rest) (hdot : rest.head? ≠ some '.') :
    Ipv4.readFirst (word ++ rest) = none := by
  cases hread : Ipv4.readFirst (word ++ rest) with
  | none => rfl
  | some found =>
      obtain ⟨octets, back⟩ := found
      obtain ⟨words, hwords, hjoin, -⟩ := Ipv4.readFirst_eq_some_iff.mp hread
      obtain ⟨digits, d, more, hdigits, -, hquad⟩ := quadShape_cases hwords.quadShape
      rw [hquad] at hjoin
      have hhex : ∀ c ∈ digits, isHexDigit c = true := fun c hc => isHexDigit_of_isDigit (hdigits.1 c hc)
      have hcut : word ++ rest = digits ++ '.' :: (d :: more ++ back) := by simpa using hjoin
      obtain ⟨-, hrest'⟩ := run_append_inj hcut hword hhex hrest (stopsAt_cons (by decide) _)
      rw [hrest'] at hdot
      exact absurd rfl hdot

/-- Nothing is read where no digit stands. -/
theorem readGroup_eq_none {cs : List Char} (h : StopsAt isHexDigit cs) : readGroup cs = none := by
  cases hread : readGroup cs with
  | none => rfl
  | some found =>
      obtain ⟨word, rfl, hword, -⟩ := readGroup_eq_some_iff.mp hread
      obtain ⟨c, rest, rfl, hc⟩ := exists_cons_of_run hword.run Nat.one_pos
      rw [h c rfl] at hc
      contradiction

/-! ## Runs of words -/

/-- What the reader of groups has found at the front of a text: words for the groups, and no more
groups than were asked for. -/
def FrontWords (first : Bool) (limit : Nat) (cs : List Char) (groups : List UInt16) (quad : Bool)
    (rest : List Char) : Prop :=
  ∃ words, GroupWords quad words groups ∧ groups.length ≤ limit ∧ cs = spelled first words ++ rest

/-- Where the reader stops at once it has found no word. -/
theorem frontWords_nothing {first : Bool} {limit : Nat} {cs rest : List Char}
    {groups : List UInt16} {quad : Bool}
    (h : (([], false, cs) : List UInt16 × Bool × List Char) = (groups, quad, rest)) :
    FrontWords first limit cs groups quad rest := by
  cases h
  exact ⟨[], GroupWords.nil, Nat.zero_le _, by rw [spelled_nil, List.nil_append]⟩

/-- Whatever the reader of groups finds is spelled by the text. -/
theorem readGroups_sound {first : Bool} {limit : Nat} {cs rest : List Char} {groups : List UInt16}
    {quad : Bool} (h : readGroups first limit cs = (groups, quad, rest)) :
    FrontWords first limit cs groups quad rest := by
  induction limit generalizing first cs groups with
  | zero => exact frontWords_nothing h
  | succ limit ih =>
      rw [readGroups] at h
      cases hbody : afterSeparator first cs with
      | none =>
          rw [hbody] at h
          exact frontWords_nothing h
      | some body =>
          have hcs := afterSeparator_eq_some hbody
          simp only [hbody] at h
          -- A quad is tried first, and ends the words; then a group, and the words go on behind it.
          cases hquad : (if 1 ≤ limit then Ipv4.readFirst body else none) with
          | some found =>
              obtain ⟨octets, back⟩ := found
              simp only [hquad] at h
              cases h
              obtain ⟨hlimit, hread⟩ := Option.ite_none_right_eq_some.mp hquad
              obtain ⟨words, hwords, rfl, -⟩ := Ipv4.readFirst_eq_some_iff.mp hread
              refine ⟨[joinWith ['.'] words], GroupWords.quad ?_, ?_, hcs _ _ rfl⟩
              · exact Ipv4.read?_eq_some_iff.mpr ⟨words, hwords, rfl⟩
              · simp only [groupsOfQuad, List.length_cons, List.length_nil]
                omega
          | none =>
              simp only [hquad] at h
              cases hgroup : readGroup body with
              | none =>
                  simp only [hgroup] at h
                  exact frontWords_nothing h
              | some found =>
                  obtain ⟨group, back⟩ := found
                  simp only [hgroup] at h
                  obtain ⟨word, rfl, hword, -⟩ := readGroup_eq_some_iff.mp hgroup
                  cases hrest : readGroups false limit back with
                  | mk later tail =>
                      obtain ⟨quad', rest'⟩ := tail
                      simp only [hrest] at h
                      cases h
                      obtain ⟨words, hwords, hlength, rfl⟩ := ih hrest
                      refine ⟨word :: words, GroupWords.group hword hwords, ?_, ?_⟩
                      · exact Nat.succ_le_succ hlength
                      · rw [spelled_cons, List.append_assoc]
                        exact hcs _ _ rfl

/-- No word goes on or follows: there is no digit and no dot, and a colon is one of two. -/
structure EndsWords (rest : List Char) : Prop where
  digit : StopsAt isHexDigit rest
  dot : rest.head? ≠ some '.'
  colon : ∀ {more}, rest = ':' :: more → more.head? = some ':'

theorem endsWords_nil : EndsWords [] :=
  ⟨stopsAt_nil _, by simp, by simp⟩

/-- A character that is in no word and between no two words. -/
theorem endsWords_cons {c : Char} (hdigit : isHexDigit c = false) (hdot : c ≠ '.') (hcolon : c ≠ ':')
    (more : List Char) : EndsWords (c :: more) :=
  ⟨stopsAt_cons hdigit more, by simpa using hdot, fun h => absurd (List.cons.inj h).1 hcolon⟩

theorem endsWords_colons (more : List Char) : EndsWords (':' :: ':' :: more) :=
  ⟨stopsAt_cons (by decide) _, by simp, fun h => (List.cons.inj h).2 ▸ rfl⟩

theorem stopsAt_of_head? {test : Char → Bool} {rest : List Char} (htest : test ':' = false)
    (h : rest.head? = some ':') : StopsAt test rest := by
  intro c hc
  rw [h] at hc
  exact Option.some.inj hc ▸ htest

/-- Behind the last word the reader stops. -/
theorem readGroups_stop (first : Bool) (limit : Nat) {rest : List Char} (h : EndsWords rest) :
    readGroups first limit rest = ([], false, rest) := by
  cases limit with
  | zero => rfl
  | succ limit =>
      rw [readGroups]
      cases hbody : afterSeparator first rest with
      | none => rfl
      | some body =>
          have hstop : StopsAt isHexDigit body ∧ body.head? ≠ some '.' := by
            cases first with
            | true =>
                obtain rfl := Option.some.inj hbody
                exact ⟨h.digit, h.dot⟩
            | false =>
                -- A colon in front is one of two, so the other one is the next character.
                have hrest := afterSeparator_eq_some hbody [] body rfl
                have hhead : body.head? = some ':' := h.colon (by simpa [spelled] using hrest)
                exact ⟨stopsAt_of_head? (by decide) hhead, by simp [hhead]⟩
          have hquad : Ipv4.readFirst body = none :=
            readFirst_quad_eq_none (show ∀ c ∈ [], isHexDigit c = true by simp) hstop.1 hstop.2
          simp [hquad, readGroup_eq_none hstop.1]

/-- Words at the front of a text are all found, if there is room for their groups and no word goes on
or follows behind them. -/
theorem readGroups_complete (first : Bool) {limit : Nat} {words : List (List Char)}
    {groups : List UInt16} {quad : Bool} {rest : List Char} (h : GroupWords quad words groups)
    (hlimit : groups.length ≤ limit) (hrest : EndsWords rest) :
    readGroups first limit (spelled first words ++ rest) = (groups, quad, rest) := by
  induction h generalizing first limit with
  | nil =>
      rw [spelled_nil]
      exact readGroups_stop first limit hrest
  | @group quad word group words groups hword hwords ih =>
      cases limit with
      | zero => simp at hlimit
      | succ limit =>
          have hnext : StopsAt isHexDigit (spelled false words ++ rest) ∧
              (spelled false words ++ rest).head? ≠ some '.' := by
            cases words with
            | nil => exact ⟨hrest.digit, hrest.dot⟩
            | cons next words => exact ⟨stopsAt_of_head? (by decide) rfl, by simp [spelled]⟩
          obtain ⟨hstop, hdot⟩ := hnext
          -- No dot follows the word, so it is not taken for the front of a quad.
          have hquad : Ipv4.readFirst (word ++ (spelled false words ++ rest)) = none :=
            readFirst_quad_eq_none hword.run.1 hstop hdot
          have hgroup : readGroup (word ++ (spelled false words ++ rest)) =
              some (group, spelled false words ++ rest) :=
            readGroup_eq_some_iff.mpr ⟨word, rfl, hword, hstop⟩
          rw [readGroups, spelled_cons, List.append_assoc, afterSeparator_spelled]
          simp [hquad, hgroup, ih false (by simpa using hlimit)]
  | @quad word octets hread =>
      obtain ⟨words, hwords, rfl⟩ := Ipv4.read?_eq_some_iff.mp hread
      have hquad : Ipv4.readFirst (joinWith ['.'] words ++ rest) = some (octets, rest) :=
        Ipv4.readFirst_eq_some_iff.mpr
          ⟨words, hwords, rfl, stopsAt_isDigit hrest.digit⟩
      obtain ⟨limit, rfl⟩ : ∃ n, limit = n + 2 := ⟨limit - 2, by
        simp only [groupsOfQuad, List.length_cons, List.length_nil] at hlimit
        omega⟩
      rw [readGroups, afterSeparator_spelled]
      simp [hquad]

/-! ## Whole literals -/

/-- The spellings of an address: eight groups, or a front and a back around `::` that leave at least
one group to fill with zeros. -/
inductive Spells : List Char → Octets 16 → Prop where
  | full {quad : Bool} {words : List (List Char)} {groups : List UInt16} {octets : Octets 16} :
      GroupWords quad words groups → groups.length = 8 → ofGroups? groups = some octets →
      Spells (joinWith [':'] words) octets
  | compressed {quad : Bool} {front back : List (List Char)} {before after : List UInt16}
      {octets : Octets 16} : GroupWords false front before → GroupWords quad back after →
      before.length + after.length ≤ 7 →
      ofGroups? (before ++ List.replicate (8 - before.length - after.length) 0 ++ after) =
        some octets →
      Spells (joinWith [':'] front ++ [':', ':'] ++ joinWith [':'] back) octets

/-- What is read as an address at the front of a text spells it. -/
theorem spells_of_readFirst {cs rest : List Char} {octets : Octets 16}
    (h : readFirst cs = some (octets, rest)) : ∃ word, Spells word octets ∧ cs = word ++ rest := by
  cases hgroups : readGroups true 8 cs with
  | mk front tail =>
      obtain ⟨quad, middle⟩ := tail
      obtain ⟨words, hwords, hlength, rfl⟩ := readGroups_sound hgroups
      simp only [readFirst, hgroups] at h
      by_cases height : front.length = 8
      · simp only [if_pos height, Option.map_eq_some_iff, Prod.mk.injEq] at h
        obtain ⟨_, hoctets, rfl, rfl⟩ := h
        exact ⟨_, Spells.full hwords height hoctets, rfl⟩
      · rw [if_neg height] at h
        cases quad with
        | true => simp at h
        | false =>
            -- Fewer than eight groups and no quad: `::` has to follow, and a back behind it.
            simp only [Bool.false_eq_true, ↓reduceIte] at h
            split at h
            · rename_i more
              cases hback : readGroups true (7 - front.length) more with
              | mk back tail =>
                  obtain ⟨quad, rest⟩ := tail
                  simp only [hback, Option.map_eq_some_iff, Prod.mk.injEq] at h
                  obtain ⟨_, hoctets, rfl, rfl⟩ := h
                  obtain ⟨words', hwords', hlength', rfl⟩ := readGroups_sound hback
                  exact ⟨_, Spells.compressed hwords hwords' (by omega) hoctets, by simp [spelled]⟩
            · contradiction

/-- A spelling of an address is read as it, if no word goes on or follows behind it. -/
theorem readFirst_of_spells {word rest : List Char} {octets : Octets 16} (h : Spells word octets)
    (hrest : EndsWords rest) : readFirst (word ++ rest) = some (octets, rest) := by
  cases h with
  | full hwords hlength hoctets =>
      have hread := readGroups_complete true hwords (Nat.le_of_eq hlength) hrest
      change readGroups true 8 (joinWith [':'] _ ++ _) = _ at hread
      simp [readFirst, hread, hlength, hoctets]
  | @compressed quad front back before after _ hfront hback hlength hoctets =>
      have hle : before.length ≤ 8 := by omega
      have hle' : after.length ≤ 7 - before.length := by omega
      have hread := readGroups_complete true hfront hle
        (endsWords_colons (joinWith [':'] back ++ rest))
      have hread' := readGroups_complete true hback hle' hrest
      change readGroups true _ (joinWith [':'] _ ++ _) = _ at hread
      change readGroups true _ (joinWith [':'] _ ++ _) = _ at hread'
      have hne : before.length ≠ 8 := by omega
      rw [List.append_assoc] at hoctets
      simp [readFirst, hread, hread', hne, hoctets]

/-- A text that is read as an address spells it. -/
theorem spells_of_read? {cs : List Char} {octets : Octets 16} (h : read? cs = some octets) :
    Spells cs octets := by
  have hfirst : readFirst cs = some (octets, []) := by
    unfold read? at h
    split at h
    · rename_i found heq
      obtain rfl := Option.some.inj h
      exact heq
    · contradiction
  obtain ⟨word, hword, rfl⟩ := spells_of_readFirst hfirst
  rwa [List.append_nil]

/-- A spelling of an address is read as it. -/
theorem read?_of_spells {cs : List Char} {octets : Octets 16} (h : Spells cs octets) :
    read? cs = some octets := by
  have hfirst := readFirst_of_spells h endsWords_nil
  rw [List.append_nil] at hfirst
  rw [read?, hfirst]

/-- A text is read as an address exactly if it spells it. -/
theorem read?_eq_some_iff {cs : List Char} {octets : Octets 16} :
    read? cs = some octets ↔ Spells cs octets :=
  ⟨spells_of_read?, read?_of_spells⟩

end NetRedact.Ipv6
