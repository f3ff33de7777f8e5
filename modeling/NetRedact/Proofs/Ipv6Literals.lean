import NetRedact.Proofs.Ipv6Spelling

/-!
# Consequences of the IPv6 grammar

Every text that is read as an IPv6 address has the shape that the scan looks for.  Six pairs of
digits are not read as one, since they are too few groups and nothing is left out.  A dotted quad at
the end may be replaced by any other dotted quad.
-/

namespace NetRedact.Ipv6

open NetRedact.Text NetRedact.Scan

theorem ofGroups?_isSome (groups : List UInt16) (h : groups.length = 8) :
    ∃ octets, ofGroups? groups = some octets := by
  have hlength : (groups.flatMap octetsOf).toArray.size = 16 := by
    have htwo : groups.map (fun g => (octetsOf g).length) = groups.map fun _ => 2 := rfl
    simp [List.length_flatMap, htwo, h]
  exact ⟨⟨_, hlength⟩, by rw [ofGroups?, Octets.ofList?, dif_pos hlength]⟩

/-- Words around a last one: no quad stands in front of it, and the joins of both are the same. -/
structure Ended (quad : Bool) (words : List (List Char)) (count : Nat) (front : List (List Char))
    (last : List Char) : Prop where
  joined : joinWith [':'] words = joinWith [':'] (front ++ [last])
  front_run : ∀ word ∈ front, Run isHexDigit 0 4 word
  last_shape : QuadShape last ∨ Run isHexDigit 0 4 last
  last_run : quad = false → Run isHexDigit 0 4 last
  length_le : front.length + 1 ≤ max 1 count
  le_length : count ≤ front.length + 2

/-- The words of a run of groups end with a last word; where there are none it is empty. -/
theorem GroupWords.exists_ended {quad : Bool} {words : List (List Char)} {groups : List UInt16}
    (h : GroupWords quad words groups) : ∃ front last, Ended quad words groups.length front last := by
  induction h with
  | nil =>
      have hrun : Run isHexDigit 0 4 [] := ⟨by simp, Nat.zero_le _, Nat.zero_le _⟩
      exact ⟨[], [], rfl, by simp, Or.inr hrun, fun _ => hrun, by simp, by simp⟩
  | @group quad word group words groups hword hwords ih =>
      have hrun : Run isHexDigit 0 4 word :=
        run_mono hword.run (fun _ => id) (Nat.zero_le _) (Nat.le_refl _)
      cases words with
      | nil =>
          cases hwords with
          | nil => exact ⟨[], word, rfl, by simp, Or.inr hrun, fun _ => hrun, by simp, by simp⟩
      | cons next words =>
          obtain ⟨front, last, hended⟩ := ih
          refine ⟨word :: front, last, ?_, ?_, hended.last_shape, hended.last_run, ?_, ?_⟩
          · have hjoin := hended.joined
            rw [joinWith_cons_cons, hjoin]
            cases front with
            | nil => simp [joinWith_cons_cons]
            | cons first front => simp [joinWith_cons_cons]
          · intro w hw
            rcases List.mem_cons.mp hw with rfl | hw
            · exact hrun
            · exact hended.front_run w hw
          · have hpos : 0 < groups.length := by
              cases hwords with
              | group => simp
              | quad => simp [groupsOfQuad]
            have := hended.length_le
            simp only [List.length_cons]
            omega
          · have := hended.le_length
            simp only [List.length_cons]
            omega
  | @quad word octets hread =>
      exact ⟨[], word, rfl, by simp, Or.inl (Ipv4.quadShape_of_read? hread),
        fun h => Bool.noConfusion h, by simp [groupsOfQuad], by simp [groupsOfQuad]⟩

/-- Every text that is read as an address has the shape of one. -/
theorem ipv6Shape_of_read? {cs : List Char} {octets : Octets 16} (h : read? cs = some octets) :
    Ipv6Shape cs := by
  cases read?_eq_some_iff.mp h with
  | full hwords hlength _ =>
      obtain ⟨front, last, hended⟩ := hwords.exists_ended
      have := hended.length_le
      have := hended.le_length
      exact ⟨front, last, by omega, by omega, hended.front_run, hended.last_shape, hended.joined⟩
  | compressed hfront hback hlength _ =>
      obtain ⟨inner, end1, hended⟩ := hfront.exists_ended
      obtain ⟨later, end2, hended'⟩ := hback.exists_ended
      have := hended.length_le
      have := hended'.length_le
      -- The `::` of the text is an empty word between the last word of the front and the back.
      refine ⟨inner ++ [end1] ++ [] :: later, end2, ?_, ?_, ?_, hended'.last_shape, ?_⟩
      · simp only [List.length_append, List.length_cons, List.length_nil]
        omega
      · simp only [List.length_append, List.length_cons, List.length_nil]
        omega
      · intro word hword
        simp only [List.mem_append, List.mem_cons, List.not_mem_nil, or_false] at hword
        rcases hword with (hword | rfl) | rfl | hword
        · exact hended.front_run word hword
        · exact hended.last_run rfl
        · exact ⟨by simp, Nat.zero_le _, Nat.zero_le _⟩
        · exact hended'.front_run word hword
      · have hempty : joinWith [':'] ([] :: (later ++ [end2])) =
            ':' :: joinWith [':'] (later ++ [end2]) :=
          joinWith_append ':' (List.cons_ne_nil [] []) (by simp)
        have hwhole : joinWith [':'] ((inner ++ [end1]) ++ [] :: (later ++ [end2])) =
            joinWith [':'] (inner ++ [end1]) ++ ':' :: joinWith [':'] ([] :: (later ++ [end2])) :=
          joinWith_append ':' (by simp) (by simp)
        rw [hempty] at hwhole
        rw [hended.joined, hended'.joined]
        simpa using hwhole.symm

/-! ## Six pairs -/

theorem GroupWords.words_length {quad : Bool} {words : List (List Char)} {groups : List UInt16}
    (h : GroupWords quad words groups) :
    groups.length ≤ words.length + 1 ∧ ∀ word ∈ words, ':' ∉ word := by
  induction h with
  | nil => simp
  | @group quad word group words groups hword hwords ih =>
      refine ⟨by simpa using ih.1, ?_⟩
      intro w hw
      rcases List.mem_cons.mp hw with rfl | hw
      · exact not_mem_of_run hword.run (by decide)
      · exact ih.2 w hw
  | @quad word octets hread =>
      refine ⟨by simp [groupsOfQuad], ?_⟩
      intro w hw hmem
      obtain rfl := List.mem_singleton.mp hw
      rcases quadShape_chars (Ipv4.quadShape_of_read? hread) ':' hmem with hdigit | heq
      · exact absurd hdigit (by decide)
      · exact absurd heq (by decide)

/-- A join of non-empty words has no two separators in a row. -/
theorem not_joined_of_double {count most : Nat} {front back : List Char} :
    ¬ Joined ':' count isHexDigit 2 most (front ++ ':' :: ':' :: back) := by
  rintro ⟨words, -, hwords, heq⟩
  obtain ⟨before, after, rfl, -, hafter, -, hback⟩ :=
    joinWith_eq_append_cons (fun word hword => not_mem_of_run (hwords word hword) (by decide))
      heq.symm
  cases after with
  | nil => exact hafter rfl
  | cons word words =>
      obtain ⟨rest, hjoin, -⟩ := joinWith_cons ':' word words
      obtain ⟨c, inner, rfl, hc⟩ := exists_cons_of_run (hwords word (by simp)) Nat.two_pos
      rw [hjoin] at hback
      obtain ⟨rfl, -⟩ : ':' = c ∧ _ := by simpa using hback
      exact absurd hc (by decide)

theorem read?_eq_none_of_pairs {cs : List Char} (h : Joined ':' 6 isHexDigit 2 2 cs) :
    read? cs = none := by
  cases hread : read? cs with
  | none => rfl
  | some octets =>
      cases read?_eq_some_iff.mp hread with
      | @full quad words groups _ hwords hlength _ =>
          obtain ⟨pairs, hcount, hpairs, heq⟩ := h
          obtain ⟨hle, hcolon⟩ := hwords.words_length
          have hsame := joinWith_inj hcolon
            (fun word hword => not_mem_of_run (hpairs word hword) (by decide))
            (by rintro rfl; simp only [List.length_nil] at hle; omega)
            (by rintro rfl; simp at hcount) heq
          rw [hsame, hcount] at hle
          omega
      | compressed =>
          rw [List.append_assoc] at h
          exact absurd h not_joined_of_double

/-! ## Other quads at the end -/

private theorem GroupWords.replace_quad {quad : Bool} {front : List (List Char)}
    {last other : List Char} {groups : List UInt16} {octets : Octets 4}
    (h : GroupWords quad (front ++ [last]) groups) (hdot : '.' ∈ last)
    (hother : Ipv4.read? other = some octets) :
    ∃ groups', GroupWords true (front ++ [other]) groups' ∧ groups'.length = groups.length := by
  generalize hwords : front ++ [last] = words at h
  induction h generalizing front with
  | nil => simp at hwords
  | @group quad word group words groups hword _ ih =>
      cases front with
      | nil =>
          obtain ⟨rfl, -⟩ : last = word ∧ [] = words := by simpa using hwords
          exact absurd hdot (not_mem_of_run hword.run (by decide))
      | cons first front =>
          obtain ⟨rfl, hrest⟩ : first = word ∧ front ++ [last] = words := by simpa using hwords
          obtain ⟨groups', hgroups', hlength⟩ := ih hrest
          refine ⟨_, GroupWords.group hword hgroups', ?_⟩
          rw [List.length_cons, List.length_cons, hlength]
  | quad =>
      cases front with
      | nil => exact ⟨_, GroupWords.quad hother, by simp [groupsOfQuad]⟩
      | cons first front => simp at hwords

/-- The last word of a join is what follows the last separator. -/
private theorem eq_singleton_of_joinWith {words : List (List Char)} {cs : List Char}
    (hne : words ≠ []) (hjoin : cs = joinWith [':'] words) (hcs : ':' ∉ cs) : words = [cs] := by
  subst hjoin
  cases words with
  | nil => exact absurd rfl hne
  | cons word words =>
      obtain ⟨rest, hrest, ⟨rfl, rfl⟩ | ⟨more, rfl, -⟩⟩ := joinWith_cons ':' word words
      · simp
      · rw [hrest] at hcs
        exact absurd (by simp) hcs

private theorem GroupWords.replace_tail {quad : Bool} {words : List (List Char)}
    {groups : List UInt16} {octets : Octets 4} {front tail other : List Char}
    (h : GroupWords quad words groups) (hjoin : joinWith [':'] words = front ++ ':' :: tail)
    (hcolon : ':' ∉ tail) (hdot : '.' ∈ tail) (hother : Ipv4.read? other = some octets) :
    ∃ words' groups', GroupWords true words' groups' ∧ groups'.length = groups.length ∧
      joinWith [':'] words' = front ++ ':' :: other := by
  obtain ⟨before, after, rfl, hbefore, hafter, rfl, htail⟩ :=
    joinWith_eq_append_cons h.words_length.2 hjoin
  obtain rfl := eq_singleton_of_joinWith hafter htail hcolon
  obtain ⟨groups', hgroups', hlength⟩ := h.replace_quad hdot hother
  refine ⟨_, groups', hgroups', hlength, ?_⟩
  rw [joinWith_append ':' hbefore (by simp), joinWith_singleton]

/-- Of two cuts at a colon the one with no colon behind it is the later one. -/
private theorem append_colon_cases {front back front' tail : List Char}
    (h : front ++ ':' :: back = front' ++ ':' :: tail) (htail : ':' ∉ tail) :
    (front = front' ∧ back = tail) ∨
      ∃ middle, front' = front ++ ':' :: middle ∧ back = middle ++ ':' :: tail := by
  rcases List.append_eq_append_iff.mp h with ⟨middle, hfront, hback⟩ | ⟨middle, hfront, hback⟩
  · cases middle with
    | nil => exact Or.inl ⟨by simpa using hfront.symm, by simpa using hback⟩
    | cons c middle =>
        obtain ⟨rfl, rfl⟩ : ':' = c ∧ back = middle ++ ':' :: tail := by simpa using hback
        exact Or.inr ⟨middle, hfront, rfl⟩
  · cases middle with
    | nil => exact Or.inl ⟨by simpa using hfront, by simpa using hback.symm⟩
    | cons c middle =>
        obtain ⟨-, rfl⟩ : ':' = c ∧ tail = middle ++ ':' :: back := by simpa using hback
        exact absurd (by simp) htail

/-- Behind the last colon one quad is as good as another. -/
theorem read?_replace_quad {front tail other : List Char} {octets : Octets 16} {quad : Octets 4}
    (h : read? (front ++ ':' :: tail) = some octets) (hcolon : ':' ∉ tail) (hdot : '.' ∈ tail)
    (hother : Ipv4.read? other = some quad) :
    ∃ octets', read? (front ++ ':' :: other) = some octets' := by
  have hspells := read?_eq_some_iff.mp h
  generalize hcs : front ++ ':' :: tail = cs at hspells
  cases hspells with
  | full hwords hlength _ =>
      obtain ⟨words', groups', hwords', hlength', hjoin⟩ :=
        hwords.replace_tail hcs.symm hcolon hdot hother
      obtain ⟨octets', hoctets'⟩ := ofGroups?_isSome groups' (hlength'.trans hlength)
      exact ⟨octets', read?_eq_some_iff.mpr (hjoin ▸ Spells.full hwords' (hlength'.trans hlength)
        hoctets')⟩
  | @compressed _ words back before after _ hfront hback hlength _ =>
      have hcut : (joinWith [':'] words ++ [':']) ++ ':' :: joinWith [':'] back =
          front ++ ':' :: tail := by simpa using hcs.symm
      -- The last colon is the second of the two, or it stands in the back.
      obtain ⟨words', groups', hwords', hlength', hjoin⟩ : ∃ words' groups',
          GroupWords true words' groups' ∧ groups'.length = after.length ∧
            joinWith [':'] words ++ [':', ':'] ++ joinWith [':'] words' = front ++ ':' :: other := by
        rcases append_colon_cases hcut hcolon with ⟨rfl, htail⟩ | ⟨middle, rfl, hmiddle⟩
        · have hne : back ≠ [] := by
            rintro rfl
            rw [← htail] at hdot
            simp [joinWith] at hdot
          obtain rfl := eq_singleton_of_joinWith hne htail.symm hcolon
          obtain ⟨groups', hgroups', hlength'⟩ := GroupWords.replace_quad (show GroupWords _ ([] ++ [tail]) _ from hback) hdot hother
          exact ⟨_, groups', hgroups', hlength', by simp⟩
        · obtain ⟨words', groups', hwords', hlength', hjoin⟩ :=
            hback.replace_tail hmiddle hcolon hdot hother
          exact ⟨words', groups', hwords', hlength', by simp [hjoin]⟩
      rw [← hlength'] at hlength
      obtain ⟨octets', hoctets'⟩ := ofGroups?_isSome
        (before ++ List.replicate (8 - before.length - groups'.length) 0 ++ groups')
        (by simp only [List.length_append, List.length_replicate]; omega)
      exact ⟨octets', read?_eq_some_iff.mpr (hjoin ▸ Spells.compressed hfront hwords' hlength hoctets')⟩

end NetRedact.Ipv6
