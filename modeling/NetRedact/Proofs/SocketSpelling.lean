import NetRedact.Address.Socket
import NetRedact.Proofs.Ipv6Spelling
import NetRedact.Proofs.NumberTexts

/-!
# Spellings of socket addresses

The reader of socket addresses looks at the first character to tell the two kinds apart and lets each
part take what it can.  What it accepts is stated here without it: an address, a colon and a number of
16 bits, where an address with colons stands in brackets and may have a scope.  Neither number is
limited in its digits, only in its value.
-/

namespace NetRedact.SocketAddress

open NetRedact.Text NetRedact.Scan

/-- Nothing, or a percent sign with the number of a scope. -/
inductive ScopeWord : List Char → Nat → Prop where
  | absent : ScopeWord [] 0
  | given {word : List Char} {scope : Nat} : NumberWord 4294967295 word scope →
      ScopeWord ('%' :: word) scope

/-- The spellings of a socket address. -/
inductive Spells : List Char → SocketAddress → Prop where
  | ipv4 {words : List (List Char)} {word : List Char} {octets : Octets 4} {service : Nat} :
      Ipv4.Spells words octets → NumberWord 65535 word service →
      Spells (joinWith ['.'] words ++ ':' :: word) (.ipv4 octets service)
  | ipv6 {host mark word : List Char} {octets : Octets 16} {scope service : Nat} :
      Ipv6.Spells host octets → ScopeWord mark scope → NumberWord 65535 word service →
      Spells ('[' :: (host ++ (mark ++ ']' :: ':' :: word))) (.ipv6 octets scope service)

/-! ## Numbers -/

/-- A number is read where digits for it stand and no further one. -/
theorem readNumber_eq_some_iff {limit n : Nat} {cs rest : List Char} :
    readNumber limit cs = some (n, rest) ↔
      ∃ word, cs = word ++ rest ∧ NumberWord limit word n ∧ StopsAt Char.isDigit rest := by
  have hread (word back : List Char) (hspan : cs.span Char.isDigit = (word, back)) :
      readNumber limit cs = some (n, rest) ↔
        back = rest ∧ word ≠ [] ∧ decimalNumber word = n ∧ n ≤ limit := by
    unfold readNumber spanDigits
    rw [hspan]
    simp only [Bool.or_eq_true, List.isEmpty_iff, decide_eq_true_eq, Option.ite_none_left_eq_some,
      Option.some.injEq, Prod.mk.injEq, not_or, Nat.not_lt]
    constructor
    · rintro ⟨⟨hne, hle⟩, rfl, rfl⟩
      exact ⟨rfl, hne, rfl, hle⟩
    · rintro ⟨rfl, hne, rfl, hle⟩
      exact ⟨⟨hne, hle⟩, rfl, rfl⟩
  constructor
  · intro h
    obtain ⟨hcs, hdigits, hstop⟩ := span_eq_iff.mp (rfl : cs.span Char.isDigit = _)
    obtain ⟨hrest, hne, hvalue, hle⟩ := (hread _ _ rfl).mp h
    rw [hrest] at hcs hstop
    exact ⟨_, hcs, ⟨hne, hdigits, hvalue, hle⟩, hstop⟩
  · rintro ⟨word, hcs, hword, hstop⟩
    exact (hread word rest (span_eq_iff.mpr ⟨hcs, hword.digits, hstop⟩)).mpr
      ⟨rfl, hword.ne_nil, hword.value, hword.le⟩

/-- The number of a service is read up to the end. -/
theorem readService_eq_some_iff {cs : List Char} {service : Nat} :
    readService cs = some service ↔ ∃ word, cs = ':' :: word ∧ NumberWord 65535 word service := by
  constructor
  · intro h
    unfold readService at h
    split at h
    · split at h
      · rename_i hnumber
        obtain rfl := Option.some.inj h
        obtain ⟨word, rfl, hword, -⟩ := readNumber_eq_some_iff.mp hnumber
        exact ⟨word, by rw [List.append_nil], hword⟩
      · contradiction
    · contradiction
  · rintro ⟨word, rfl, hword⟩
    have hnumber : readNumber 65535 word = some (service, []) :=
      readNumber_eq_some_iff.mpr ⟨word, by rw [List.append_nil], hword, stopsAt_nil _⟩
    simp only [readService, hnumber]

/-- A scope is read in front of a closing bracket. -/
theorem readScope_eq_some_iff {cs rest : List Char} {scope : Nat} :
    readScope cs = some (scope, ']' :: rest) ↔
      ∃ mark, cs = mark ++ ']' :: rest ∧ ScopeWord mark scope := by
  constructor
  · intro h
    unfold readScope at h
    split at h
    · obtain ⟨word, rfl, hword, -⟩ := readNumber_eq_some_iff.mp h
      exact ⟨'%' :: word, rfl, .given hword⟩
    · obtain ⟨rfl, rfl⟩ := Prod.mk.inj (Option.some.inj h)
      exact ⟨[], rfl, .absent⟩
  · rintro ⟨mark, rfl, hmark⟩
    cases hmark with
    | absent => rfl
    | given hword =>
        exact readNumber_eq_some_iff.mpr ⟨_, rfl, hword, stopsAt_cons (by decide) _⟩

/-! ## Whole spellings -/

/-- A dotted quad does not begin with a bracket. -/
theorem readFirst_bracket (cs : List Char) : Ipv4.readFirst ('[' :: cs) = none := by
  rfl

theorem spells_of_read? {cs : List Char} {address : SocketAddress} (h : read? cs = some address) :
    Spells cs address := by
  unfold read? at h
  split at h
  · simp only [Option.bind_eq_bind, Option.bind_eq_some_iff, Prod.exists] at h
    obtain ⟨octets, rest, hhost, scope, rest', hscope, h⟩ := h
    split at h
    · obtain ⟨service, hservice, rfl⟩ := Option.map_eq_some_iff.mp h
      obtain ⟨host, hspells, rfl⟩ := Ipv6.spells_of_readFirst hhost
      obtain ⟨mark, rfl, hmark⟩ := readScope_eq_some_iff.mp hscope
      obtain ⟨word, rfl, hword⟩ := readService_eq_some_iff.mp hservice
      exact .ipv6 hspells hmark hword
    · contradiction
  · simp only [Option.bind_eq_bind, Option.bind_eq_some_iff, Prod.exists] at h
    obtain ⟨octets, rest, hhost, h⟩ := h
    obtain ⟨service, hservice, rfl⟩ := Option.map_eq_some_iff.mp h
    obtain ⟨word, rfl, hword⟩ := readService_eq_some_iff.mp hservice
    obtain ⟨words, hwords, rfl, -⟩ := Ipv4.readFirst_eq_some_iff.mp hhost
    exact .ipv4 hwords hword

theorem read?_of_spells {cs : List Char} {address : SocketAddress} (h : Spells cs address) :
    read? cs = some address := by
  cases h with
  | @ipv4 words word octets service hwords hword =>
      have hread : Ipv4.readFirst (joinWith ['.'] words ++ ':' :: word) =
          some (octets, ':' :: word) :=
        Ipv4.readFirst_eq_some_iff.mpr ⟨words, hwords, rfl, stopsAt_cons (by decide) _⟩
      have hservice : readService (':' :: word) = some service :=
        readService_eq_some_iff.mpr ⟨word, rfl, hword⟩
      unfold read?
      split
      · rename_i cs heq
        rw [heq, readFirst_bracket] at hread
        contradiction
      · simp [hread, hservice]
  | @ipv6 host mark word octets scope service hhost hmark hword =>
      -- Neither a percent sign nor a bracket goes on an address with colons.
      have hends : Ipv6.EndsWords (mark ++ ']' :: ':' :: word) := by
        cases hmark with
        | absent => exact Ipv6.endsWords_cons (by decide) (by decide) (by decide) _
        | given _ => exact Ipv6.endsWords_cons (by decide) (by decide) (by decide) _
      have hread := Ipv6.readFirst_of_spells hhost hends
      have hscope : readScope (mark ++ ']' :: ':' :: word) = some (scope, ']' :: ':' :: word) :=
        readScope_eq_some_iff.mpr ⟨mark, rfl, hmark⟩
      have hservice : readService (':' :: word) = some service :=
        readService_eq_some_iff.mpr ⟨word, rfl, hword⟩
      simp [read?, hread, hscope, hservice]

/-- A text is read as a socket address exactly if it spells it. -/
theorem read?_eq_some_iff {cs : List Char} {address : SocketAddress} :
    read? cs = some address ↔ Spells cs address :=
  ⟨spells_of_read?, read?_of_spells⟩

end NetRedact.SocketAddress
