import NetRedact.Proofs.SlidingWindow

/-!
# Identities that a limiter keeps

A limiter keeps an entry for an identity from its first request until a purge finds no time in it.
Between the two an entry is never empty, since an admitted request adds its time, and a refused one
was refused for the times that are there.  So an entry that outlives a reading of the clock has a
time whose window had not ended at that reading.

The second statement needs the readings to come in order, for only then does draining leave no time
behind the window.
-/

namespace NetRedact.RateLimiter

/-- The limiter has an entry for the identity. -/
def Tracks (limiter : RateLimiter) (identity : String) : Prop :=
  (limiter.windows.find? identity).isSome = true

instance (limiter : RateLimiter) (identity : String) : Decidable (limiter.Tracks identity) :=
  inferInstanceAs (Decidable (_ = true))

/-- No entry is empty. -/
def NoneIdle (limiter : RateLimiter) : Prop :=
  ∀ identity, limiter.Tracks identity → limiter.times identity ≠ []

/-- A limiter that has not seen a request has no entry. -/
theorem noneIdle_fresh (maxRequests : Nat) (window : Duration) :
    (fresh maxRequests window).NoneIdle := by
  intro identity htracks
  simp [Tracks, fresh, Table.find?_empty] at htracks

/-- The times that a call leaves to the identity it is about: with room for at least one request,
there is one. -/
theorem times_answer_ne_nil {limiter : RateLimiter} (hmax : 1 ≤ limiter.maxRequests) {call : Call}
    {identity : String} (hasker : call.asker? = some identity) :
    (limiter.answer call).2.times identity ≠ [] := by
  rw [(answer_of_asker limiter hasker).2]
  by_cases hroom : (limiter.counting identity call.now).length < limiter.maxRequests
  · rw [(check_of_room hroom).2.own]
    simp
  · -- The request is refused for the times that count, so there are some.
    rw [(check_of_full (Nat.not_lt.mp hroom)).2.own, List.append_nil]
    apply List.ne_nil_of_length_pos
    omega

/-- A purge keeps the entries in which a time is left. -/
theorem tracks_purgeIdle {limiter : RateLimiter} {now : Moment} {identity : String} :
    (limiter.purgeIdle now).2.Tracks identity ↔
      limiter.Tracks identity ∧ limiter.counting identity now ≠ [] := by
  show ((((limiter.windows.map (drain limiter.window now)).filter
    fun _ times => !times.isEmpty).find? identity).isSome = true) ↔ _
  rw [Table.find?_filter, Table.find?_map]
  unfold Tracks counting times
  cases limiter.windows.find? identity with
  | none => simp
  | some held =>
      cases hdrained : drain limiter.window now held with
      | nil => simp [hdrained]
      | cons t ts => simp [hdrained, Option.filter_some]

/-- What a call leaves of the entries: that of the asker is there, those of others stay as they are,
and a purge keeps those in which a time is left. -/
theorem tracks_answer {limiter : RateLimiter} {call : Call} {identity : String}
    (htracks : (limiter.answer call).2.Tracks identity) :
    call.asker? = some identity ∨
      (limiter.Tracks identity ∧
        (limiter.answer call).2.times identity = limiter.times identity) ∨
      call = .purgeIdle call.now := by
  by_cases hasker : call.asker? = some identity
  · exact .inl hasker
  · cases hother : call.asker? with
    | some asker =>
        have hne : identity ≠ asker := by
          intro hsame
          exact hasker (hsame ▸ hother)
        have hkept := (charges_answer limiter hother).others identity hne
        unfold Tracks at htracks ⊢
        rw [hkept] at htracks
        exact .inr (.inl ⟨htracks, congrArg (Option.getD · []) hkept⟩)
    | none =>
        cases call with
        | check asker now => cases hother
        | allow asker now => cases hother
        | purgeIdle now => exact .inr (.inr rfl)

/-- A call leaves no entry empty. -/
theorem NoneIdle.answer {limiter : RateLimiter} (h : limiter.NoneIdle)
    (hmax : 1 ≤ limiter.maxRequests) (call : Call) : (limiter.answer call).2.NoneIdle := by
  intro identity htracks
  rcases tracks_answer htracks with hasker | ⟨hbefore, hsame⟩ | hpurge
  · exact times_answer_ne_nil hmax hasker
  · rw [hsame]
    exact h identity hbefore
  · rw [hpurge] at htracks ⊢
    have hleft := (tracks_purgeIdle.mp htracks).2
    rw [show ((limiter.answer (.purgeIdle call.now)).2.times identity) = _ from
      times_purgeIdle limiter call.now identity]
    exact hleft

namespace Ledger

/-- Each entry has a time whose window had not ended at a given moment. -/
def RecentSince (m : Moment) (l : Ledger) : Prop :=
  ∀ identity, l.limiter.Tracks identity →
    ∃ t ∈ l.limiter.times identity, m.nanos ≤ t.nanos + l.limiter.window.nanos

/-- The times that count at a reading have windows that have not ended by then. -/
theorem InOrder.lt_of_mem_counting {maxRequests : Nat} {window : Duration} {l : Ledger}
    (horder : l.InOrder) (h : l.Remembers maxRequests window) {now : Moment} (hnow : now.Shown)
    (identity : String) :
    ∀ t ∈ l.limiter.counting identity now, now.nanos < t.nanos + l.limiter.window.nanos := by
  intro t ht
  have hheld := horder.held h identity
  have hlt := lt_of_mem_drain l.limiter.window hnow hheld.1 hheld.2 t ht
  omega

/-- The entries that a purge leaves are recent. -/
theorem recentSince_purge {maxRequests : Nat} {window : Duration} {l : Ledger}
    (horder : l.InOrder) (h : l.Remembers maxRequests window) {now : Moment} (hnow : now.Shown) :
    (l.enter (.purgeIdle now)).RecentSince now := by
  intro identity htracks
  have hleft := (tracks_purgeIdle.mp htracks).2
  obtain ⟨t, rest, hcounting⟩ := List.exists_cons_of_ne_nil hleft
  have hmem : t ∈ l.limiter.counting identity now := by
    rw [hcounting]
    exact List.mem_cons_self
  have hlt := horder.lt_of_mem_counting h hnow identity t hmem
  have htimes : (l.enter (.purgeIdle now)).limiter.times identity =
      l.limiter.counting identity now := times_purgeIdle l.limiter now identity
  have hwindow : (l.enter (.purgeIdle now)).limiter.window = l.limiter.window := rfl
  refine ⟨t, htimes ▸ hmem, ?_⟩
  rw [hwindow]
  exact Int.le_of_lt hlt

/-- Recent entries stay so when a call comes with a later reading.  The entry of the asker has the
time of the request or, if that is refused, times that count. -/
theorem RecentSince.enter {maxRequests : Nat} {window : Duration} {l : Ledger} {m : Moment}
    (hrecent : l.RecentSince m) (horder : l.InOrder) (h : l.Remembers maxRequests window)
    (hmax : 1 ≤ maxRequests) {call : Call} (hnow : call.now.Shown) (hle : m ≤ call.now) :
    (l.enter call).RecentSince m := by
  have hwindow : (l.enter call).limiter.window = l.limiter.window :=
    (settings_answer l.limiter call).2
  have hle' : m.nanos ≤ call.now.nanos := hle
  intro identity htracks
  rw [hwindow]
  rcases tracks_answer htracks with hasker | ⟨hbefore, hsame⟩ | hpurge
  · have hcharges := charges_answer l.limiter hasker
    have hne : (l.enter call).limiter.times identity ≠ [] :=
      times_answer_ne_nil (h.maxRequests_eq ▸ hmax) hasker
    obtain ⟨t, rest, htimes⟩ := List.exists_cons_of_ne_nil hne
    have hmem : t ∈ (l.enter call).limiter.times identity := by
      rw [htimes]
      exact List.mem_cons_self
    refine ⟨t, hmem, ?_⟩
    have hmem' : t ∈ (l.limiter.answer call).2.times identity := hmem
    rw [hcharges.own, List.mem_append] at hmem'
    -- A time of the asker still counted at the reading, or it is the reading.
    cases hmem' with
    | inl hcounts =>
        have hlt := horder.lt_of_mem_counting h hnow identity t hcounts
        omega
    | inr hcharged =>
        unfold Exchange.charge at hcharged
        split at hcharged
        · rw [List.mem_singleton.mp hcharged]
          show m.nanos ≤ call.now.nanos + _
          omega
        · cases hcharged
  · obtain ⟨t, ht, hbound⟩ := hrecent identity hbefore
    refine ⟨t, ?_, hbound⟩
    show t ∈ (l.limiter.answer call).2.times identity
    rw [hsame]
    exact ht
  · rw [hpurge] at htracks ⊢
    obtain ⟨t, ht, hbound⟩ := recentSince_purge horder h hnow identity htracks
    refine ⟨t, ht, ?_⟩
    have hbound' : call.now.nanos ≤ t.nanos + l.limiter.window.nanos := hbound
    omega

end Ledger

end NetRedact.RateLimiter
