import DhtCrawler.PoolRecent

/-! The recent probes of a full node pool. Before an endpoint is recorded the due checks are finished: one is dropped
with its endpoint or moved behind `now`, so every call of the bounded expiry leaves fewer of them. -/

namespace DhtCrawler.NodePool

open FiniteMap RecentProbes

open RecentProbes (Inv)

variable {pool pool' : NodePool} {addr : SocketAddr} {now : Instant}

variable {r r' : RecentProbes} {d expiresAt : Instant} {a : SocketAddr}

lemma prepareRecentSlot_ends (h : Inv pool.recent) (addr : SocketAddr) (now : Instant) :
    ∃ mid pool', pool.expireRecent now = .ok mid ∧ Loop.Ends (prepareStep addr now) mid pool' ∧
      pool.prepareRecentSlot addr now = .ok pool' ∧ Swept now pool pool' ∧ ¬Pressed addr now pool' := by
  obtain ⟨mid, hmid, hswept⟩ := (expireRecent_swept h now).exists
  obtain ⟨pool', hrun, hends, hswept', hloop⟩ := Loop.exists_ends _
    (fun _ h₂ => prepareStep_round addr h₂) (mid.recent.expiry.length + 1) hswept
    (Nat.lt_succ_of_le (due_le_length now _))
  refine ⟨mid, pool', hmid, hends, ?_, hswept', hloop⟩
  unfold prepareRecentSlot
  rw [hmid, Except.ok_bind]
  exact hrun

lemma deadline_isSome (hd : r.deadline addr = some d) :
    r.entries.contains addr = true := by
  obtain ⟨entry, hentry, _⟩ := Option.map_eq_some_iff.mp hd
  exact contains_iff.mpr ⟨entry, hentry⟩

lemma record_known (hknown : r.entries.contains addr = true)
    (hrun : r.record addr expiresAt = .ok r') (hd : r.deadline a = some d) :
    r'.deadline a ≠ none := by
  obtain ⟨entry, hentry⟩ := contains_iff.mp hknown
  unfold RecentProbes.record at hrun
  rw [hentry] at hrun
  cases hrun
  unfold deadline at hd ⊢
  rw [get_insert]
  split_ifs
  · nofun
  · rw [hd]
    nofun

lemma record_room (h : Inv r)
    (hnew : r.entries.contains addr = false) (hroom : r.entries.len < r.capacity)
    (hrun : r.record addr expiresAt = .ok r') (hd : r.deadline a = some d) :
    r'.deadline a ≠ none := by
  have hnone := contains_eq_false.mp hnew
  have hmono : ∀ d, r.deadline addr = some d → d ≤ expiresAt := by
    intro d hd
    rw [deadline_isSome hd] at hnew
    cases hnew
  have hrec := (h.record addr hmono).of_ok hrun
  rw [hrec.deadline, evictee_eq_none fun hfull => hroom.ne hfull.2,
    if_neg (Option.some_ne_none a).symm, hd]
  split_ifs
  · nofun
  · nofun

/-- `prepare_recent_slot` comes to an end. It drops endpoints whose deadline has passed and nothing else, and
then `addr` is recorded, or there is a free slot, or all that the set has room for are recent. -/
theorem pressure_drains_due (h : Inv pool.recent) (addr : SocketAddr) (now : Instant) :
    ∃ mid pool', pool.expireRecent now = .ok mid ∧ Loop.Ends (prepareStep addr now) mid pool' ∧
      pool.prepareRecentSlot addr now = .ok pool' ∧
      pool' = { pool with recent := pool'.recent } ∧ pool'.recent.capacity = pool.recent.capacity ∧
      (∀ a, pool'.recent.deadline a = pool.recent.deadline a ∨
        pool'.recent.deadline a = none ∧ ∃ d, pool.recent.deadline a = some d ∧ d ≤ now) ∧
      (pool'.recent.entries.contains addr = true ∨ pool'.recent.entries.len < pool'.recent.capacity ∨
        pool'.recent.entries.len = pool'.recent.capacity ∧ ∀ a d, pool'.recent.deadline a = some d → now < d) ∧
      ∀ expiresAt recent, pool'.recent.record addr expiresAt = .ok recent →
        ∀ a d, pool'.recent.deadline a = some d → now < d → recent.deadline a = none →
          ∀ b d', pool'.recent.deadline b = some d' → now < d' := by
  obtain ⟨mid, pool', hmid, hends, hrun, hswept, hloop⟩ := prepareRecentSlot_ends h addr now
  have hinv := hswept.recent.inv
  have hlen : pool'.recent.entries.len ≤ pool'.recent.capacity := by
    rw [← hinv.mirror.length_eq]
    exact hinv.length_le.trans (min_le_left _ _)
  have hcases : pool'.recent.entries.contains addr = true ∨ pool'.recent.entries.len < pool'.recent.capacity ∨
      pool'.recent.entries.len = pool'.recent.capacity ∧ ∀ a d, pool'.recent.deadline a = some d → now < d := by
    by_cases hknown : pool'.recent.entries.contains addr = true
    · exact .inl hknown
    rcases hlen.lt_or_eq with hroom | hfull
    · exact .inr (.inl hroom)
    · refine .inr (.inr ⟨hfull, fun a d hd => ?_⟩)
      refine hinv.live_of_not_due (Bool.eq_false_iff.mpr fun hdue => hloop ?_) hd
      exact ⟨hfull.ge, Bool.eq_false_iff.mpr hknown, hdue⟩
  refine ⟨mid, pool', hmid, hends, hrun, hswept.frame, hswept.recent.capacity, hswept.recent.deadline, hcases,
    fun expiresAt recent hrecord a d hd _ hgone => ?_⟩
  by_cases hknown : pool'.recent.entries.contains addr = true
  · exact absurd hgone (record_known hknown hrecord hd)
  rcases hcases with hknown' | hroom | hfull
  · exact absurd hknown' hknown
  · exact absurd hgone (record_room hinv (Bool.eq_false_iff.mpr hknown) hroom hrecord hd)
  · exact hfull.2

theorem pressure_drains_due_one :
    ∃ pool pool' : NodePool, pool.recent.entries.len = 1 ∧ pool.recent.capacity = 1 ∧
      pool.prepareRecentSlot (.v4 #v[8, 8, 8, 2] 6881) (secs 20) = .ok pool' ∧
      pool'.recent.entries.len < pool'.recent.capacity := by
  have htest : ((new 4 60 (secs 10) 1 0).recordProbe (.v4 #v[8, 8, 8, 1] 6881) 0).isOkAnd (fun pool =>
      decide (pool.recent.entries.len = 1 ∧ pool.recent.capacity = 1) &&
        (pool.prepareRecentSlot (.v4 #v[8, 8, 8, 2] 6881) (secs 20)).isOkAnd fun pool' =>
          decide (pool'.recent.entries.contains (.v4 #v[8, 8, 8, 2] 6881) = false ∧
            pool'.recent.entries.len = 0)) = true := by
    decide +kernel
  obtain ⟨pool, hrecord, htest⟩ := Except.isOkAnd_eq_true.mp htest
  obtain ⟨hsizes, htest⟩ := (Bool.and_eq_true _ _).mp htest
  obtain ⟨hlen, hcapacity⟩ := of_decide_eq_true hsizes
  obtain ⟨after, hafter, hstate⟩ := Except.isOkAnd_eq_true.mp htest
  obtain ⟨hnew, hempty⟩ := of_decide_eq_true hstate
  have hnone : ∀ a, (new 4 60 (secs 10) 1 0).recent.deadline a = none := fun _ => rfl
  have hinv : Inv pool.recent := by
    refine ((recordProbe_spec (inv_new 1) _ fun a d hd => ?_).of_ok hrecord).1.inv
    rw [hnone] at hd
    cases hd
  obtain ⟨_, pool', _, _, hrun, _, hsame, _, hcases, _⟩ :=
    pressure_drains_due hinv (.v4 #v[8, 8, 8, 2] 6881) (secs 20)
  cases hafter.symm.trans hrun
  refine ⟨pool, after, hlen, hcapacity, hrun, ?_⟩
  rcases hcases with hknown | hroom | hfull
  · rw [hnew] at hknown
    cases hknown
  · exact hroom
  · rw [hempty, hsame, hcapacity] at hfull
    exact absurd hfull.1 (by decide)

end DhtCrawler.NodePool
