import DhtCrawler.CrawlAccounting
import DhtCrawler.CrawlBudget

/-! The set of recent probes never runs full. -/

namespace DhtCrawler.CrawlActor

open FiniteMap Meter ResolvedCrawlConfig Finset RecentProbes

open ResponsiveReservoir (Trimmed)
open NodePool (Aged Probed)

variable {σ : CrawlActor} {p q : Phase} {stage : Stage} {options : CrawlOptions}

variable {a addr : SocketAddr} {key : PendingKey} {req : PendingRequest}

/-! ### Windows -/

lemma le_divCeil (n : ℕ) : (n : ℚ) / 60 ≤ (divCeil n 60 : ℕ) := by
  have hle : n ≤ divCeil n 60 * 60 := by
    unfold divCeil
    omega
  have hcast : (n : ℚ) ≤ (divCeil n 60 : ℕ) * 60 := by exact_mod_cast hle
  linarith

lemma recentProbeTtl_secs (options : CrawlOptions) :
    ((fromOptions options).recentProbeTtl : ℚ) / 1000000000 =
      (asSecs (fromOptions options).recentProbeTtl : ℕ) := by
  unfold fromOptions
  dsimp only
  rw [asSecs_secs, secs]
  push_cast
  ring

lemma recentProbeTtl_pos (options : CrawlOptions) :
    0 < (fromOptions options).recentProbeTtl :=
  Nat.mul_pos (Nat.lt_of_lt_of_le Nat.zero_lt_one (le_max_right _ _)) (by decide)

def windowStart (σ : CrawlActor) : ℤ := (σ.clock : ℤ) - (σ.config.recentProbeTtl : ℤ)

lemma Budgeted.sent_le_queryWindow (h : Budgeted p) (hconfig : p.actor.config = .fromOptions options) :
    after (p.actor.sendTimes fun _ => true) p.actor.windowStart + p.held ≤ p.actor.config.queryWindow := by
  have hbound := h.query.after_add_le p.actor.config.recentProbeTtl
  unfold windowStart queryWindow
  rw [hconfig] at hbound ⊢
  rw [recentProbeTtl_secs] at hbound
  rw [← Nat.cast_le (α := ℚ)]
  push_cast
  linarith

lemma destinationBurst_le (config : ResolvedCrawlConfig) :
    destinationBurst config ≤ (divCeil config.maxNewDestinationsPerMinute 60 : ℕ) := by
  unfold destinationBurst
  split_ifs with hzero
  · exact Nat.cast_nonneg _
  · have hone : 1 ≤ divCeil config.maxNewDestinationsPerMinute 60 := by
      unfold divCeil
      omega
    exact max_le (le_refl _) (by exact_mod_cast hone)

lemma Budgeted.charged_le_destinationWindow (h : Budgeted p) (hconfig : p.actor.config = .fromOptions options) :
    after (p.actor.sendTimes Dispatch.charged) p.actor.windowStart + p.token.toNat ≤
      p.actor.config.destinationWindow := by
  have hbound := h.destination.after_add_le p.actor.config.recentProbeTtl
  have hburst := destinationBurst_le p.actor.config
  have hceil := le_divCeil
    (p.actor.config.maxNewDestinationsPerMinute * asSecs p.actor.config.recentProbeTtl)
  unfold windowStart destinationWindow
  rw [hconfig] at hbound hburst hceil ⊢
  rw [recentProbeTtl_secs] at hbound
  rw [← Nat.cast_le (α := ℚ)]
  push_cast at hceil ⊢
  linarith

/-! ### Endpoints -/

def sentAfter (σ : CrawlActor) (test : Dispatch → Bool) (s : ℤ) : Finset SocketAddr :=
  ((σ.dispatches.filter fun d => test d && decide (s < d.dispatchedAt)).map fun d => d.key.addr).toFinset

variable {s : ℤ} {responsive : ResponsiveReservoir} {pool : NodePool}

lemma mem_sentAfter {test : Dispatch → Bool} :
    a ∈ σ.sentAfter test s ↔ ∃ d ∈ σ.dispatches, test d = true ∧ s < d.dispatchedAt ∧ d.key.addr = a := by
  simp [sentAfter, and_assoc]

lemma card_sentAfter_le (σ : CrawlActor) (test : Dispatch → Bool) (s : ℤ) :
    (σ.sentAfter test s).card ≤ after (σ.sendTimes test) s := by
  refine (List.toFinset_card_le _).trans ?_
  unfold after sendTimes
  rw [List.length_map, ← List.countP_eq_length_filter, List.countP_map, List.countP_filter]
  refine List.countP_mono_left fun d _ htest => ?_
  rw [Bool.and_comm]
  exact htest

def members (σ : CrawlActor) : Finset SocketAddr :=
  σ.responsive.index.keys ∪ σ.pending.keys.image PendingKey.addr

lemma mem_members :
    a ∈ σ.members ↔ (∃ slot, σ.responsive.index.get a = some slot) ∨
      ∃ key req, σ.pending.get key = some req ∧ key.addr = a := by
  unfold members
  rw [mem_union, mem_keys, mem_image]
  simp only [mem_keys, exists_and_right]

def Resident (s : ℤ) (σ : CrawlActor) : Prop :=
  ∃ old : Finset SocketAddr, old.card ≤ σ.config.responsiveCapacity + σ.config.maxInFlight ∧
    σ.members ∪ σ.sentAfter (fun _ => true) s ⊆ old ∪ σ.sentAfter Dispatch.charged s

lemma Resident.mono {σ' : CrawlActor} (h : Resident s σ) (hconfig : σ'.config = σ.config)
    (hmembers : σ'.members ⊆ σ.members) (hdispatches : σ'.dispatches = σ.dispatches) : Resident s σ' := by
  obtain ⟨old, hcard, hsub⟩ := h
  unfold Resident sentAfter at *
  rw [hconfig, hdispatches]
  exact ⟨old, hcard, (union_subset_union_left hmembers).trans hsub⟩

lemma members_trimmed (h : Trimmed σ.responsive responsive) : { σ with responsive }.members ⊆ σ.members := by
  intro a ha
  rcases mem_members.mp ha with ⟨slot, hslot⟩ | hpending
  · exact mem_members.mpr (Or.inl ⟨slot, h.members a slot hslot⟩)
  · exact mem_members.mpr (Or.inr hpending)

lemma members_finish (h : Capped σ) 
    (hreq : σ.pending.get key = some req) (hresponsive : Ended req σ.clock σ.responsive responsive) :
    { σ.finish key req with responsive }.members ⊆ σ.members := by
  rw [finish_eq]
  intro a ha
  rcases mem_members.mp ha with ⟨slot, hslot⟩ | ⟨key', req', hget, haddr⟩
  · by_cases hjoined : a = req.node.addr
    · exact mem_members.mpr (Or.inr ⟨key, req, hreq, (h.addr key req hreq).symm.trans hjoined.symm⟩)
    · exact mem_members.mpr (Or.inl ⟨slot, hresponsive.members hslot hjoined⟩)
  · exact mem_members.mpr (Or.inr ⟨key', req', (get_of_get_erase hget).2, haddr⟩)

lemma Resident.send (h : Resident s σ) (hs : s < σ.clock) {node : NodeTuple} {purpose : ProbePurpose}
    {fresh charged : Bool} {target : Option (Fin 256)}
    (hknown : charged = false → ∃ slot, σ.responsive.index.get node.addr = some slot)
    (hresponsive : Trimmed σ.responsive responsive) :
    Resident s { σ.launched node purpose σ.clock fresh charged target with pool, responsive } := by
  obtain ⟨old, hcard, hsub⟩ := h
  refine ⟨old, hcard, ?_⟩
  generalize hσ' : ({ σ.launched node purpose σ.clock fresh charged target with pool, responsive } :
    CrawlActor) = σ'
  have hdispatches : σ'.dispatches =
      ⟨⟨node.addr, σ.nextTid⟩, purpose, σ.clock, fresh, charged, target⟩ :: σ.dispatches := hσ' ▸ rfl
  have hgrow : σ.sentAfter Dispatch.charged s ⊆ σ'.sentAfter Dispatch.charged s := by
    intro a ha
    obtain ⟨d, hd, hrest⟩ := mem_sentAfter.mp ha
    exact mem_sentAfter.mpr ⟨d, hdispatches ▸ List.mem_cons_of_mem _ hd, hrest⟩
  have hsub' : σ.members ∪ σ.sentAfter (fun _ => true) s ⊆ old ∪ σ'.sentAfter Dispatch.charged s :=
    hsub.trans (union_subset_union_right hgrow)
  have hself : node.addr ∈ old ∪ σ'.sentAfter Dispatch.charged s := by
    cases hcharged : charged with
    | true =>
      refine mem_union_right _ (mem_sentAfter.mpr ⟨_, hdispatches ▸ List.mem_cons_self, ?_⟩)
      exact ⟨hcharged, hs, rfl⟩
    | false => exact hsub' (mem_union_left _ (mem_members.mpr (Or.inl (hknown hcharged))))
  intro a ha
  rcases mem_union.mp ha with ha | ha
  · rcases mem_members.mp ha with ⟨slot, hslot⟩ | ⟨key, req, hget, haddr⟩
    · subst hσ'
      exact hsub' (mem_union_left _
        (mem_members.mpr (Or.inl ⟨slot, hresponsive.members a slot hslot⟩)))
    · have hget' : (σ.pending.insert ⟨node.addr, σ.nextTid⟩ _).get key = some req := hσ' ▸ hget
      rw [get_insert] at hget'
      split_ifs at hget' with hkey
      · rw [← haddr, hkey]
        exact hself
      · exact hsub' (mem_union_left _ (mem_members.mpr (Or.inr ⟨key, req, hget', haddr⟩)))
  · obtain ⟨d, hd, _, hafter, haddr⟩ := mem_sentAfter.mp ha
    rw [hdispatches] at hd
    rcases List.mem_cons.mp hd with rfl | hd
    · rw [← haddr]
      exact hself
    · exact hsub' (mem_union_right _ (mem_sentAfter.mpr ⟨d, hd, rfl, hafter, haddr⟩))

/-! ### The invariant -/

structure Covered (σ : CrawlActor) : Prop where
  capacity : σ.pool.recent.capacity = σ.config.recentProbeCapacity
  ttl : σ.pool.recentTtl = σ.config.recentProbeTtl
  slots : σ.responsive.slots.length = σ.config.responsiveCapacity
  probed : ∀ a d, σ.pool.recent.deadline a = some d →
    ∃ sent ∈ σ.dispatches, sent.key.addr = a ∧ sent.dispatchedAt + σ.config.recentProbeTtl = d
  evictions : σ.pool.evictions = []
  resident : σ.config.bootstrapEnabled = false → ∀ s : ℤ, s < σ.clock → Resident s σ

def probeWindow (config : ResolvedCrawlConfig) : ℕ :=
  if config.bootstrapEnabled then config.queryWindow else min config.queryWindow config.residentWindow

lemma Covered.card_add_le (h : Covered p.actor) (hb : Budgeted p)
    (hconfig : p.actor.config = .fromOptions options) {n : ℕ} (hheld : n ≤ p.held) (htoken : n ≤ p.token.toNat) :
    (p.actor.sentAfter (fun _ => true) p.actor.windowStart).card + n ≤ probeWindow p.actor.config := by
  have hsent := card_sentAfter_le p.actor (fun _ => true) p.actor.windowStart
  have hquery := hb.sent_le_queryWindow hconfig
  unfold probeWindow
  split_ifs with henabled
  · omega
  · have hstart : p.actor.windowStart < p.actor.clock := by
      have hpos := recentProbeTtl_pos options
      rw [← hconfig] at hpos
      exact sub_lt_self _ (Int.natCast_pos.mpr hpos)
    obtain ⟨old, hcard, hsub⟩ := h.resident (Bool.eq_false_iff.mpr henabled) _ hstart
    have hunion := (card_le_card (subset_union_right.trans hsub)).trans
      (card_union_le _ _)
    have hcharged := card_sentAfter_le p.actor Dispatch.charged p.actor.windowStart
    have hdestination := hb.charged_le_destinationWindow hconfig
    refine le_min (by omega) ?_
    unfold residentWindow
    omega

lemma Covered.evictee_eq_none (h : Covered p.actor) (hb : Budgeted p)
    (hconfig : p.actor.config = .fromOptions options) (hheld : 0 < p.held)
    (hpaid : p.token = false → p.actor.pool.recent.contains addr p.actor.clock = true)
    {mid : RecentProbes} (hmid : Expired p.actor.clock p.actor.pool.recent mid)
    (hdue : mid.evictee addr ≠ none → mid.hasDue p.actor.clock = false) : mid.evictee addr = none := by
  by_contra hev
  have hnodue := hdue hev
  have hfull : mid.entries.get addr = none ∧ mid.entries.len = mid.capacity := by
    by_contra hnot
    exact hev (RecentProbes.evictee_eq_none hnot)
  cases htoken : p.token with
  | false =>
    -- the endpoint is live, so it was not dropped
    obtain ⟨d, hd, hlate⟩ := contains_iff_live.mp (hpaid htoken)
    rcases hmid.deadline addr with ha | ⟨_, d', hd', hle⟩
    · unfold deadline at ha hd
      rw [hfull.1, hd] at ha
      cases ha
    · rw [hd] at hd'
      cases hd'
      exact absurd hlate (not_lt.mpr hle)
  | true =>
    have hsub : mid.entries.keys ⊆ p.actor.sentAfter (fun _ => true) p.actor.windowStart := by
      intro a ha
      obtain ⟨entry, hentry⟩ := mem_keys.mp ha
      have hd : mid.deadline a = some entry.expiresAt := by
        unfold deadline
        rw [hentry]
        rfl
      have hlate := hmid.inv.live_of_not_due hnodue hd
      obtain ⟨sent, hsent, haddr, hat⟩ := h.probed a _ (hmid.deadline_of_some hd)
      refine mem_sentAfter.mpr ⟨sent, hsent, rfl, ?_, haddr⟩
      rw [← hat] at hlate
      have hlate' : (p.actor.clock : ℤ) < sent.dispatchedAt + p.actor.config.recentProbeTtl := by
        exact_mod_cast hlate
      exact sub_lt_iff_lt_add.mpr hlate'
    have hcard := card_le_card hsub
    have hwindow := h.card_add_le hb hconfig hheld (n := 1) (by rw [htoken]; exact le_refl 1)
    have hlen := hmid.inv.length_le
    rw [hmid.inv.mirror.length_eq] at hlen
    have hsize : isizeMax < usizeMax := by decide
    have hcapacity : mid.capacity = min (max (probeWindow p.actor.config) 1) usizeMax :=
      hmid.capacity.trans h.capacity
    change mid.entries.len ≤ _ at hcard
    omega

lemma Covered.probe (h : Covered p.actor) (hb : Budgeted p) (hconfig : p.actor.config = .fromOptions options)
    (hheld : 0 < p.held)
    (hpaid : p.token = false → p.actor.pool.recent.contains addr p.actor.clock = true)
    (hpool : Probed p.actor.clock addr p.actor.pool pool) :
    pool.recent.capacity = p.actor.config.recentProbeCapacity ∧
      pool.recentTtl = p.actor.config.recentProbeTtl ∧ pool.evictions = [] ∧
      ∀ a d, pool.recent.deadline a = some d → a = addr ∧ p.actor.clock + p.actor.config.recentProbeTtl = d ∨
          p.actor.pool.recent.deadline a = some d := by
  obtain ⟨mid, hexp, hdue, hrec, hevictions⟩ := hpool.recent
  have hnone := h.evictee_eq_none hb hconfig hheld hpaid hexp hdue
  refine ⟨hrec.capacity.trans (hexp.capacity.trans h.capacity), hpool.ttl.trans h.ttl, ?_, fun a d hd => ?_⟩
  · rw [hevictions, NodePool.evictionBy, hnone, h.evictions]
    rfl
  · rw [hrec.deadline, hnone, if_neg (Option.some_ne_none a).symm, h.ttl] at hd
    split_ifs at hd with ha
    · cases hd
      exact Or.inl ⟨ha, rfl⟩
    · exact Or.inr (hexp.deadline_of_some hd)

lemma Covered.finish (h : Covered σ) (hc : Capped σ) 
    (hreq : σ.pending.get key = some req) (hresponsive : Ended req σ.clock σ.responsive responsive) :
    Covered { σ.finish key req with responsive } := by
  have hmembers := members_finish hc hreq hresponsive
  rw [finish_eq] at hmembers ⊢
  exact { h with
    slots := hresponsive.length.trans h.slots
    resident := fun hdisabled s hs => (h.resident hdisabled s hs).mono rfl hmembers rfl }

lemma Covered.aged (h : Covered σ) (hpool : NodePool.Aged σ.clock σ.pool pool) : Covered { σ with pool } :=
  { h with
    capacity := hpool.recent.capacity.trans h.capacity
    ttl := hpool.ttl.trans h.ttl
    probed := fun a d hd => h.probed a d (hpool.recent.deadline_of_some hd)
    evictions := hpool.evictions.trans h.evictions }

lemma Covered.act (hconfig : p.actor.config = .fromOptions options) (hb : Budgeted p)
    (hc : Capped p.actor) (hact : Act stage p q) (h : Covered p.actor) : Covered q.actor := by
  cases hact with
  | reservoir responsive hresponsive =>
    exact { h with
      slots := hresponsive.length.trans h.slots
      resident := fun hdisabled s hs =>
        (h.resident hdisabled s hs).mono rfl (members_trimmed hresponsive.toTrimmed) rfl }
  | queue pool hpool => exact h.aged hpool
  | admission node pool outcome hadmission hpool => exact h.aged hpool
  | @send k σ node purpose charged target pool responsive hroom hsubnet hpaid hknown hunblocked hpool
      hresponsive hqueue =>
      obtain ⟨hcapacity, httl, hevictions, hprobed⟩ := h.probe hb hconfig (Nat.succ_pos k) hpaid hpool
      refine ⟨hcapacity, httl, hresponsive.length.trans h.slots, fun a d hd => ?_, hevictions,
        fun hdisabled s hs => ?_⟩
      · rcases hprobed a d hd with ⟨rfl, hat⟩ | hold
        · exact ⟨_, List.mem_cons_self, rfl, hat⟩
        · obtain ⟨sent, hsent, hrest⟩ := h.probed a d hold
          exact ⟨sent, List.mem_cons_of_mem _ hsent, hrest⟩
      · refine (h.resident hdisabled s hs).send hs (fun hcharged => ?_) hresponsive.toTrimmed
        exact (hknown hcharged).resolve_left fun henabled => nomatch henabled.symm.trans hdisabled
  | @refuse k σ addr mid pool hmid hpool hqueue =>
    obtain ⟨hcapacity, httl, hevictions, hprobed⟩ := h.probe hb hconfig (Nat.succ_pos k) nofun hmid
    exact { h with
      capacity := hpool.capacity.trans hcapacity
      ttl := hpool.ttl.trans httl
      evictions := hpool.evictions.trans hevictions
      probed := fun a d hd => by
        rw [hpool.deadline] at hd
        split_ifs at hd with ha
        exact h.probed a d ((hprobed a d hd).resolve_left fun hself => ha hself.1) }
  | finish key req responsive hreq hresponsive => exact h.finish hc hreq hresponsive
  | @timeout k b σ key req pendingExpiry responsive hfirst hreq hresponsive =>
    have hrest : Covered { σ with pendingExpiry } := { h with }
    exact hrest.finish (hc.dropRecord hfirst) hreq (.inl hresponsive)
  | _ => exact { h with }

lemma covered_new (options : CrawlOptions) (netmode : NetMode) (localId : NodeId)
    (maxMetadataQueueSize : ℕ) (now : Instant) :
    Covered (new (.fromOptions options) netmode localId maxMetadataQueueSize now) where
  capacity := by
    have hone : 1 ≤ (fromOptions options).recentProbeCapacity :=
      le_min (le_max_right _ _) (by decide)
    exact max_eq_left hone
  ttl := rfl
  slots := List.length_replicate.trans (max_eq_left (le_max_right _ _))
  probed := nofun
  evictions := rfl
  resident := fun _ _ _ => ⟨∅, Nat.zero_le _, fun a ha => by
    rcases mem_union.mp ha with ha | ha
    · rcases mem_members.mp ha with ⟨slot, hslot⟩ | ⟨key, req, hget, _⟩
      · cases hslot
      · cases hget
    · obtain ⟨d, hd, _⟩ := mem_sentAfter.mp ha
      cases hd⟩

lemma Covered.clock (h : Covered σ) (hb : Budgeted ⟨0, false, σ⟩) (hc : Capped σ) (hsound : Sound ∅ σ)
    {now : Instant} : Covered { σ with clock := now } := by
  refine { h with resident := fun hdisabled s _ => ?_ }
  by_cases hold : s < σ.clock
  · exact h.resident hdisabled s hold
  refine ⟨σ.members, ?_, fun a ha => ?_⟩
  · have hindex := hsound.reservoir.len_le
    rw [h.slots] at hindex
    have hpending : (σ.pending.keys.image PendingKey.addr).card ≤ σ.config.maxInFlight :=
      card_image_le.trans hc.pending_le
    exact (card_union_le _ _).trans (Nat.add_le_add hindex hpending)
  · rcases mem_union.mp ha with ha | ha
    · exact mem_union_left _ ha
    · obtain ⟨d, hd, _, hafter, _⟩ := mem_sentAfter.mp ha
      have hpast := hb.query.metered.past d.dispatchedAt
        (List.mem_map_of_mem (List.mem_filter.mpr ⟨hd, rfl⟩))
      have hlate : (σ.clock : ℤ) < d.dispatchedAt := (not_lt.mp hold).trans_lt hafter
      exact absurd (hpast.trans hb.query.last_le) (not_le.mpr (by exact_mod_cast hlate))

lemma covered_invariant (options : CrawlOptions) :
    Invariant options fun p => Budgeted p ∧ Capped p.actor ∧ Covered p.actor where
  start netmode localId maxMetadataQueueSize now :=
    ⟨budgeted_new _ _ _ _ _, (capped_invariant options).start netmode localId maxMetadataQueueSize now,
      covered_new _ _ _ _ _⟩
  clock σ now hconfig hsound hnow h :=
    ⟨(budgeted_invariant options).clock σ now hconfig hsound hnow h.1, h.2.1.clock hnow,
      h.2.2.clock h.1 h.2.1 hsound⟩
  act _ _ _ hconfig hact h := ⟨h.1.act hact, h.2.1.act hact, h.2.2.act hconfig h.1 h.2.1 hact⟩
  batch _ _ _ _ hconfig htake h := ⟨(h.1.batch hconfig htake).1, { h.2.1 with }, { h.2.2 with }⟩
  refund k σ h := ⟨(budgeted_invariant options).refund k σ h.1, { h.2.1 with }, { h.2.2 with }⟩

/-- No endpoint is evicted from the recent probes before its time; the capacity branch is not even taken. -/
theorem recent_probes_never_evicted {options : CrawlOptions} (hσ : Reachable options σ) :
    (∀ eviction ∈ σ.pool.evictions, ∃ d, eviction.deadline = some d ∧ d ≤ eviction.evictedAt) ∧
    σ.pool.evictions = [] ∧
    σ.pool.recent.capacity = min (max (probeWindow σ.config) 1) usizeMax ∧
    (σ.sentAfter (fun _ => true) σ.windowStart).card ≤ probeWindow σ.config ∧
    σ.pool.recent.entries.len ≤ σ.pool.recent.capacity := by
  obtain ⟨⟨hb, hc, h⟩, hconfig⟩ := (covered_invariant options).reachable hσ
  have hinv := hσ.sound.recent
  have hlen := hinv.length_le.trans (min_le_left _ _)
  rw [hinv.mirror.length_eq] at hlen
  refine ⟨?_, h.evictions, h.capacity, h.card_add_le hb hconfig (Nat.zero_le _) (Nat.zero_le _), hlen⟩
  rw [h.evictions]
  nofun

theorem recent_probes_never_evicted_sample :
    ∃ σ, Reachable sampleOptions σ ∧ σ.sizes = (1, 1, 2) ∧ σ.pool.evictions = [] ∧
      (σ.sentAfter (fun _ => true) σ.windowStart).card ≤ probeWindow σ.config := by
  obtain ⟨σ, hσ, hsizes⟩ := sample_reachable
  obtain ⟨_, hevictions, _, hcard, _⟩ := recent_probes_never_evicted hσ
  exact ⟨σ, hσ, hsizes, hevictions, hcard⟩

end DhtCrawler.CrawlActor
