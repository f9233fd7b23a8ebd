import DhtCrawler.PoolModel
import DhtCrawler.ProbesRefinement

/-! What the operations of the node pool do to its set of recent probes. -/

namespace DhtCrawler.NodePool

open FiniteMap List Except RecentProbes

variable {pool pool' : NodePool} {addr : SocketAddr} {now : Instant}

open RecentProbes (Inv Expired Recorded due)

variable {pool'' : NodePool}

/-! ### The queue -/

def waiting (pool : NodePool) : List SocketAddr := pool.queue.map fun entry => entry.node.addr

def Distinct (pool : NodePool) : Prop :=
  pool.waiting.Nodup ∧ ∀ a, a ∈ pool.queued ↔ a ∈ pool.waiting

def Requeued (now : Instant) (pool pool' : NodePool) : Prop :=
  pool.Distinct → pool'.Distinct ∧ ∀ a ∈ pool'.waiting, a ∈ pool.waiting ∨ pool.recent.contains a now = false

def Dequeued (addr : SocketAddr) (pool pool' : NodePool) : Prop :=
  pool.Distinct → pool'.Distinct ∧ addr ∈ pool.waiting ∧ addr ∉ pool'.waiting ∧
    ∀ a ∈ pool'.waiting, a ∈ pool.waiting

def rules (pool : NodePool) : ℕ × Bool × RateBucket := (pool.capacity, pool.warmed, pool.replacementBudget)

structure Drained (pool pool' : NodePool) : Prop where
  waiting : pool'.waiting.Subperm pool.waiting
  rules : pool'.rules = pool.rules

lemma Drained.refl (pool : NodePool) : Drained pool pool := ⟨Subperm.refl _, rfl⟩

lemma drained_of_queue (hqueue : pool'.queue = pool.queue) (hrules : pool'.rules = pool.rules) :
    Drained pool pool' := by
  refine ⟨?_, hrules⟩
  unfold NodePool.waiting
  rw [hqueue]

lemma requeued_of_queue (now : Instant) (hqueue : pool'.queue = pool.queue)
    (hqueued : pool'.queued = pool.queued) : Requeued now pool pool' := by
  unfold Requeued Distinct waiting
  rw [hqueue, hqueued]
  exact fun h => ⟨h, fun a ha => .inl ha⟩

lemma popFrontInternal_dequeued {entry : QueuedNode} {rest : List QueuedNode}
    (hqueue : pool.queue = entry :: rest) : Dequeued entry.node.addr pool pool.popFrontInternal.1 := by
  intro hdistinct
  have hpop : pool.popFrontInternal.1 =
      { pool with queue := rest, queued := pool.queued.erase entry.node.addr } := by
    unfold popFrontInternal
    rw [hqueue]
  have hwaiting : pool.waiting = entry.node.addr :: pool.popFrontInternal.1.waiting := by
    rw [hpop]
    unfold waiting
    rw [hqueue]
    rfl
  obtain ⟨hnodup, hqueued⟩ := hdistinct
  rw [hwaiting] at hnodup
  obtain ⟨hnotMem, hnodup⟩ := nodup_cons.mp hnodup
  refine ⟨⟨hnodup, fun a => ?_⟩, hwaiting ▸ mem_cons_self, hnotMem, fun a ha => hwaiting ▸ mem_cons_of_mem _ ha⟩
  have hset : a ∈ pool.popFrontInternal.1.queued ↔ a ≠ entry.node.addr ∧ a ∈ pool.queued := by
    rw [hpop]
    exact Finset.mem_erase
  rw [hset, hqueued, hwaiting, mem_cons]
  constructor
  · rintro ⟨hne, hself | hmem⟩
    · exact absurd hself hne
    · exact hmem
  · intro hmem
    exact ⟨fun hself => hnotMem (hself ▸ hmem), .inr hmem⟩

/-! ### Expiry -/

structure Swept (now : Instant) (pool pool' : NodePool) : Prop where
  frame : pool' = { pool with recent := pool'.recent }
  recent : Expired now pool.recent pool'.recent

lemma Swept.trans (h : Swept now pool pool') (h' : Swept now pool' pool'') :
    Swept now pool pool'' := by
  refine ⟨?_, h.recent.trans h'.recent⟩
  rw [h'.frame, h.frame]

structure Aged (now : Instant) (pool pool' : NodePool) : Prop where
  recent : Expired now pool.recent pool'.recent
  ttl : pool'.recentTtl = pool.recentTtl
  evictions : pool'.evictions = pool.evictions
  queue : Requeued now pool pool'

lemma Swept.aged (h : Swept now pool pool') : Aged now pool pool' :=
  ⟨h.recent, (congrArg recentTtl h.frame :), (congrArg evictions h.frame :),
    requeued_of_queue now (congrArg NodePool.queue h.frame :) (congrArg queued h.frame :)⟩

lemma Swept.drained (h : Swept now pool pool') : Drained pool pool' := by
  rw [h.frame]
  exact ⟨Subperm.refl _, rfl⟩

lemma contains_of_expired {recent recent' : RecentProbes} (h : Expired now recent recent')
    (hrecent : recent.contains addr now = true) : recent'.contains addr now = true := by
  obtain ⟨d, hd, hlate⟩ := contains_iff_live.mp hrecent
  rcases h.deadline addr with hsame | ⟨_, d', hd', hle⟩
  · exact contains_iff_live.mpr ⟨d, hsame.trans hd, hlate⟩
  · cases hd.symm.trans hd'
    exact absurd hlate (not_lt.mpr hle)

lemma Aged.trans (h : Aged now pool pool') (h' : Aged now pool' pool'') :
    Aged now pool pool'' := by
  refine ⟨h.recent.trans h'.recent, h'.ttl.trans h.ttl, h'.evictions.trans h.evictions, fun hdistinct => ?_⟩
  obtain ⟨hdistinct', horigin⟩ := h.queue hdistinct
  obtain ⟨hdistinct'', horigin'⟩ := h'.queue hdistinct'
  refine ⟨hdistinct'', fun a ha => ?_⟩
  rcases horigin' a ha with ha | hnew
  · exact horigin a ha
  · refine .inr (Bool.eq_false_iff.mpr fun hrecent => ?_)
    rw [contains_of_expired h.recent hrecent] at hnew
    cases hnew

lemma aged_refl (h : Inv pool.recent) (now : Instant) : Aged now pool pool :=
  ⟨h.expired_refl now, rfl, rfl, requeued_of_queue now rfl rfl⟩

lemma expireRecent_spec (h : Inv pool.recent) (now : Instant) :
    Sure (pool.expireRecent now) fun pool' =>
      pool' = { pool with recent := pool'.recent } ∧ Expired now pool.recent pool'.recent ∧
        (pool.recent.hasDue now = true → due now pool'.recent < due now pool.recent) := by
  unfold expireRecent
  by_cases hdue : pool.recent.hasDue now = true
  · rw [if_pos hdue]
    exact (h.expire now).bind fun x hx => ⟨rfl, hx⟩
  · rw [if_neg hdue]
    exact ⟨rfl, h.expired_refl now, fun h => absurd h hdue⟩

lemma expireRecent_swept (h : Inv pool.recent) (now : Instant) :
    Sure (pool.expireRecent now) (Swept now pool) :=
  (expireRecent_spec h now).mono fun _ ⟨hframe, hexp, _⟩ => ⟨hframe, hexp⟩

lemma due_le_length (now : Instant) (r : RecentProbes) : due now r ≤ r.expiry.length :=
  countP_le_length

def Pressed (addr : SocketAddr) (now : Instant) (pool : NodePool) : Prop :=
  pool.recent.entries.len ≥ pool.recent.capacity ∧ pool.recent.entries.contains addr = false ∧
    pool.recent.hasDue now = true

lemma prepareStep_round {mid : NodePool} (addr : SocketAddr) (h : Swept now pool mid) :
    Sure (prepareStep addr now mid)
      (Loop.Round (Swept now pool) (fun pool' => Swept now pool pool' ∧ ¬Pressed addr now pool')
        (fun pool => due now pool.recent) (due now mid.recent)) := by
  unfold prepareStep
  split_ifs with hloop
  · refine (expireRecent_spec h.recent.inv now).bind fun pool₁ ⟨hframe, hexp, hlt⟩ => ?_
    exact ⟨h.trans ⟨hframe, hexp⟩, hlt hloop.2.2⟩
  · exact ⟨h, hloop⟩

lemma prepareRecentSlot_spec (h : Inv pool.recent) (addr : SocketAddr) (now : Instant) :
    Sure (pool.prepareRecentSlot addr now) fun pool' =>
      Swept now pool pool' ∧ (pool'.recent.evictee addr ≠ none → pool'.recent.hasDue now = false) := by
  unfold prepareRecentSlot
  refine (expireRecent_swept h now).bind fun pool₁ h₁ => ?_
  refine (Loop.safe_exit _ (fun _ h₂ => prepareStep_round addr h₂) _ h₁
    (Nat.lt_succ_of_le (due_le_length now _))).mono fun pool₂ ⟨h₂, hloop⟩ => ?_
  refine ⟨h₂, fun hev => Bool.eq_false_iff.mpr fun hdue => hloop ?_⟩
  have hfull : pool₂.recent.entries.get addr = none ∧ pool₂.recent.entries.len = pool₂.recent.capacity := by
    by_contra hnot
    exact hev (evictee_eq_none hnot)
  exact ⟨hfull.2.ge, contains_eq_false.mpr hfull.1, hdue⟩

structure Probed (now : Instant) (addr : SocketAddr) (pool pool' : NodePool) : Prop where
  ttl : pool'.recentTtl = pool.recentTtl
  recent : ∃ mid, Expired now pool.recent mid ∧ (mid.evictee addr ≠ none → mid.hasDue now = false) ∧
    Recorded mid addr (now + pool.recentTtl) pool'.recent ∧
    pool'.evictions = evictionBy mid addr now ++ pool.evictions

lemma recordProbe_spec (h : Inv pool.recent) (addr : SocketAddr)
    (hdead : ∀ a d, pool.recent.deadline a = some d → d ≤ now + pool.recentTtl) :
    Safe (· = .capacityOverflow) (pool.recordProbe addr now) fun pool' =>
      Probed now addr pool pool' ∧ pool'.queue = pool.queue ∧ pool'.queued = pool.queued ∧
        pool'.rules = pool.rules := by
  unfold recordProbe
  refine ((prepareRecentSlot_spec h addr now).weaken nofun).bind fun pool₁ ⟨hswept, hev⟩ => ?_
  have h₁ := hswept.aged
  have hmono : ∀ d, pool₁.recent.deadline addr = some d → d ≤ now + pool₁.recentTtl := by
    intro d hd
    rw [h₁.ttl]
    exact hdead _ d (h₁.recent.deadline_of_some hd)
  refine ((h₁.recent.inv.record addr hmono).weaken fun e he => he.1).bind fun recent hrec => ?_
  rw [h₁.ttl] at hrec
  exact ⟨⟨h₁.ttl, pool₁.recent, h₁.recent, hev, hrec, by rw [h₁.evictions]⟩,
    (congrArg NodePool.queue hswept.frame :), (congrArg queued hswept.frame :),
    (congrArg rules hswept.frame :)⟩

lemma Probed.inv (h : Probed now addr pool pool') : Inv pool'.recent := by
  obtain ⟨mid, _, _, hrec, _⟩ := h.recent
  exact hrec.inv

lemma Probed.deadline_le (h : Probed now addr pool pool')
    (hdead : ∀ a d, pool.recent.deadline a = some d → d ≤ now + pool.recentTtl) {a : SocketAddr}
    {d : Instant} (hd : pool'.recent.deadline a = some d) : d ≤ now + pool.recentTtl := by
  obtain ⟨mid, hexp, _, hrec, _⟩ := h.recent
  rw [hrec.deadline] at hd
  split_ifs at hd
  · cases hd
    exact le_refl _
  · exact hdead a d (hexp.deadline_of_some hd)

lemma containsRecent_swept (h : Inv pool.recent) (addr : SocketAddr) (now : Instant) :
    Sure (pool.containsRecent addr now) fun x =>
      Swept now pool x.1 ∧ x.2 = x.1.recent.contains addr now :=
  (expireRecent_swept h now).bind fun _ h₁ => ⟨h₁, rfl⟩

lemma containsRecent_spec (h : Inv pool.recent) (addr : SocketAddr) (now : Instant) :
    Sure (pool.containsRecent addr now) fun x =>
      Aged now pool x.1 ∧ Drained pool x.1 ∧ x.2 = x.1.recent.contains addr now :=
  (containsRecent_swept h addr now).mono fun _ ⟨hswept, hwas⟩ => ⟨hswept.aged, hswept.drained, hwas⟩

lemma takeFrontForProbe_spec (h : Inv pool.recent) {node : NodeTuple} (hfront : pool.front = some node)
    (hdead : ∀ a d, pool.recent.deadline a = some d → d ≤ now + pool.recentTtl) :
    Safe (· = .capacityOverflow) (pool.takeFrontForProbe now) fun x =>
      x.2 = some node ∧ Probed now node.addr pool x.1 ∧ Dequeued node.addr pool x.1 ∧
        pool.waiting = node.addr :: x.1.waiting ∧ x.1.rules = pool.rules := by
  unfold takeFrontForProbe
  unfold front at hfront
  cases hq : pool.queue with
  | nil =>
    rw [hq] at hfront
    cases hfront
  | cons q queue =>
    rw [hq] at hfront
    cases hfront
    have hdequeued := popFrontInternal_dequeued hq
    have hpop : pool.popFrontInternal =
        ({ pool with queue, queued := pool.queued.erase q.node.addr }, some q) := by
      unfold popFrontInternal
      rw [hq]
    rw [hpop] at hdequeued ⊢
    have hrecord := @recordProbe_spec { pool with queue, queued := pool.queued.erase q.node.addr } now
      h q.node.addr hdead
    refine hrecord.bind fun pool₁ ⟨hprobed, hqueue, hqueued, hrules⟩ =>
      ⟨rfl, ⟨hprobed.ttl, hprobed.recent⟩, ?_, ?_, hrules⟩
    · unfold Dequeued Distinct waiting at hdequeued ⊢
      rw [hqueue, hqueued]
      exact hdequeued
    · unfold waiting
      rw [hqueue, hq]
      rfl

lemma restoreFront_spec (h : Inv pool.recent) (node : NodeTuple) (queuedAt : Instant) :
    Sure (pool.restoreFront node queuedAt) fun pool' =>
      Inv pool'.recent ∧ pool'.recent.capacity = pool.recent.capacity ∧
        (∀ a, pool'.recent.deadline a = if a = node.addr then none else pool.recent.deadline a) ∧
        pool'.recentTtl = pool.recentTtl ∧ pool'.evictions = pool.evictions ∧
        pool'.waiting = node.addr :: pool.waiting ∧ pool'.queued = insert node.addr pool.queued ∧
        pool'.rules = pool.rules :=
  (h.remove node.addr).bind fun _ ⟨hinv, hcap, hdead⟩ => ⟨hinv, hcap, hdead, rfl, rfl, rfl, rfl, rfl⟩

lemma enqueue_recent (pool : NodePool) (node : NodeTuple) (now : Instant) :
    (pool.enqueue node now).1.recent = pool.recent ∧ (pool.enqueue node now).1.recentTtl = pool.recentTtl ∧
      (pool.enqueue node now).1.evictions = pool.evictions := by
  have hpop : pool.popFrontInternal.1.recent = pool.recent ∧
      pool.popFrontInternal.1.recentTtl = pool.recentTtl ∧
      pool.popFrontInternal.1.evictions = pool.evictions := by
    unfold popFrontInternal
    cases pool.queue with
    | nil => exact ⟨rfl, rfl, rfl⟩
    | cons q queue => exact ⟨rfl, rfl, rfl⟩
  unfold enqueue replaceOldest
  split_ifs
  · exact hpop
  · exact ⟨rfl, rfl, rfl⟩

lemma popFrontInternal_requeued (pool : NodePool) (hdistinct : pool.Distinct) :
    pool.popFrontInternal.1.Distinct ∧ ∀ a ∈ pool.popFrontInternal.1.waiting, a ∈ pool.waiting := by
  cases hqueue : pool.queue with
  | nil =>
    have hpop : pool.popFrontInternal.1 = pool := by
      unfold popFrontInternal
      rw [hqueue]
    rw [hpop]
    exact ⟨hdistinct, fun a ha => ha⟩
  | cons entry rest =>
    obtain ⟨hdistinct', -, -, hsub⟩ := popFrontInternal_dequeued hqueue hdistinct
    exact ⟨hdistinct', hsub⟩

lemma enqueue_requeued (pool : NodePool) (node : NodeTuple) (now : Instant) (hdistinct : pool.Distinct)
    (hnew : node.addr ∉ pool.queued) :
    (pool.enqueue node now).1.Distinct ∧
      ∀ a ∈ (pool.enqueue node now).1.waiting, a ∈ pool.waiting ∨ a = node.addr := by
  have hreplaced : pool.replaceOldest.1.Distinct ∧ ∀ a ∈ pool.replaceOldest.1.waiting, a ∈ pool.waiting := by
    unfold replaceOldest
    split_ifs
    · exact popFrontInternal_requeued pool hdistinct
    · exact ⟨hdistinct, fun a ha => ha⟩
  obtain ⟨⟨hnodup, hqueued⟩, hsub⟩ := hreplaced
  have hwaiting : (pool.enqueue node now).1.waiting = pool.replaceOldest.1.waiting ++ [node.addr] := by
    have hqueue : (pool.enqueue node now).1.queue = pool.replaceOldest.1.queue ++ [⟨node, now⟩] := rfl
    unfold waiting
    rw [hqueue, map_append]
    rfl
  have hset : (pool.enqueue node now).1.queued = insert node.addr pool.replaceOldest.1.queued := rfl
  have hnotMem : node.addr ∉ pool.replaceOldest.1.waiting :=
    fun hmem => hnew ((hdistinct.2 _).mpr (hsub _ hmem))
  refine ⟨⟨?_, fun a => ?_⟩, fun a ha => ?_⟩
  · rw [hwaiting]
    exact hnodup.append (nodup_singleton _) (disjoint_singleton.mpr hnotMem)
  · rw [hset, hwaiting, Finset.mem_insert, hqueued, mem_append, mem_singleton, or_comm]
  · rw [hwaiting, mem_append, mem_singleton] at ha
    exact ha.imp (hsub a) id

lemma admitNode_spec (h : Inv pool.recent) (node : NodeTuple) (now : Instant) :
    Sure (pool.admitNode node now) fun x => Aged now pool x.1 := by
  have henqueue : ∀ pool₁ : NodePool, Aged now pool pool₁ → node.addr ∉ pool₁.queued →
      pool₁.recent.contains node.addr now = false → Aged now pool (pool₁.enqueue node now).1 := by
    intro pool₁ h₁ hqueued hold
    obtain ⟨hrecent, httl, hev⟩ := pool₁.enqueue_recent node now
    have haged : Aged now pool₁ (pool₁.enqueue node now).1 := by
      refine ⟨hrecent.symm ▸ h₁.recent.inv.expired_refl now, httl, hev, fun hdistinct => ?_⟩
      obtain ⟨hdistinct', horigin⟩ := enqueue_requeued pool₁ node now hdistinct hqueued
      refine ⟨hdistinct', fun a ha => ?_⟩
      rcases horigin a ha with ha | rfl
      · exact .inl ha
      · exact .inr hold
    exact h₁.trans haged
  unfold admitNode
  split_ifs
  · exact aged_refl h now
  · refine (expireRecent_swept h now).bind fun pool₁ hswept => ?_
    have h₁ := hswept.aged
    split_ifs with hduplicate
    · exact h₁
    · obtain ⟨hqueued, hold⟩ := not_or.mp hduplicate
      dsimp only
      split_ifs
      · exact henqueue _ ⟨h₁.recent, h₁.ttl, h₁.evictions, h₁.queue⟩ hqueued (Bool.eq_false_iff.mpr hold)
      · exact ⟨h₁.recent, h₁.ttl, h₁.evictions, h₁.queue⟩
    · obtain ⟨hqueued, hold⟩ := not_or.mp hduplicate
      exact henqueue _ h₁ hqueued (Bool.eq_false_iff.mpr hold)

end DhtCrawler.NodePool
