import DhtCrawler.CrawlSpacing

/-! The front of the pool in `schedule_one`. -/

namespace DhtCrawler.CrawlActor

open FiniteMap List Bool ResponsiveReservoir Except NodePool RecentProbes RateBucket

variable {σ σ' τ τ' : CrawlActor} {input : TickInput} {now : Instant} {node : NodeTuple} {n k : ℕ}
  {options : CrawlOptions} {start : Phase}

/-! ### The scan -/

def isHeld (σ : CrawlActor) (node : NodeTuple) (now : Instant) : Bool :=
  decide (σ.subnetCount (.fromAddr node.addr) ≥ σ.config.maxInFlightPerSubnet) ||
    ((σ.responsive.health node.addr).bind Health.blockedUntil).any
      fun deadline => deadline > now

lemma isHeld_iff : σ.isHeld node now = true ↔
    σ.subnetCount (.fromAddr node.addr) ≥ σ.config.maxInFlightPerSubnet ∨
      (((σ.responsive.health node.addr).bind Health.blockedUntil).any
        fun deadline => deadline > now) = true := by
  unfold isHeld
  rw [or_eq_true, decide_eq_true_iff]

/-- `Scans now n σ τ`: among `n` nodes from the front of `σ` the scan comes to the front of `τ`, which it does
not pass by. -/
inductive Scans (now : Instant) : ℕ → CrawlActor → CrawlActor → Prop where
  | here {n : ℕ} {σ : CrawlActor} {node : NodeTuple} (hfront : σ.pool.front = some node)
      (hheld : σ.isHeld node now = false) : Scans now (n + 1) σ σ
  | rotate {n : ℕ} {σ τ : CrawlActor} {node : NodeTuple} (hfront : σ.pool.front = some node)
      (hheld : σ.isHeld node now = true)
      (hrest : Scans now n { σ with pool := σ.pool.rotateFrontToBack } τ) : Scans now (n + 1) σ τ

/-- `Selects input now σ τ`: `schedule_one` comes from `σ` to the front of `τ`, after a bootstrap endpoint was
refused, if one was due. -/
inductive Selects (input : TickInput) (now : Instant) (σ : CrawlActor) : CrawlActor → Prop where
  | pool {τ : CrawlActor} (hbootstrap : σ.bootstrapFront = none)
      (hscan : Scans now (min σ.pool.queue.length maxPoolScanPerSchedule) σ τ) : Selects input now σ τ
  | recent {addr : SocketAddr} {pool : NodePool} {mid τ : CrawlActor}
      (hbootstrap : σ.bootstrapFront = some addr) (hrecent : σ.pool.containsRecent addr now = .ok (pool, true))
      (hrefused : { σ with pool }.tryDispatch input ⟨σ.localId, addr⟩ .bootstrap now false false =
        .ok (mid, false))
      (hscan : Scans now (min mid.pool.queue.length maxPoolScanPerSchedule) mid τ) : Selects input now σ τ
  | charged {addr : SocketAddr} {pool : NodePool} {destinationBudget : RateBucket} {mid τ : CrawlActor}
      (hbootstrap : σ.bootstrapFront = some addr)
      (hrecent : σ.pool.containsRecent addr now = .ok (pool, false))
      (htake : σ.destinationBudget.tryTakeOne now = (destinationBudget, true))
      (hrefused : ({ σ with pool }.withDestination destinationBudget).tryDispatch input ⟨σ.localId, addr⟩
        .bootstrap now true true = .ok (mid, false))
      (hscan : Scans now (min mid.pool.queue.length maxPoolScanPerSchedule) (mid.refundDestination true) τ) :
      Selects input now σ τ

lemma front_cons {pool : NodePool} {entry : QueuedNode} {rest : List QueuedNode}
    (hqueue : pool.queue = entry :: rest) : pool.front = some entry.node := by
  unfold NodePool.front
  rw [hqueue]
  rfl

lemma rotateFrontToBack_cons {pool : NodePool} {entry : QueuedNode} {rest : List QueuedNode}
    (hqueue : pool.queue = entry :: rest) :
    pool.rotateFrontToBack = { pool with queue := rest ++ [entry] } := by
  obtain ⟨capacity, recentTtl, queue⟩ := pool
  subst hqueue
  unfold rotateFrontToBack
  cases rest with
  | nil => rfl
  | cons next rest => rfl

lemma scanPool_held (h : Inv ∅ σ.responsive) (hfront : σ.pool.front = some node)
    (hheld : σ.isHeld node now = true) (input : TickInput) (n : ℕ) :
    scanPool input now (n + 1) σ = scanPool input now n { σ with pool := σ.pool.rotateFrontToBack } := by
  conv_lhs => unfold scanPool
  rw [hfront]
  dsimp only
  rw [h.isBackingOff node.addr now, ok_bind, if_pos (isHeld_iff.mp hheld)]

lemma scanPool_unheld (h : Inv ∅ σ.responsive) (hfront : σ.pool.front = some node)
    (hheld : σ.isHeld node now = false) {destinationBudget : RateBucket}
    (htake : σ.destinationBudget.tryTakeOne now = (destinationBudget, true)) (input : TickInput) (n : ℕ) :
    scanPool input now (n + 1) σ = (σ.withDestination destinationBudget).probeFront input now := by
  have hfree : ¬(σ.subnetCount (.fromAddr node.addr) ≥ σ.config.maxInFlightPerSubnet ∨
      (((σ.responsive.health node.addr).bind Health.blockedUntil).any
        fun deadline => deadline > now) = true) := by
    rw [← isHeld_iff, hheld]
    exact Bool.false_ne_true
  unfold scanPool
  rw [hfront]
  dsimp only
  rw [h.isBackingOff node.addr now, ok_bind, if_neg hfree, htake]

lemma Scans.scanPool_eq (hscan : Scans now n σ τ) (h : Inv ∅ σ.responsive)
    {destinationBudget : RateBucket} (htake : τ.destinationBudget.tryTakeOne now = (destinationBudget, true))
    (input : TickInput) :
    scanPool input now n σ = (τ.withDestination destinationBudget).probeFront input now := by
  induction hscan with
  | here hfront hheld => exact scanPool_unheld h hfront hheld htake input _
  | rotate hfront hheld _ ih =>
    rw [scanPool_held h hfront hheld]
    exact ih h htake

lemma Scans.ran (hscan : Scans now n σ τ) (h : Ran .schedule start now ∅ ⟨k, false, σ⟩) :
    Ran .schedule start now ∅ ⟨k, false, τ⟩ := by
  induction hscan with
  | here => exact h
  | rotate _ _ _ ih =>
    obtain ⟨haged, hdrained⟩ := rotateFrontToBack_aged h.sound.recent now
    exact ih (h.queue haged hdrained)

/-! ### The attempt -/

def Refused (input : TickInput) (now : Instant) (node : NodeTuple) (σ σ' : CrawlActor) : Prop :=
  ∃ destinationBudget pool mid pool', σ.destinationBudget.tryTakeOne now = (destinationBudget, true) ∧
    σ.pool.takeFrontForProbe now = .ok (pool, some node) ∧
    { σ.withDestination destinationBudget with pool }.tryDispatch input node .new now
      (!σ.pool.recent.contains node.addr now) true = .ok (mid, false) ∧
    mid.pool.restoreFront node now = .ok pool' ∧
    σ' = { mid with pool := pool' }.refundDestination true

lemma Refused.probeFront_eq (h : Refused input now node σ σ') :
    ∃ destinationBudget, σ.destinationBudget.tryTakeOne now = (destinationBudget, true) ∧
      (σ.withDestination destinationBudget).probeFront input now = σ'.scheduleRevisit input now := by
  obtain ⟨destinationBudget, pool, mid, pool', htake, htaken, hrefused, hrestore, rfl⟩ := h
  refine ⟨destinationBudget, htake, ?_⟩
  unfold probeFront
  rw [show (σ.withDestination destinationBudget).pool.takeFrontForProbe now = _ from htaken, ok_bind]
  show (tryDispatch { σ.withDestination destinationBudget with pool } input node .new now
    (!σ.pool.recent.contains node.addr now) true >>= _) = _
  rw [hrefused, ok_bind]
  dsimp only
  rw [if_neg Bool.false_ne_true, hrestore, ok_bind]

lemma tryDispatch_false (h : Inv ∅ σ.responsive) {purpose : ProbePurpose}
    {fresh charged : Bool} (hrun : σ.tryDispatch input node purpose now fresh charged = .ok (σ', false)) :
    σ' = σ := by
  rcases (tryDispatch_spec h (Set.empty_subset _) input purpose now fresh charged).of_ok hrun with hsame | hsent
  · exact (Prod.mk.inj hsame).1
  · obtain ⟨_, _, _, _, _, _, _, hsent⟩ := hsent
    cases hsent

lemma probeBootstrap_refused {addr : SocketAddr} {charged : Bool}
    (hrefused : σ.tryDispatch input ⟨σ.localId, addr⟩ .bootstrap now charged charged = .ok (σ', false)) :
    σ.probeBootstrap input addr now charged = (σ'.refundDestination charged).schedulePool input now := by
  unfold probeBootstrap
  rw [hrefused, ok_bind]
  rfl

lemma Selects.ran (h : Selects input now σ τ) (hran : Ran .schedule start now ∅ ⟨k, false, σ⟩) :
    Ran .schedule start now ∅ ⟨k, false, τ⟩ ∧ ∀ destinationBudget,
      τ.destinationBudget.tryTakeOne now = (destinationBudget, true) →
      σ.scheduleOne input now = (τ.withDestination destinationBudget).probeFront input now := by
  cases h with
  | pool hbootstrap hscan =>
    refine ⟨hscan.ran hran, fun destinationBudget htake => ?_⟩
    unfold scheduleOne
    rw [hbootstrap]
    exact hscan.scanPool_eq hran.sound.reservoir htake input
  | @recent addr pool mid τ hbootstrap hrecent hrefused hscan =>
    obtain ⟨haged, hdrained, _⟩ :=
      (containsRecent_spec hran.sound.recent addr now).of_ok hrecent
    have h₁ := hran.queue haged hdrained
    cases tryDispatch_false h₁.sound.reservoir hrefused
    refine ⟨hscan.ran h₁, fun destinationBudget htake => ?_⟩
    unfold scheduleOne
    rw [hbootstrap]
    dsimp only
    rw [hrecent, ok_bind]
    rw [if_pos rfl, probeBootstrap_refused hrefused]
    exact hscan.scanPool_eq h₁.sound.reservoir htake input
  | @charged addr pool budget mid τ hbootstrap hrecent htoken hrefused hscan =>
    obtain ⟨haged, hdrained, _⟩ :=
      (containsRecent_spec hran.sound.recent addr now).of_ok hrecent
    have h₁ := (hran.queue haged hdrained).charge htoken
    cases tryDispatch_false h₁.sound.reservoir hrefused
    refine ⟨hscan.ran h₁.refund, fun destinationBudget htake => ?_⟩
    unfold scheduleOne
    rw [hbootstrap]
    dsimp only
    rw [hrecent, ok_bind]
    rw [if_neg Bool.false_ne_true, htoken]
    refine (probeBootstrap_refused hrefused).trans ?_
    exact hscan.scanPool_eq h₁.refund.sound.reservoir htake input

/-! ### The states of a tick -/

def openBatch (σ : CrawlActor) (input : TickInput) (now : Instant) : Except Panic (CrawlActor × ℕ) := do
  let σ ← σ.expirePending now
  let σ := σ.maybeResolveBootstrap now
  let queryBudget := σ.queryBudget.setPerSecondRate (σ.tickRate input) now
  let (queryBudget, budget) := queryBudget.tryTake σ.config.burst now
  .ok ({ σ with queryBudget }, budget)

/-- `Scheduling options input now n σ`: within a tick the batch comes to `σ` with `n` query tokens. -/
inductive Scheduling (options : CrawlOptions) (input : TickInput) (now : Instant) :
    ℕ → CrawlActor → Prop where
  | tick {σ σ' : CrawlActor} {n : ℕ} (hσ : Reachable options σ) (hnow : σ.clock ≤ now)
      (hopen : { σ with clock := now }.openBatch input now = .ok (σ', n)) :
      Scheduling options input now n σ'
  | next {n : ℕ} {σ σ' : CrawlActor} (hσ : Scheduling options input now (n + 1) σ)
      (hroom : σ.pending.len < σ.config.maxInFlight) (hrun : σ.scheduleOne input now = .ok (σ', true)) :
      Scheduling options input now n σ'

lemma Scheduling.ran {I : Phase → Prop} (hI : Invariant options I) (h : Scheduling options input now n σ) :
    ∃ start, Ran .schedule start now ∅ ⟨n, false, σ⟩ ∧ start.actor.config = .fromOptions options ∧ I start := by
  induction h with
  | @tick σ σ' n hσ hnow hopen =>
    obtain ⟨hσI, hconfig⟩ := hI.reachable hσ
    obtain ⟨expired, hexpire, hbatch⟩ := bind_eq_ok.mp hopen
    cases hbatch
    obtain ⟨hexpired, _⟩ :=
      (expirePending_ran (.of_sound .expire (hσ.sound.clock hnow) 0 false)).of_ok hexpire
    have hran := maybeResolveBootstrap_ran hexpired
    generalize expired.maybeResolveBootstrap now = mid at hran ⊢
    have hconfig' : mid.config = .fromOptions options := (Acts.static hran.acts).config.trans hconfig
    have hmidI := hI.acts hran.acts hconfig (hI.clock σ now hconfig hσ.sound hnow hσI)
    have hclock : mid.clock = now := hran.clock
    subst hclock
    refine ⟨_, ⟨?_, rfl, .refl⟩, hconfig', hI.batch mid _ _ input hconfig' rfl hmidI⟩
    exact ⟨hran.sound.reservoir, hran.sound.recent, hran.sound.deadline_le, hran.sound.bootstrap⟩
  | next _ _ hrun ih =>
    obtain ⟨start, hran, hstart⟩ := ih
    exact ⟨start, (scheduleOne_ran hran _).of_ok hrun, hstart⟩

/-! ### What a refused attempt leaves -/

lemma takeFrontForProbe_queue {pool pool' : NodePool} (h : RecentProbes.Inv pool.recent)
    (hdead : ∀ a d, pool.recent.deadline a = some d → d ≤ now + pool.recentTtl)
    (hrun : pool.takeFrontForProbe now = .ok (pool', some node)) :
    ∃ entry rest, pool.queue = entry :: rest ∧ entry.node = node ∧ pool'.queue = rest ∧
      pool'.queued = pool.queued.erase node.addr := by
  unfold takeFrontForProbe at hrun
  cases hqueue : pool.queue with
  | nil =>
    have hpop : pool.popFrontInternal = (pool, none) := by
      unfold popFrontInternal
      rw [hqueue]
    rw [hpop] at hrun
    cases hrun
  | cons entry rest =>
    have hpop : pool.popFrontInternal =
        ({ pool with queue := rest, queued := pool.queued.erase entry.node.addr }, some entry) := by
      unfold popFrontInternal
      rw [hqueue]
    rw [hpop] at hrun
    obtain ⟨pool₁, hrecord, hdone⟩ := bind_eq_ok.mp hrun
    cases hdone
    obtain ⟨_, hqueue', hqueued, _⟩ := (@recordProbe_spec
      { pool with queue := rest, queued := pool.queued.erase entry.node.addr } now h _ hdead).of_ok hrecord
    exact ⟨entry, rest, rfl, rfl, hqueue', hqueued⟩

lemma Refused.deadline {p : Phase} (hcovered : Covered p.actor) (hb : Budgeted p)
    (hconfig : p.actor.config = .fromOptions options) (hheld : 0 < p.held) (htoken : p.token = true)
    {pool : NodePool} (pool' : NodePool) (hprobed : Probed p.actor.clock node.addr p.actor.pool pool)
    (hremoved : ∀ a, pool'.recent.deadline a = if a = node.addr then none else pool.recent.deadline a)
    (a : SocketAddr) (d : Instant) (hlate : p.actor.clock < d) :
    pool'.recent.deadline a = some d ↔ a ≠ node.addr ∧ p.actor.pool.recent.deadline a = some d := by
  have hpaid : p.token = false → p.actor.pool.recent.contains node.addr p.actor.clock = true := by
    rw [htoken]
    nofun
  obtain ⟨_, _, _, horigin⟩ := hcovered.probe hb hconfig hheld hpaid hprobed
  obtain ⟨_, hkept⟩ := hcovered.probed_deadline hb hconfig hheld hpaid hprobed
  rw [hremoved]
  split_ifs with ha
  · exact ⟨nofun, fun h => absurd ha h.1⟩
  · exact ⟨fun hd => ⟨ha, (horigin a d hd).resolve_left fun h => ha h.1⟩, fun h => hkept a d h.1 h.2 hlate⟩

/-- A refused attempt leaves the queue as it was and of the destination budget no more than the refill. -/
theorem refused_attempt_undone (hσ : Scheduling options input now (n + 1) σ) (hτ : Selects input now σ τ)
    (hrefused : Refused input now node τ τ') :
    σ.scheduleOne input now = τ'.scheduleRevisit input now ∧
    τ'.pool.queue.map QueuedNode.node = τ.pool.queue.map QueuedNode.node ∧
    τ'.pool.queued = τ.pool.queued ∧
    τ'.destinationBudget = τ.destinationBudget.refill now ∧
    ((∀ a d, now < d → (τ'.pool.recent.deadline a = some d ↔ τ.pool.recent.deadline a = some d)) ↔
      τ.pool.recent.contains node.addr now = false) := by
  have hI := spaced_invariant options
  obtain ⟨start, hran, hconfig, hstart⟩ := hσ.ran hI
  obtain ⟨hτran, hgoes⟩ := hτ.ran hran
  obtain ⟨destinationBudget, htake, hprobe⟩ := hrefused.probeFront_eq
  have hcharged := hτran.charge htake
  obtain ⟨⟨hbefore, _⟩, hspaced⟩ := hI.acts hτran.acts hconfig hstart
  obtain ⟨⟨hb, _, hcovered⟩, _⟩ := hI.acts hcharged.acts hconfig hstart
  have hstatic := (Acts.static hcharged.acts).config.trans hconfig
  have hclock : τ.clock = now := hτran.clock
  subst hclock
  obtain ⟨_, pool, mid, pool', htake', htaken, hdispatch, hrestore, rfl⟩ := hrefused
  cases htake.symm.trans htake'
  cases tryDispatch_false (σ := { τ.withDestination destinationBudget with pool }) hτran.sound.reservoir
    hdispatch
  obtain ⟨entry, rest, hqueue, hentry, hrest, hqueued⟩ :=
    takeFrontForProbe_queue hτran.sound.recent hτran.deadline_le htaken
  have hfront : τ.pool.front = some node := hentry ▸ front_cons hqueue
  obtain ⟨_, hprobed, _⟩ :=
    (takeFrontForProbe_spec hτran.sound.recent hfront hτran.deadline_le).of_ok htaken
  obtain ⟨recent, hremove, hdone⟩ := bind_eq_ok.mp hrestore
  cases hdone
  obtain ⟨_, _, hremoved⟩ := (hprobed.inv.remove node.addr).of_ok hremove
  have hdeadline := fun a d => Refused.deadline (p := ⟨n + 1, true, τ.withDestination destinationBudget⟩)
    hcovered hb hstatic (Nat.succ_pos n) rfl { pool with recent } hprobed hremoved a d
  have hwaits : node.addr ∈ τ.pool.queued := by
    refine (hspaced.distinct.2 _).mpr ?_
    unfold waiting
    rw [hqueue, ← hentry]
    exact List.mem_cons_self
  refine ⟨(hgoes _ htake).trans hprobe, ?_, ?_, ?_, ?_⟩
  · show (⟨node, τ.clock⟩ :: pool.queue).map QueuedNode.node = _
    rw [hrest, hqueue, ← hentry]
    rfl
  · show insert node.addr pool.queued = τ.pool.queued
    rw [hqueued, Finset.insert_erase hwaits]
  · have hcap := hbefore.destination.tokens_le
    rw [Bool.toNat_false, Nat.cast_zero, add_zero] at hcap
    exact refundOne_of_taken hcap htake
  · refine ⟨fun hsame => Bool.eq_false_iff.mpr fun hrecent => ?_, fun hold a d hlate => ?_⟩
    · obtain ⟨d, hd, hlate⟩ := contains_iff_live.mp hrecent
      exact ((hdeadline _ d hlate).mp ((hsame _ d hlate).mpr hd)).1 rfl
    · refine (hdeadline a d hlate).trans ⟨fun h => h.2, fun hd => ⟨?_, hd⟩⟩
      rintro rfl
      rw [contains_iff_live.mpr ⟨d, hd, hlate⟩] at hold
      cases hold

lemma exists_refused (input : TickInput) (h : Ran .schedule start now ∅ ⟨k, false, σ⟩)
    (hfront : σ.pool.front = some node) (htoken : (σ.destinationBudget.tryTakeOne now).2 = true)
    (hegress : input.egress σ.nextTid .new node.addr.isIpv4 = false) {x : NodePool × Option NodeTuple}
    (htaken : σ.pool.takeFrontForProbe now = .ok x) :
    ∃ σ', Refused input now node σ σ' ∧ σ'.pool.recent.deadline node.addr = none := by
  obtain ⟨pool, taken⟩ := x
  obtain ⟨hnode, hprobed, _⟩ :=
    (takeFrontForProbe_spec h.sound.recent hfront h.deadline_le).of_ok htaken
  have hnode : taken = some node := hnode
  subst hnode
  obtain ⟨pool', hrestore, _, _, hdeadline, _⟩ := (restoreFront_spec hprobed.inv node now).exists
  have hrefused : { σ.withDestination (σ.destinationBudget.tryTakeOne now).1 with pool }.tryDispatch input
      node .new now (!σ.pool.recent.contains node.addr now) true =
      .ok ({ σ.withDestination (σ.destinationBudget.tryTakeOne now).1 with pool }, false) := by
    unfold tryDispatch
    split_ifs
    · rfl
    · show (σ.responsive.isBackingOff node.addr now >>= _) = _
      rw [h.sound.reservoir.isBackingOff node.addr now, ok_bind, if_pos (.inr (.inr hegress))]
  refine ⟨_, ⟨_, pool, _, pool', Prod.ext rfl htoken, htaken, hrefused, hrestore, rfl⟩, ?_⟩
  exact (hdeadline node.addr).trans (if_pos rfl)

def sampleNode6 (octet : UInt8) : NodeTuple :=
  ⟨.replicate 20 octet, .v6 #v[38, 7, 248, 176, 0, 0, 0, 0, 0, 0, 0, 0, 0, 0, 0, octet] 6881 0 0⟩

def familyTick (isIpv4 : Bool) : TickInput := ⟨0, fun _ _ family => family == isIpv4, fun _ => (0, 0)⟩

def waitingAndRecent : List (Instant × Event) :=
  [(secs 1, .discovered (sampleNode 1)), (secs 2, .scheduleTick (familyTick true)),
    (secs 3, .response ⟨(sampleNode 1).addr, 1⟩ ⟨none, none, none, none, none, none, none⟩),
    (secs 70, .discovered (sampleNode6 2)), (secs 70, .discovered (sampleNode 1)),
    (secs 71, .scheduleTick (familyTick true)), (secs 71, .scheduleTick (familyTick false))]

/-- The state of a tick after the events, with the two tokens of its batch, passes the test. -/
def opensSample (events : List (Instant × Event)) (input : TickInput) (now : Instant) (test : CrawlActor → Bool) :
    Bool :=
  ((new (.fromOptions sampleOptions) .dualStack (.replicate 20 0) 10 0).runEvents events).isOkAnd fun σ =>
    decide (σ.clock ≤ now) && ({ σ with clock := now }.openBatch input now).isOkAnd fun x =>
      decide (x.2 = 2) && test x.1

lemma scheduling_of_opensSample {events : List (Instant × Event)} {test : CrawlActor → Bool}
    (hclock : List.IsChain (· ≤ ·) ((0 : Instant) :: events.map Prod.fst))
    (hfree : events.all (fun e => e.2.isFree) = true) (htest : opensSample events input now test = true) :
    ∃ σ, Scheduling sampleOptions input now 2 σ ∧ test σ = true := by
  obtain ⟨σ₀, hrun, htest⟩ := isOkAnd_eq_true.mp htest
  obtain ⟨hnow, htest⟩ := (and_eq_true _ _).mp htest
  obtain ⟨⟨σ, n⟩, hopen, htest⟩ := isOkAnd_eq_true.mp htest
  obtain ⟨hn, htest⟩ := (and_eq_true _ _).mp htest
  obtain rfl : n = 2 := of_decide_eq_true hn
  exact ⟨σ, .tick (Reachable.runEvents (.start _ _ _ _) hclock (possible_of_isFree hfree) hrun)
    (of_decide_eq_true hnow) hopen, htest⟩

def refusesNext (now : Instant) (d : Option Instant) (σ : CrawlActor) : Bool :=
  decide (σ.bootstrapFront = none ∧ σ.pool.queue.length = 1 ∧ σ.pool.front = some (sampleNode 1) ∧
    σ.isHeld (sampleNode 1) now = false ∧ (σ.destinationBudget.tryTakeOne now).2 = true ∧
    σ.pool.recent.deadline (sampleNode 1).addr = d) && (σ.pool.takeFrontForProbe now).isOkAnd fun _ => true

lemma sample_refused (events : List (Instant × Event)) (now : Instant) (d : Option Instant)
    (hclock : List.IsChain (· ≤ ·) ((0 : Instant) :: events.map Prod.fst))
    (hfree : events.all (fun e => e.2.isFree) = true)
    (htest : opensSample events (familyTick false) now (refusesNext now d) = true) :
    ∃ σ σ', Scheduling sampleOptions (familyTick false) now 2 σ ∧ Selects (familyTick false) now σ σ ∧
      Refused (familyTick false) now (sampleNode 1) σ σ' ∧
      σ.pool.recent.deadline (sampleNode 1).addr = d ∧ σ'.pool.recent.deadline (sampleNode 1).addr = none := by
  obtain ⟨σ, hσ, htest⟩ := scheduling_of_opensSample hclock hfree htest
  obtain ⟨hstate, htaken⟩ := (and_eq_true _ _).mp htest
  obtain ⟨hbootstrap, hlen, hfront, hheld, htoken, hd⟩ := of_decide_eq_true hstate
  obtain ⟨x, htaken, _⟩ := isOkAnd_eq_true.mp htaken
  have hselects : Selects (familyTick false) now σ σ := by
    refine .pool hbootstrap ?_
    rw [hlen]
    exact .here hfront hheld
  obtain ⟨_, hran, _⟩ := hσ.ran (spaced_invariant sampleOptions)
  obtain ⟨σ', hrefused, hgone⟩ := exists_refused (familyTick false) hran hfront htoken rfl htaken
  exact ⟨σ, σ', hσ, hselects, hrefused, hd, hgone⟩

theorem refused_attempt_undone_new :
    ∃ σ σ', Scheduling sampleOptions (familyTick false) (secs 2) 2 σ ∧
      Selects (familyTick false) (secs 2) σ σ ∧ Refused (familyTick false) (secs 2) (sampleNode 1) σ σ' ∧
      σ'.pool.queue.map QueuedNode.node = σ.pool.queue.map QueuedNode.node ∧
      σ'.pool.queued = σ.pool.queued ∧
      ∀ a d, secs 2 < d → (σ'.pool.recent.deadline a = some d ↔ σ.pool.recent.deadline a = some d) := by
  obtain ⟨σ, σ', hσ, hselects, hrefused, hd, _⟩ :=
    sample_refused [(secs 1, .discovered (sampleNode 1))] (secs 2) none (by decide) rfl (by decide +kernel)
  obtain ⟨_, hqueue, hqueued, _, hrecent⟩ := refused_attempt_undone hσ hselects hrefused
  refine ⟨σ, σ', hσ, hselects, hrefused, hqueue, hqueued, hrecent.mpr (Bool.eq_false_iff.mpr fun hlive => ?_)⟩
  obtain ⟨_, hsome, _⟩ := contains_iff_live.mp hlive
  cases hd.symm.trans hsome

/-- The node waits for its turn as a new one and was asked as a reserved one a second ago. -/
theorem refused_attempt_forgets :
    ∃ σ σ', Scheduling sampleOptions (familyTick false) (secs 72) 2 σ ∧
      Selects (familyTick false) (secs 72) σ σ ∧ Refused (familyTick false) (secs 72) (sampleNode 1) σ σ' ∧
      σ.pool.recent.deadline (sampleNode 1).addr = some (secs 131) ∧
      σ'.pool.recent.deadline (sampleNode 1).addr = none ∧
      ¬∀ a d, secs 72 < d → (σ'.pool.recent.deadline a = some d ↔ σ.pool.recent.deadline a = some d) := by
  obtain ⟨σ, σ', hσ, hselects, hrefused, hd, hgone⟩ :=
    sample_refused waitingAndRecent (secs 72) (some (secs 131)) (by decide) rfl (by decide +kernel)
  refine ⟨σ, σ', hσ, hselects, hrefused, hd, hgone, fun hsame => ?_⟩
  cases hgone.symm.trans ((hsame _ (secs 131) (by decide)).mpr hd)

/-! ### Progress -/

structure Orderly (now : Instant) (σ : CrawlActor) : Prop where
  reservoir : Inv ∅ σ.responsive
  recent : RecentProbes.Inv σ.pool.recent
  deadline_le : ∀ a d, σ.pool.recent.deadline a = some d → d ≤ now + σ.pool.recentTtl
  tokens_le : σ.destinationBudget.tokens ≤ σ.destinationBudget.capacity

lemma Scheduling.orderly (h : Scheduling options input now n σ) : Orderly now σ := by
  obtain ⟨start, hran, hconfig, hstart⟩ := h.ran (budgeted_invariant options)
  have hcap := ((budgeted_invariant options).acts hran.acts hconfig hstart).destination.tokens_le
  rw [toNat_false, Nat.cast_zero, add_zero] at hcap
  exact ⟨hran.sound.reservoir, hran.sound.recent, hran.deadline_le, hcap⟩

lemma Orderly.swept (h : Orderly now σ) {pool : NodePool} (hswept : Swept now σ.pool pool) :
    Orderly now { σ with pool } := by
  refine ⟨h.reservoir, hswept.recent.inv, fun a d hd => ?_, h.tokens_le⟩
  have httl : pool.recentTtl = σ.pool.recentTtl := (congrArg recentTtl hswept.frame :)
  show d ≤ now + pool.recentTtl
  rw [httl]
  exact h.deadline_le a d (hswept.recent.deadline_of_some hd)

lemma Orderly.withDestination (h : Orderly now σ) {b : RateBucket} (hb : b.tokens ≤ b.capacity) :
    Orderly now (σ.withDestination b) :=
  ⟨h.reservoir, h.recent, h.deadline_le, hb⟩

/-- With room for a request and a token for its destination. -/
structure Able (now : Instant) (σ : CrawlActor) : Prop extends Orderly now σ where
  room : σ.pending.len < σ.config.maxInFlight
  token : (σ.destinationBudget.tryTakeOne now).2 = true

lemma Able.take (h : Able now σ) :
    σ.destinationBudget.tryTakeOne now = ((σ.destinationBudget.tryTakeOne now).1, true) :=
  Prod.ext rfl h.token

section

variable (h : Able now σ) {destinationBudget : RateBucket}
  (htake : σ.destinationBudget.tryTakeOne now = (destinationBudget, true))
include h htake

lemma Able.charged : Orderly now (σ.withDestination destinationBudget) := by
  have hrefill := refill_le _ h.tokens_le now
  obtain ⟨_, rfl⟩ := tryTakeOne_taken htake
  refine h.toOrderly.withDestination ?_
  dsimp only
  linarith

/-- A token that is given back is there for the next attempt. -/
lemma Able.refunded : Able now (σ.withDestination destinationBudget.refundOne) := by
  have hrefund := refundOne_of_taken h.tokens_le htake
  refine ⟨h.toOrderly.withDestination ?_, h.room, ?_⟩
  · rw [hrefund]
    exact refill_le _ h.tokens_le now
  · show (destinationBudget.refundOne.tryTakeOne now).2 = true
    rw [hrefund, tryTakeOne_again htake]

end

/-- Nothing keeps back a request to `node`: its subnet is not saturated, it does not back off, and egress of its
family takes the request. -/
def Free (σ : CrawlActor) (input : TickInput) (purpose : ProbePurpose) (now : Instant) (node : NodeTuple) :
    Prop :=
  σ.isHeld node now = false ∧ input.egress σ.nextTid purpose node.addr.isIpv4 = true

/-- The first node the scan of the pool does not pass by. -/
def nextInPool (σ : CrawlActor) (now : Instant) : Option QueuedNode :=
  (σ.pool.queue.take maxPoolScanPerSchedule).find? fun entry => !σ.isHeld entry.node now

/-- The reserved node that is due next can be asked. -/
def Revisits (σ : CrawlActor) (input : TickInput) (now : Instant) : Prop :=
  ∃ responsive node, σ.responsive.nextRevisit now = .ok (responsive, some node) ∧ σ.Free input .revisit now node

/-- The result of an attempt that sends a request exactly under the condition `sends`. -/
structure Decided (log : List Dispatch) (sends : Prop) (x : CrawlActor × Bool) : Prop where
  sent : x.2 = true ↔ sends
  logged : x.2 = true → ∃ d, x.1.dispatches = d :: log
  silent : x.2 = false → x.1.dispatches = log

lemma Decided.congr {log : List Dispatch} {sends sends' : Prop} {x : CrawlActor × Bool}
    (h : Decided log sends x) (hsends : sends ↔ sends') : Decided log sends' x :=
  ⟨h.sent.trans hsends, h.logged, h.silent⟩

/-- After a request the node is put down as probed. -/
lemma Decided.recordProbe {log : List Dispatch} {sends : Prop} {pool : NodePool} (h : Decided log sends (σ, true))
    (hsame : σ.pool = pool) (hrecent : RecentProbes.Inv pool.recent)
    (hdead : ∀ a d, pool.recent.deadline a = some d → d ≤ now + pool.recentTtl) (addr : SocketAddr) :
    Safe (· = .capacityOverflow) (σ.recordProbe addr now) fun σ' => Decided log sends (σ', true) := by
  subst hsame
  unfold CrawlActor.recordProbe
  exact (recordProbe_spec hrecent addr hdead).bind fun pool _ => ⟨h.sent, h.logged, nofun⟩

lemma tryDispatch_decided {reserved : Set ℕ} (h : Inv reserved σ.responsive)
    (hroom : σ.pending.len < σ.config.maxInFlight) (input : TickInput) (node : NodeTuple)
    (purpose : ProbePurpose) (fresh charged : Bool) :
    Sure (σ.tryDispatch input node purpose now fresh charged) fun x =>
      Decided σ.dispatches (σ.Free input purpose now node) x ∧ (x.2 = false → x.1 = σ) ∧
        (x.2 = true → x.1.pool = σ.pool) := by
  unfold tryDispatch
  rw [if_neg (not_le.mpr hroom), h.isBackingOff node.addr now, ok_bind]
  split_ifs with hrefused
  · have hkept : ¬σ.Free input purpose now node := by
      rintro ⟨hheld, hegress⟩
      rcases hrefused with hback | hsubnet | hclosed
      · exact Bool.false_ne_true (hheld.symm.trans (isHeld_iff.mpr (.inr hback)))
      · exact Bool.false_ne_true (hheld.symm.trans (isHeld_iff.mpr (.inl hsubnet)))
      · exact Bool.false_ne_true (hclosed.symm.trans hegress)
    exact ⟨⟨iff_of_false Bool.false_ne_true hkept, nofun, fun _ => rfl⟩, fun _ => rfl, nofun⟩
  · obtain ⟨hback, hrest⟩ := not_or.mp hrefused
    obtain ⟨hsubnet, hegress⟩ := not_or.mp hrest
    have hfree : σ.Free input purpose now node :=
      ⟨Bool.eq_false_iff.mpr fun hheld => (isHeld_iff.mp hheld).elim hsubnet hback,
        Bool.eq_true_of_not_eq_false hegress⟩
    refine (chooseTarget_safe h _).bind fun target _ => ?_
    refine (h.recordProbe node.addr now).bind fun responsive _ => ?_
    exact ⟨⟨iff_of_true rfl hfree, fun _ => ⟨_, rfl⟩, nofun⟩, nofun, fun _ => rfl⟩

lemma refundDestination_dispatches (σ : CrawlActor) (charged : Bool) :
    (σ.refundDestination charged).dispatches = σ.dispatches := by
  unfold refundDestination
  split_ifs <;> rfl

lemma revisit_decided {reserved : Set ℕ} (h : Inv reserved σ.responsive)
    (hrecent : RecentProbes.Inv σ.pool.recent)
    (hdead : ∀ a d, σ.pool.recent.deadline a = some d → d ≤ now + σ.pool.recentTtl)
    (hroom : σ.pending.len < σ.config.maxInFlight) (input : TickInput) (node : NodeTuple) (charged : Bool) :
    Safe (· = .capacityOverflow) (σ.revisit input node now charged)
      (Decided σ.dispatches (σ.Free input .revisit now node)) := by
  unfold revisit
  refine ((tryDispatch_decided h hroom input node .revisit charged charged).weaken nofun).bind fun x hx => ?_
  obtain ⟨σ₁, sent⟩ := x
  obtain ⟨hdecided, hsame, hpool⟩ := hx
  cases sent with
  | false =>
    obtain rfl : σ₁ = σ := hsame rfl
    have hinv : Inv reserved (σ₁.refundDestination charged).responsive := by
      unfold refundDestination
      split_ifs <;> exact h
    unfold CrawlActor.deferRevisit
    refine Safe.bind (P := fun σ' => σ'.dispatches = σ₁.dispatches) ?_ fun σ' hσ' => ?_
    · refine ((hinv.deferRevisit node.addr _ now).weaken nofun).bind fun responsive _ => ?_
      exact refundDestination_dispatches σ₁ charged
    · exact ⟨hdecided.sent, nofun, fun _ => hσ'⟩
  | true =>
    exact (hdecided.recordProbe (hpool rfl) hrecent hdead node.addr).bind fun σ' hσ' => hσ'

/-- Reserving a node does not change whether it is held. -/
lemma isHeld_reserved {responsive : ResponsiveReservoir}
    (h : Reserved ∅ σ.responsive (responsive, some node)) :
    { σ with responsive }.isHeld node now = σ.isHeld node now := by
  obtain ⟨hkept, slot, hinv, hindex⟩ := h
  have hsame : responsive.health node.addr = σ.responsive.health node.addr := by
    refine (hkept.health node.addr).resolve_left ?_
    obtain ⟨e, he, haddr⟩ := hinv.entry_of_index hindex
    rw [← haddr, health_of_entry hinv he]
    exact Option.some_ne_none _
  unfold isHeld
  rw [hsame]
  rfl

lemma scheduleRevisit_decided (h : Able now σ) (input : TickInput) :
    Safe (· = .capacityOverflow) (σ.scheduleRevisit input now) (Decided σ.dispatches (σ.Revisits input now)) := by
  obtain ⟨⟨responsive, found⟩, hnext, hx⟩ := (h.reservoir.nextRevisit now).exists
  unfold scheduleRevisit
  rw [hnext, ok_bind]
  cases found with
  | none =>
    refine ⟨iff_of_false Bool.false_ne_true ?_, nofun, fun _ => rfl⟩
    rintro ⟨_, _, hsome, _⟩
    cases hnext.symm.trans hsome
  | some node => ?_
  have hfree : { σ with responsive }.Free input .revisit now node ↔ σ.Revisits input now := by
    unfold Free
    rw [isHeld_reserved hx]
    refine ⟨fun hfree => ⟨responsive, node, hnext, hfree⟩, ?_⟩
    rintro ⟨_, _, hsome, hfree⟩
    cases hnext.symm.trans hsome
    exact hfree
  obtain ⟨-, slot, hinv, -⟩ := hx
  refine ((containsRecent_swept h.recent node.addr now).weaken nofun).bind fun y ⟨hswept, _⟩ => ?_
  obtain ⟨pool, wasRecent⟩ := y
  have h₁ := h.toOrderly.swept hswept
  have hrevisit := fun (b : RateBucket) charged => revisit_decided
    (σ := { σ with pool, responsive, destinationBudget := b }) hinv h₁.recent h₁.deadline_le h.room input node
    charged
  cases wasRecent with
  | true => exact (hrevisit σ.destinationBudget false).mono fun x hx => hx.congr hfree
  | false =>
    dsimp only
    rw [if_neg Bool.false_ne_true, h.take]
    exact (hrevisit _ true).mono fun x hx => hx.congr hfree

lemma probeFront_decided (h : Able now σ) (hfront : σ.pool.front = some node)
    (hheld : σ.isHeld node now = false) {destinationBudget : RateBucket}
    (htake : σ.destinationBudget.tryTakeOne now = (destinationBudget, true)) (input : TickInput) :
    Safe (· = .capacityOverflow) ((σ.withDestination destinationBudget).probeFront input now)
      (Decided σ.dispatches (input.egress σ.nextTid .new node.addr.isIpv4 = true ∨ σ.Revisits input now)) := by
  unfold probeFront
  refine (takeFrontForProbe_spec h.recent hfront h.deadline_le).bind fun x ⟨htaken, hprobed, _⟩ => ?_
  obtain ⟨pool, taken⟩ := x
  dsimp only at htaken hprobed ⊢
  subst htaken
  refine ((tryDispatch_decided (σ := { σ.withDestination destinationBudget with pool }) h.reservoir h.room input
    node .new (!σ.pool.recent.contains node.addr now) true).weaken nofun).bind fun x hx => ?_
  obtain ⟨σ₁, sent⟩ := x
  obtain ⟨hdecided, hsame, -⟩ := hx
  cases sent with
  | true =>
    have hfree := hdecided.sent.mp rfl
    exact ⟨iff_of_true rfl (.inl hfree.2), hdecided.logged, nofun⟩
  | false =>
    obtain rfl : σ₁ = { σ.withDestination destinationBudget with pool } := hsame rfl
    have hclosed : ¬input.egress σ.nextTid .new node.addr.isIpv4 = true := fun hegress =>
      Bool.false_ne_true (hdecided.sent.mpr ⟨hheld, hegress⟩)
    refine ((restoreFront_spec hprobed.inv node now).weaken nofun).bind
      fun pool' ⟨hinv, _, hdeadline, httl, _⟩ => ?_
    have hagain := h.refunded htake
    have hable : Able now { σ.withDestination destinationBudget.refundOne with pool := pool' } := by
      refine ⟨⟨h.reservoir, hinv, fun a d hd => ?_, hagain.tokens_le⟩, h.room, hagain.token⟩
      rw [hdeadline] at hd
      split_ifs at hd
      show d ≤ now + pool'.recentTtl
      rw [httl, hprobed.ttl]
      exact hprobed.deadline_le h.deadline_le hd
    exact (scheduleRevisit_decided hable input).mono fun x hx => hx.congr (or_iff_right hclosed).symm

lemma scans_past {passed rest : List QueuedNode} {entry : QueuedNode}
    (hqueue : σ.pool.queue = passed ++ entry :: rest) (hn : passed.length < n)
    (hpassed : ∀ e ∈ passed, σ.isHeld e.node now = true) (hentry : σ.isHeld entry.node now = false) :
    ∃ queue, Scans now n σ { σ with pool := { σ.pool with queue } } ∧
      queue.head?.map QueuedNode.node = some entry.node := by
  induction passed generalizing σ rest n with
  | nil =>
    obtain ⟨m, rfl⟩ := Nat.exists_eq_succ_of_ne_zero hn.ne'
    exact ⟨σ.pool.queue, .here (front_cons hqueue) hentry, front_cons hqueue⟩
  | cons e passed ih =>
    obtain ⟨m, rfl⟩ := Nat.exists_eq_succ_of_ne_zero (Nat.ne_zero_of_lt hn)
    have hqueue₁ : (passed ++ entry :: rest) ++ [e] = passed ++ entry :: (rest ++ [e]) := append_assoc _ _ _
    obtain ⟨queue, hscan, hqueue'⟩ := ih
      (σ := { σ with pool := { σ.pool with queue := (passed ++ entry :: rest) ++ [e] } }) hqueue₁
      (Nat.lt_of_succ_lt_succ hn) (fun e' he' => hpassed e' (mem_cons_of_mem _ he')) hentry
    refine ⟨queue, .rotate (front_cons hqueue) (hpassed e mem_cons_self) ?_, hqueue'⟩
    rw [rotateFrontToBack_cons hqueue]
    exact hscan

/-- If the scan passes by all its nodes, a reserved one is tried. -/
lemma scanPool_passes (h : Inv ∅ σ.responsive) (input : TickInput)
    (hn : n ≤ σ.pool.queue.length) (hpassed : ∀ e ∈ σ.pool.queue.take n, σ.isHeld e.node now = true) :
    ∃ queue, scanPool input now n σ = { σ with pool := { σ.pool with queue } }.scheduleRevisit input now := by
  induction n generalizing σ with
  | zero => exact ⟨σ.pool.queue, rfl⟩
  | succ n ih =>
    cases hqueue : σ.pool.queue with
    | nil =>
      rw [hqueue] at hn
      exact absurd hn (Nat.not_succ_le_zero n)
    | cons e rest =>
      rw [hqueue, take_succ_cons] at hpassed
      rw [hqueue, length_cons] at hn
      have hlen : n ≤ rest.length := Nat.le_of_succ_le_succ hn
      rw [scanPool_held h (front_cons hqueue) (hpassed e mem_cons_self), rotateFrontToBack_cons hqueue]
      refine ih (σ := { σ with pool := { σ.pool with queue := rest ++ [e] } }) h ?_ fun e' he' => ?_
      · rw [length_append]
        exact Nat.le_add_right_of_le hlen
      · rw [take_append_of_le_length hlen] at he'
        exact hpassed e' (mem_cons_of_mem _ he')

lemma schedulePool_decided (h : Able now σ) (input : TickInput) :
    Safe (· = .capacityOverflow) (σ.schedulePool input now)
      (Decided σ.dispatches ((∃ entry ∈ σ.nextInPool now,
        input.egress σ.nextTid .new entry.node.addr.isIpv4 = true) ∨ σ.Revisits input now)) := by
  unfold schedulePool
  cases hnext : σ.nextInPool now with
  | none =>
    have hpassed : ∀ e ∈ σ.pool.queue.take (min σ.pool.queue.length maxPoolScanPerSchedule),
        σ.isHeld e.node now = true := by
      intro e he
      rw [min_comm, ← take_eq_take_min] at he
      simpa using find?_eq_none.mp hnext e he
    obtain ⟨queue, hscan⟩ := scanPool_passes h.reservoir input (min_le_left _ _) hpassed
    rw [hscan]
    have hable : Able now { σ with pool := { σ.pool with queue } } :=
      ⟨⟨h.reservoir, h.recent, h.deadline_le, h.tokens_le⟩, h.room, h.token⟩
    refine (scheduleRevisit_decided hable input).mono fun x hx => hx.congr (or_iff_right ?_).symm
    rintro ⟨_, hnone, -⟩
    cases hnone
  | some entry =>
    obtain ⟨hfree, passed, rest, hqueue, hpassed⟩ := find?_eq_some_iff_append.mp hnext
    have hheld : σ.isHeld entry.node now = false := by simpa using hfree
    have hwhole : σ.pool.queue = passed ++ entry :: (rest ++ σ.pool.queue.drop maxPoolScanPerSchedule) := by
      rw [← cons_append, ← append_assoc, ← hqueue, take_append_drop]
    have hn : passed.length < min σ.pool.queue.length maxPoolScanPerSchedule := by
      have hlen := congrArg List.length hqueue
      rw [length_take, length_append, length_cons] at hlen
      omega
    obtain ⟨queue, hscan, hfront⟩ := scans_past hwhole hn (fun e he => by simpa using hpassed e he) hheld
    have hable : Able now { σ with pool := { σ.pool with queue } } :=
      ⟨⟨h.reservoir, h.recent, h.deadline_le, h.tokens_le⟩, h.room, h.token⟩
    rw [hscan.scanPool_eq h.reservoir h.take input]
    refine (probeFront_decided hable hfront hheld h.take input).mono fun x hx => hx.congr ?_
    simp only [Option.mem_def, Option.some.injEq, exists_eq_left']
    rfl

lemma probeBootstrap_decided (h : Orderly now σ) (hroom : σ.pending.len < σ.config.maxInFlight)
    (addr : SocketAddr) (charged : Bool) {sends : Prop}
    (hpool : Safe (· = .capacityOverflow) ((σ.refundDestination charged).schedulePool input now)
      (Decided σ.dispatches sends)) :
    Safe (· = .capacityOverflow) (σ.probeBootstrap input addr now charged)
      (Decided σ.dispatches (σ.Free input .bootstrap now ⟨σ.localId, addr⟩ ∨ sends)) := by
  unfold probeBootstrap
  refine ((tryDispatch_decided h.reservoir hroom input ⟨σ.localId, addr⟩ .bootstrap charged charged).weaken
    nofun).bind fun x hx => ?_
  obtain ⟨σ₁, sent⟩ := x
  obtain ⟨hdecided, hsame, hkept⟩ := hx
  cases sent with
  | false =>
    obtain rfl : σ₁ = σ := hsame rfl
    have hclosed : ¬σ₁.Free input .bootstrap now ⟨σ₁.localId, addr⟩ := fun hfree =>
      Bool.false_ne_true (hdecided.sent.mpr hfree)
    exact hpool.mono fun x hx => hx.congr (or_iff_right hclosed).symm
  | true =>
    have hsent : Decided σ.dispatches (σ.Free input .bootstrap now ⟨σ.localId, addr⟩ ∨ sends)
        ({ σ₁ with bootstrapQueue := σ₁.bootstrapQueue.tail }, true) :=
      ⟨iff_of_true rfl (.inl (hdecided.sent.mp rfl)), hdecided.logged, nofun⟩
    exact (hsent.recordProbe (hkept rfl) h.recent h.deadline_le addr).bind
      fun _ hx => ⟨hx.sent, hx.logged, nofun⟩

/-- **When `schedule_one` sends.** With room for a request and a token for its destination, a request is sent
exactly if the bootstrap endpoint that is due can be asked, or egress takes the first node of the scan whose
subnet is not saturated and that does not back off, or the reserved node that is due can be asked. In
particular a dispatchable node behind that first one is not reached. -/
theorem scheduleOne_work_conserving (h : Orderly now σ) (hroom : σ.pending.len < σ.config.maxInFlight)
    (htoken : (σ.destinationBudget.tryTakeOne now).2 = true) (input : TickInput) :
    Safe (· = .capacityOverflow) (σ.scheduleOne input now) fun x =>
      (x.2 = true ↔
        (∃ addr ∈ σ.bootstrapFront, σ.Free input .bootstrap now ⟨σ.localId, addr⟩) ∨
        (∃ entry ∈ σ.nextInPool now, input.egress σ.nextTid .new entry.node.addr.isIpv4 = true) ∨
        σ.Revisits input now) ∧
      (x.2 = true → ∃ d, x.1.dispatches = d :: σ.dispatches) ∧ (x.2 = false → x.1.dispatches = σ.dispatches) := by
  have hable : Able now σ := ⟨h, hroom, htoken⟩
  unfold scheduleOne
  cases σ.bootstrapFront with
  | none =>
    refine (schedulePool_decided hable input).mono fun x hx => ⟨hx.sent.trans ?_, hx.logged, hx.silent⟩
    refine (or_iff_right ?_).symm
    rintro ⟨_, hnone, -⟩
    cases hnone
  | some addr => ?_
  simp only [Option.mem_def, Option.some.injEq, exists_eq_left']
  refine ((containsRecent_swept h.recent addr now).weaken nofun).bind fun x ⟨hswept, _⟩ => ?_
  obtain ⟨pool, isRecent⟩ := x
  have hqueue : pool.queue = σ.pool.queue := (congrArg NodePool.queue hswept.frame :)
  have h₁ : Able now { σ with pool } := ⟨h.swept hswept, hroom, htoken⟩
  have hsame : { σ with pool }.nextInPool now = σ.nextInPool now := by
    unfold nextInPool
    rw [hqueue]
    rfl
  cases isRecent with
  | true =>
    have hdecided := probeBootstrap_decided h₁.toOrderly hroom addr false (schedulePool_decided h₁ input)
    rw [hsame] at hdecided
    exact hdecided.mono fun x hx => ⟨hx.sent, hx.logged, hx.silent⟩
  | false =>
    dsimp only
    rw [if_neg Bool.false_ne_true, hable.take]
    -- a bootstrap endpoint that is refused gives its token back, and then it is there for the pool
    have hpool := schedulePool_decided (h₁.refunded hable.take) input
    have hdecided := probeBootstrap_decided (h₁.charged hable.take) hroom addr true hpool
    refine hdecided.mono fun x hx => ⟨hx.sent.trans ?_, hx.logged, hx.silent⟩
    rw [← hsame]
    rfl

def waitsForFamily (isIpv4 : Bool) (σ : CrawlActor) : Bool :=
  decide (σ.pending.len < σ.config.maxInFlight ∧ (σ.destinationBudget.tryTakeOne (secs 2)).2 = true ∧
    σ.pool.queue.map QueuedNode.node = [sampleNode6 2, sampleNode 1] ∧
    σ.isHeld (sampleNode6 2) (secs 2) = false ∧ σ.isHeld (sampleNode 1) (secs 2) = false) &&
  (σ.scheduleOne (familyTick isIpv4) (secs 2)).isOkAnd fun x =>
    decide (x.2 = !isIpv4 ∧ x.1.dispatches.length = if isIpv4 then 0 else 1)

lemma waits_for_family (isIpv4 : Bool) : ∃ σ σ',
    Scheduling sampleOptions (familyTick isIpv4) (secs 2) 2 σ ∧ σ.pending.len < σ.config.maxInFlight ∧
    (σ.destinationBudget.tryTakeOne (secs 2)).2 = true ∧
    σ.pool.queue.map QueuedNode.node = [sampleNode6 2, sampleNode 1] ∧
    σ.isHeld (sampleNode6 2) (secs 2) = false ∧ σ.isHeld (sampleNode 1) (secs 2) = false ∧
    σ.scheduleOne (familyTick isIpv4) (secs 2) = .ok (σ', !isIpv4) ∧
    σ'.dispatches.length = if isIpv4 then 0 else 1 := by
  have htest : opensSample [(secs 1, .discovered (sampleNode6 2)), (secs 1, .discovered (sampleNode 1))]
      (familyTick isIpv4) (secs 2) (waitsForFamily isIpv4) = true := by
    cases isIpv4 with
    | false => decide +kernel
    | true => decide +kernel
  obtain ⟨σ, hσ, htest⟩ := scheduling_of_opensSample (by decide) rfl htest
  obtain ⟨hstate, hone⟩ := (and_eq_true _ _).mp htest
  obtain ⟨⟨σ', sent⟩, hone, hresult⟩ := isOkAnd_eq_true.mp hone
  obtain ⟨hsent, hlog⟩ := of_decide_eq_true hresult
  obtain rfl : sent = !isIpv4 := hsent
  obtain ⟨hroom, htoken, hqueue, hheld, hheld'⟩ := of_decide_eq_true hstate
  exact ⟨σ, σ', hσ, hroom, htoken, hqueue, hheld, hheld', hone, hlog⟩

theorem scheduleOne_work_conserving_front : ∃ σ σ', Scheduling sampleOptions (familyTick false) (secs 2) 2 σ ∧
    σ.scheduleOne (familyTick false) (secs 2) = .ok (σ', true) ∧ ∃ d, σ'.dispatches = d :: σ.dispatches := by
  obtain ⟨σ, σ', hσ, hroom, htoken, hqueue, hheld, _, hone, _⟩ := waits_for_family false
  obtain ⟨entry, rest, hqueue, hentry, _⟩ := List.map_eq_cons_iff.mp hqueue
  have hnext : σ.nextInPool (secs 2) = some entry := by
    unfold nextInPool
    rw [hqueue, maxPoolScanPerSchedule, take_succ_cons]
    refine find?_cons_of_pos ?_
    rw [hentry, hheld]
    rfl
  have hegress : (familyTick false).egress σ.nextTid .new entry.node.addr.isIpv4 = true := by
    rw [hentry]
    rfl
  have hdecided := scheduleOne_work_conserving hσ.orderly hroom htoken (familyTick false)
  obtain ⟨hsent, hlogged, -⟩ := hdecided.of_ok hone
  exact ⟨σ, σ', hσ, hone, hlogged (hsent.mpr (.inr (.inl ⟨entry, hnext, hegress⟩)))⟩

/-- Two nodes wait, neither of which is held. -/
theorem other_family_blocks_pool : ∃ σ σ',
    Scheduling sampleOptions (familyTick true) (secs 2) 2 σ ∧ σ.pending.len < σ.config.maxInFlight ∧
    (σ.destinationBudget.tryTakeOne (secs 2)).2 = true ∧
    σ.pool.queue.map QueuedNode.node = [sampleNode6 2, sampleNode 1] ∧
    σ.isHeld (sampleNode 1) (secs 2) = false ∧
    (∀ tid purpose, (familyTick true).egress tid purpose (sampleNode 1).addr.isIpv4 = true) ∧
    σ.scheduleOne (familyTick true) (secs 2) = .ok (σ', false) ∧ σ'.dispatches = [] := by
  obtain ⟨σ, σ', hσ, hroom, htoken, hqueue, _, hheld, hone, hlog⟩ := waits_for_family true
  exact ⟨σ, σ', hσ, hroom, htoken, hqueue, hheld, fun _ _ => rfl, hone, List.length_eq_zero_iff.mp hlog⟩

end DhtCrawler.CrawlActor
