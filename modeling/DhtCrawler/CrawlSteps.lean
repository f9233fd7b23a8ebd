import DhtCrawler.BootstrapSelection
import DhtCrawler.CrawlModel
import DhtCrawler.PoolRecent
import DhtCrawler.SnapshotResult

/-! What the crawl actor can do between two reads of its clock, as a relation on its state, the query tokens its
batch still holds and the destination token of the attempt under way. -/

namespace DhtCrawler.CrawlActor

open FiniteMap ResponsiveReservoir

open ResponsiveReservoir (Kept Failed Answered)
open NodePool (Aged Probed Dequeued Drained)

variable {σ σ' : CrawlActor} {now : Instant} {reserved : Set ℕ} {k : ℕ} {b : Bool}

variable {req : PendingRequest} {r r' : ResponsiveReservoir} {node : NodeTuple}
  {pendingExpiry : List (Instant × PendingKey)}

structure Phase where
  held : ℕ
  token : Bool
  actor : CrawlActor

def Ended (req : PendingRequest) (now : Instant) (r r' : ResponsiveReservoir) : Prop :=
  Failed req.node.addr req.dispatchedAt now r r' ∨ Answered req.node.addr r r'

lemma Ended.length (h : Ended req now r r') :
    r'.slots.length = r.slots.length := by
  rcases h with h | h
  · exact h.length
  · exact h.length

lemma Ended.members (h : Ended req now r r')
    {a : SocketAddr} {i : ℕ} (hi : r'.index.get a = some i) (ha : a ≠ req.node.addr) :
    r.index.get a = some i := by
  rcases h with h | h
  · exact h.members a i hi
  · exact h.members a i hi ha

def Sent (purpose : ProbePurpose) (addr : SocketAddr) (pool pool' : NodePool) : Prop :=
  purpose = .new ∧ Dequeued addr pool pool' ∨
    purpose ≠ .new ∧ pool'.queue = pool.queue ∧ pool'.queued = pool.queued

def Restored (addr : SocketAddr) (pool pool' : NodePool) : Prop :=
  addr ∈ pool.waiting ∧ pool'.waiting = pool.waiting ∧ (pool.Distinct → pool'.Distinct)

structure Withdrawn (addr : SocketAddr) (pool pool' : NodePool) : Prop where
  inv : RecentProbes.Inv pool'.recent
  capacity : pool'.recent.capacity = pool.recent.capacity
  deadline : ∀ a, pool'.recent.deadline a = if a = addr then none else pool.recent.deadline a
  ttl : pool'.recentTtl = pool.recentTtl
  evictions : pool'.evictions = pool.evictions

inductive Stage where
  | expire
  | receive
  | schedule

inductive Act : Stage → Phase → Phase → Prop where
  | reservoir {stage : Stage} {k : ℕ} {b : Bool} {σ : CrawlActor} (responsive : ResponsiveReservoir)
      (hresponsive : Kept σ.responsive responsive) : Act stage ⟨k, b, σ⟩ ⟨k, b, { σ with responsive }⟩
  | sources {stage : Stage} {k : ℕ} {b : Bool} {σ : CrawlActor} (bootstrapGate : BootstrapGate)
      (bootstrapPool : BootstrapSourcePool) (bootstrapQueue : List SocketAddr) (resolving : ℕ)
      (snapshot : List NodeTuple) :
      Act stage ⟨k, b, σ⟩
        ⟨k, b, { σ with bootstrapGate, bootstrapPool, bootstrapQueue, resolving, snapshot }⟩
  | queue {stage : Stage} {k : ℕ} {b : Bool} {σ : CrawlActor} (pool : NodePool)
      (hpool : Aged σ.clock σ.pool pool) (hdrained : Drained σ.pool pool) :
      Act stage ⟨k, b, σ⟩ ⟨k, b, { σ with pool }⟩
  | admission {k : ℕ} {b : Bool} {σ : CrawlActor} (node : NodeTuple) (pool : NodePool)
      (outcome : AdmissionOutcome) (hadmission : σ.pool.admitNode node σ.clock = .ok (pool, outcome))
      (hpool : Aged σ.clock σ.pool pool) : Act .receive ⟨k, b, σ⟩ ⟨k, b, { σ with pool }⟩
  | charge {k : ℕ} {σ : CrawlActor} (destinationBudget : RateBucket) (taken : Bool)
      (htake : σ.destinationBudget.tryTakeOne σ.clock = (destinationBudget, taken)) :
      Act .schedule ⟨k, false, σ⟩ ⟨k, taken, σ.withDestination destinationBudget⟩
  | refund {k : ℕ} {σ : CrawlActor} :
      Act .schedule ⟨k, true, σ⟩ ⟨k, false, σ.withDestination σ.destinationBudget.refundOne⟩
  /-- A request that was not charged for goes to an endpoint of the reservoir, or bootstrap is in use. -/
  | send {k : ℕ} {σ : CrawlActor} (node : NodeTuple) (purpose : ProbePurpose) (charged : Bool)
      (target : Option (Fin 256)) (pool : NodePool) (responsive : ResponsiveReservoir)
      (hroom : σ.pending.len < σ.config.maxInFlight)
      (hsubnet : σ.subnetCount (.fromAddr node.addr) < σ.config.maxInFlightPerSubnet)
      (hpaid : charged = false → σ.pool.recent.contains node.addr σ.clock = true)
      (hknown : charged = false →
        σ.config.bootstrapEnabled = true ∨ ∃ slot, σ.responsive.index.get node.addr = some slot)
      (hunblocked : ∀ x blocked, σ.responsive.health node.addr = some x → x.blockedUntil = some blocked →
        blocked ≤ σ.clock)
      (hpool : Probed σ.clock node.addr σ.pool pool)
      (hresponsive : Kept σ.responsive responsive) (hqueue : Sent purpose node.addr σ.pool pool)
      (hdrained : Drained σ.pool pool) :
      Act .schedule ⟨k + 1, charged, σ⟩
        ⟨k, false, { σ.launched node purpose σ.clock (!σ.pool.recent.contains node.addr σ.clock) charged
          target with pool, responsive }⟩
  /-- A node that was charged for and recorded but not sent. -/
  | refuse {k : ℕ} {σ : CrawlActor} (addr : SocketAddr) (mid pool : NodePool)
      (hmid : Probed σ.clock addr σ.pool mid) (hpool : Withdrawn addr mid pool)
      (hqueue : Restored addr σ.pool pool) (hdrained : Drained σ.pool pool) :
      Act .schedule ⟨k + 1, true, σ⟩ ⟨k + 1, true, { σ with pool }⟩
  | finish {k : ℕ} {b : Bool} {σ : CrawlActor} (key : PendingKey) (req : PendingRequest)
      (responsive : ResponsiveReservoir) (hreq : σ.pending.get key = some req)
      (hresponsive : Ended req σ.clock σ.responsive responsive) :
      Act .receive ⟨k, b, σ⟩ ⟨k, b, { σ.finish key req with responsive }⟩
  /-- A record of a request that has ended before. -/
  | dropRecord {k : ℕ} {b : Bool} {σ : CrawlActor} (deadline : Instant) (key : PendingKey)
      (pendingExpiry : List (Instant × PendingKey))
      (hfirst : σ.pendingExpiry = (deadline, key) :: pendingExpiry)
      (hended : (σ.pending.get key).filter (fun req => req.deadline = deadline) = none) :
      Act .expire ⟨k, b, σ⟩ ⟨k, b, { σ with pendingExpiry }⟩
  | timeout {k : ℕ} {b : Bool} {σ : CrawlActor} (key : PendingKey) (req : PendingRequest)
      (pendingExpiry : List (Instant × PendingKey)) (responsive : ResponsiveReservoir)
      (hfirst : σ.pendingExpiry = (req.deadline, key) :: pendingExpiry)
      (hreq : σ.pending.get key = some req)
      (hresponsive : Failed req.node.addr req.dispatchedAt σ.clock σ.responsive responsive) :
      Act .expire ⟨k, b, σ⟩ ⟨k, b, { { σ with pendingExpiry }.finish key req with responsive }⟩

abbrev Acts (stage : Stage) : Phase → Phase → Prop := Relation.ReflTransGen (Act stage)

lemma finish_eq (σ : CrawlActor) (key : PendingKey) (req : PendingRequest) :
    σ.finish key req = { σ with
        pending := σ.pending.erase key
        released := key :: σ.released
        subnetInFlight := (σ.finish key req).subnetInFlight } := by
  unfold finish releasePending
  cases σ.subnetInFlight.get req.subnet with
  | none => rfl
  | some count =>
    dsimp only
    split_ifs
    · rfl
    · rfl

/-! ### What a handler keeps -/

structure Sound (reserved : Set ℕ) (σ : CrawlActor) : Prop where
  reservoir : Inv reserved σ.responsive
  recent : RecentProbes.Inv σ.pool.recent
  deadline_le : ∀ a d, σ.pool.recent.deadline a = some d → d ≤ σ.clock + σ.pool.recentTtl
  bootstrap : σ.config.bootstrapEnabled = false → σ.resolving = 0 ∧ σ.bootstrapQueue = []

structure Ran (stage : Stage) (start : Phase) (now : Instant) (reserved : Set ℕ) (p : Phase) : Prop where
  sound : Sound reserved p.actor
  clock : p.actor.clock = now
  acts : Acts stage start p

namespace Ran

variable {start : Phase} {stage : Stage}

lemma of_sound (stage : Stage) (h : Sound ∅ σ) (k : ℕ) (b : Bool) : Ran stage ⟨k, b, σ⟩ σ.clock ∅ ⟨k, b, σ⟩ :=
  ⟨h, rfl, .refl⟩

variable {responsive : ResponsiveReservoir} {pool : NodePool} {key : PendingKey}

lemma reservoir {reserved' : Set ℕ} (h : Ran stage start now reserved ⟨k, b, σ⟩)
    (hinv : Inv reserved' responsive) (hresponsive : Kept σ.responsive responsive) :
    Ran stage start now reserved' ⟨k, b, { σ with responsive }⟩ :=
  ⟨⟨hinv, h.sound.recent, h.sound.deadline_le, h.sound.bootstrap⟩, h.clock,
    h.acts.tail (.reservoir responsive hresponsive)⟩

lemma sources (h : Ran stage start now reserved ⟨k, b, σ⟩) (bootstrapGate : BootstrapGate)
    (bootstrapPool : BootstrapSourcePool) {bootstrapQueue : List SocketAddr} {resolving : ℕ}
    (snapshot : List NodeTuple)
    (hboot : σ.config.bootstrapEnabled = false → resolving = 0 ∧ bootstrapQueue = []) :
    Ran stage start now reserved
      ⟨k, b, { σ with bootstrapGate, bootstrapPool, bootstrapQueue, resolving, snapshot }⟩ :=
  ⟨⟨h.sound.reservoir, h.sound.recent, h.sound.deadline_le, hboot⟩, h.clock,
    h.acts.tail (.sources bootstrapGate bootstrapPool bootstrapQueue resolving snapshot)⟩

lemma queue (h : Ran stage start now reserved ⟨k, b, σ⟩) (hpool : Aged now σ.pool pool)
    (hdrained : Drained σ.pool pool) : Ran stage start now reserved ⟨k, b, { σ with pool }⟩ := by
  have hclock : σ.clock = now := h.clock
  subst hclock
  refine ⟨⟨h.sound.reservoir, hpool.recent.inv, fun a d hd => ?_, h.sound.bootstrap⟩, rfl,
    h.acts.tail (.queue pool hpool hdrained)⟩
  show d ≤ σ.clock + pool.recentTtl
  rw [hpool.ttl]
  exact h.sound.deadline_le a d (hpool.recent.deadline_of_some hd)

lemma admission (h : Ran .receive start now reserved ⟨k, b, σ⟩)
    {outcome : AdmissionOutcome} (hadmission : σ.pool.admitNode node now = .ok (pool, outcome))
    (hpool : Aged now σ.pool pool) : Ran .receive start now reserved ⟨k, b, { σ with pool }⟩ := by
  have hclock : σ.clock = now := h.clock
  subst hclock
  refine ⟨⟨h.sound.reservoir, hpool.recent.inv, fun a d hd => ?_, h.sound.bootstrap⟩, rfl,
    h.acts.tail (.admission node pool outcome hadmission hpool)⟩
  show d ≤ σ.clock + pool.recentTtl
  rw [hpool.ttl]
  exact h.sound.deadline_le a d (hpool.recent.deadline_of_some hd)

lemma charge (h : Ran .schedule start now reserved ⟨k, false, σ⟩) {destinationBudget : RateBucket}
    {taken : Bool} (htake : σ.destinationBudget.tryTakeOne now = (destinationBudget, taken)) :
    Ran .schedule start now reserved ⟨k, taken, σ.withDestination destinationBudget⟩ := by
  have hclock : σ.clock = now := h.clock
  subst hclock
  exact ⟨⟨h.sound.reservoir, h.sound.recent, h.sound.deadline_le, h.sound.bootstrap⟩, rfl,
    h.acts.tail (.charge destinationBudget taken htake)⟩

lemma refund (h : Ran .schedule start now reserved ⟨k, b, σ⟩) :
    Ran .schedule start now reserved ⟨k, false, σ.refundDestination b⟩ := by
  cases b with
  | false => exact h
  | true =>
    exact ⟨⟨h.sound.reservoir, h.sound.recent, h.sound.deadline_le, h.sound.bootstrap⟩, h.clock,
      h.acts.tail .refund⟩

lemma send (h : Ran .schedule start now reserved ⟨k + 1, b, σ⟩) {purpose : ProbePurpose}
    (target : Option (Fin 256)) (hroom : σ.pending.len < σ.config.maxInFlight)
    (hsubnet : σ.subnetCount (.fromAddr node.addr) < σ.config.maxInFlightPerSubnet)
    (hpaid : b = false → σ.pool.recent.contains node.addr now = true)
    (hknown : b = false → σ.config.bootstrapEnabled = true ∨ ∃ slot, σ.responsive.index.get node.addr = some slot)
    (hunblocked : ∀ x blocked, σ.responsive.health node.addr = some x → x.blockedUntil = some blocked → blocked ≤ now)
    (hpool : Probed now node.addr σ.pool pool) (hinv : Inv ∅ responsive)
    (hresponsive : Kept σ.responsive responsive) (hqueue : Sent purpose node.addr σ.pool pool)
    (hdrained : Drained σ.pool pool) :
    Ran .schedule start now ∅ ⟨k, false,
      { σ.launched node purpose now (!σ.pool.recent.contains node.addr now) b target with
        pool, responsive }⟩ := by
  have hclock : σ.clock = now := h.clock
  subst hclock
  refine ⟨⟨hinv, hpool.inv, fun a d hd => ?_, h.sound.bootstrap⟩, rfl,
    h.acts.tail (.send node purpose b target pool responsive hroom hsubnet hpaid hknown hunblocked hpool
      hresponsive hqueue hdrained)⟩
  show d ≤ σ.clock + pool.recentTtl
  rw [hpool.ttl]
  exact hpool.deadline_le h.sound.deadline_le hd

lemma refuse (h : Ran .schedule start now reserved ⟨k + 1, true, σ⟩) {addr : SocketAddr} {mid : NodePool}
    (hmid : Probed now addr σ.pool mid) (hpool : Withdrawn addr mid pool) (hqueue : Restored addr σ.pool pool)
    (hdrained : Drained σ.pool pool) : Ran .schedule start now reserved ⟨k + 1, true, { σ with pool }⟩ := by
  have hclock : σ.clock = now := h.clock
  subst hclock
  refine ⟨⟨h.sound.reservoir, hpool.inv, fun a d hd => ?_, h.sound.bootstrap⟩, rfl,
    h.acts.tail (.refuse addr mid pool hmid hpool hqueue hdrained)⟩
  rw [hpool.deadline] at hd
  split_ifs at hd
  show d ≤ σ.clock + pool.recentTtl
  rw [hpool.ttl, hmid.ttl]
  exact hmid.deadline_le h.sound.deadline_le hd

lemma finish (h : Ran .receive start now reserved ⟨k, b, σ⟩)
    (hreq : σ.pending.get key = some req) (hinv : Inv ∅ responsive)
    (hresponsive : Ended req now σ.responsive responsive) :
    Ran .receive start now ∅ ⟨k, b, { σ.finish key req with responsive }⟩ := by
  have hclock : σ.clock = now := h.clock
  subst hclock
  refine ⟨?_, ?_, h.acts.tail (.finish key req responsive hreq hresponsive)⟩
  · rw [finish_eq]
    exact ⟨hinv, h.sound.recent, h.sound.deadline_le, h.sound.bootstrap⟩
  · rw [finish_eq]

lemma dropRecord (h : Ran .expire start now reserved ⟨k, b, σ⟩) {deadline : Instant}
    (hfirst : σ.pendingExpiry = (deadline, key) :: pendingExpiry)
    (hended : (σ.pending.get key).filter (fun req => req.deadline = deadline) = none) :
    Ran .expire start now reserved ⟨k, b, { σ with pendingExpiry }⟩ :=
  ⟨⟨h.sound.reservoir, h.sound.recent, h.sound.deadline_le, h.sound.bootstrap⟩, h.clock,
    h.acts.tail (.dropRecord deadline key pendingExpiry hfirst hended)⟩

lemma timeout (h : Ran .expire start now reserved ⟨k, b, σ⟩)
    (hfirst : σ.pendingExpiry = (req.deadline, key) :: pendingExpiry) (hreq : σ.pending.get key = some req)
    (hinv : Inv ∅ responsive)
    (hresponsive : Failed req.node.addr req.dispatchedAt now σ.responsive responsive) :
    Ran .expire start now ∅ ⟨k, b, { { σ with pendingExpiry }.finish key req with responsive }⟩ := by
  have hclock : σ.clock = now := h.clock
  subst hclock
  refine ⟨?_, ?_, h.acts.tail (.timeout key req pendingExpiry responsive hfirst hreq hresponsive)⟩
  · rw [finish_eq]
    exact ⟨hinv, h.sound.recent, h.sound.deadline_le, h.sound.bootstrap⟩
  · rw [finish_eq]

end Ran

end DhtCrawler.CrawlActor
