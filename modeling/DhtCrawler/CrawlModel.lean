import DhtCrawler.BootstrapModel
import DhtCrawler.KrpcModel
import DhtCrawler.PoolModel
import DhtCrawler.SnapshotModel

/-! The crawl actor of `crawl_engine.rs`. Its handlers run one after another; every one of them reads the clock
once. -/

namespace DhtCrawler

def scheduleInterval : Duration := millis 5

def maxPoolScanPerSchedule : ℕ := 256

structure PendingKey where
  addr : SocketAddr
  tid : TransactionId
  deriving DecidableEq, Repr

inductive ProbePurpose where
  | new
  | revisit
  | bootstrap
  deriving DecidableEq, Repr

structure PendingRequest where
  node : NodeTuple
  purpose : ProbePurpose
  dispatchedAt : Instant
  deadline : Instant
  subnet : SubnetKey
  deriving DecidableEq, Repr

/-- A request handed to egress: whether its address was outside of the recent probes when it was selected,
whether it was paid for from the destination budget, and the sparse id prefix its target was drawn from, if it
was. -/
structure Dispatch where
  key : PendingKey
  purpose : ProbePurpose
  dispatchedAt : Instant
  fresh : Bool
  charged : Bool
  sparseTarget : Option (Fin 256)

structure CrawlActor where
  config : ResolvedCrawlConfig
  netmode : NetMode
  localId : NodeId
  pool : NodePool
  responsive : ResponsiveReservoir
  pending : FiniteMap PendingKey PendingRequest
  pendingExpiry : List (Instant × PendingKey)
  subnetInFlight : FiniteMap SubnetKey ℕ
  queryBudget : RateBucket
  destinationBudget : RateBucket
  bootstrapGate : BootstrapGate
  bootstrapPool : BootstrapSourcePool
  bootstrapQueue : List SocketAddr
  snapshot : List NodeTuple
  maxMetadataQueueSize : ℕ
  nextTid : ℕ
  resolving : ℕ
  dispatches : List Dispatch
  released : List PendingKey
  clock : Instant

structure TickInput where
  metadataQueueLen : ℕ
  egress : TransactionId → ProbePurpose → Bool → Bool
  dice : TransactionId → ℕ × ℕ

namespace CrawlActor

def new (config : ResolvedCrawlConfig) (netmode : NetMode) (localId : NodeId)
    (maxMetadataQueueSize : ℕ) (now : Instant) : CrawlActor where
  config := config
  netmode := netmode
  localId := localId
  pool := .new config.poolCapacity config.maxReplacementsPerMinute config.recentProbeTtl
    config.recentProbeCapacity now
  responsive := .new config.responsiveCapacity config.responsiveTtl config.revisitInterval
  pending := .empty
  pendingExpiry := []
  subnetInFlight := .empty
  queryBudget := .perSecond config.maxFindNodeRatePerSec config.burst false now
  destinationBudget := .perMinute config.maxNewDestinationsPerMinute
    (max (divCeil config.maxNewDestinationsPerMinute 60) 1) false now
  bootstrapGate := .new
  bootstrapPool := .new config.bootstrapNodes config.bootstrapBackoffBase config.bootstrapBackoffMax
  bootstrapQueue := []
  snapshot := []
  maxMetadataQueueSize := maxMetadataQueueSize
  nextTid := 1
  resolving := 0
  dispatches := []
  released := []
  clock := now

/-! ### Ending a request -/

def subnetCount (σ : CrawlActor) (subnet : SubnetKey) : ℕ := (σ.subnetInFlight.get subnet).getD 0

def releasePending (σ : CrawlActor) (req : PendingRequest) : CrawlActor :=
  match σ.subnetInFlight.get req.subnet with
  | none => σ
  | some count =>
    if count - 1 = 0 then { σ with subnetInFlight := σ.subnetInFlight.erase req.subnet }
    else { σ with subnetInFlight := σ.subnetInFlight.insert req.subnet (count - 1) }

/-- `pending.remove` followed by `release_pending`. -/
def finish (σ : CrawlActor) (key : PendingKey) (req : PendingRequest) : CrawlActor :=
  releasePending
    { σ with pending := σ.pending.erase key, released := key :: σ.released } req

def markTimeout (σ : CrawlActor) (req : PendingRequest) (now : Instant) : CrawlActor :=
  if req.purpose = .bootstrap then
    { σ with bootstrapPool := σ.bootstrapPool.markTimeout req.node.addr now }
  else σ

/-- A request that failed, by timeout or in the egress task. -/
def fail (σ : CrawlActor) (key : PendingKey) (req : PendingRequest) (now : Instant) :
    Except Panic CrawlActor := do
  let σ := σ.finish key req
  let (responsive, _) ← σ.responsive.recordFailure req.node.addr req.dispatchedAt now
  .ok ({ σ with responsive }.markTimeout req now)

def sendFailed (σ : CrawlActor) (key : PendingKey) (now : Instant) : Except Panic CrawlActor :=
  match σ.pending.get key with
  | none => .ok σ
  | some req => σ.fail key req now

/-- One round of `expire_pending`: the first record is dropped, and its request ended unless it was answered
before. -/
def expireStep (now : Instant) (σ : CrawlActor) : Except Panic (ForInStep CrawlActor) :=
  match σ.pendingExpiry with
  | [] => .ok (.done σ)
  | (deadline, key) :: pendingExpiry =>
    if deadline > now then .ok (.done σ)
    else
      let σ := { σ with pendingExpiry }
      match (σ.pending.get key).filter fun req => req.deadline = deadline with
      | none => .ok (.yield σ)
      | some req => do
          let σ ← σ.fail key req now
          .ok (.yield σ)

/-- Every round drops a record, so the fuel outlasts the loop. -/
def expirePending (σ : CrawlActor) (now : Instant) : Except Panic CrawlActor :=
  Loop.run (expireStep now) (σ.pendingExpiry.length + 1) σ

/-! ### Events -/

def admitAll (σ : CrawlActor) (nodes : List NodeTuple) (now : Instant) : Except Panic CrawlActor := do
  let pool ← nodes.foldlM (fun pool node => do
    let (pool, _) ← pool.admitNode node now
    .ok pool) σ.pool
  .ok { σ with pool }

/-- The node that answered, under the id it gave if that is well formed. -/
def responsiveNode (req : PendingRequest) (response : DhtResponse) : NodeTuple :=
  match response.id.bind nodeIdOf with
  | some id => { req.node with id }
  | none => req.node

def markSuccess (σ : CrawlActor) (req : PendingRequest) (addr : SocketAddr) (now : Instant) :
    CrawlActor :=
  if req.purpose = .bootstrap then { σ with bootstrapPool := σ.bootstrapPool.markSuccess addr now }
  else σ

def handleResponse (σ : CrawlActor) (key : PendingKey) (response : DhtResponse) (now : Instant) :
    Except Panic CrawlActor :=
  match σ.pending.get key with
  | none => .ok σ
  | some req => do
      let σ := (σ.finish key req).markSuccess req key.addr now
      let responsive ← σ.responsive.record (responsiveNode req response) now req.dispatchedAt
      { σ with responsive }.admitAll (responseNodes response σ.netmode) now

def bootstrapResolved (σ : CrawlActor) (candidates : List SocketAddr) (now : Instant) :
    Except Panic CrawlActor := do
  let (bootstrapPool, selected) ←
    σ.bootstrapPool.select candidates σ.config.bootstrapMaxNodesPerRound now
  .ok { σ with
    bootstrapPool
    bootstrapQueue := σ.bootstrapQueue ++ selected
    resolving := σ.resolving - 1 }

def publishSnapshot (σ : CrawlActor) (now : Instant) : Except Panic CrawlActor := do
  let (responsive, nodes) ← σ.responsive.snapshot σ.config.routingSnapshotSize now
  .ok { σ with responsive, snapshot := nodes.take σ.config.routingSnapshotSize }

/-! ### Dispatch -/

/-- The id prefix a target is drawn from; a target without one is fully random. -/
def chooseTarget (σ : CrawlActor) (dice : ℕ × ℕ) : Except Panic (Option (Fin 256)) :=
  let total := max (σ.config.randomWalkPercent + σ.config.sparseBucketPercent) 1
  if dice.1 % total < σ.config.sparseBucketPercent then do
    let prefixes := σ.responsive.sparsePrefixes
    let target ← unwrap prefixes[dice.2 % prefixes.length]?
    .ok (some target)
  else .ok none

def launched (σ : CrawlActor) (node : NodeTuple) (purpose : ProbePurpose) (now : Instant)
    (fresh charged : Bool) (sparseTarget : Option (Fin 256)) : CrawlActor :=
  let key : PendingKey := ⟨node.addr, σ.nextTid⟩
  let subnet := SubnetKey.fromAddr node.addr
  let deadline := now + σ.config.requestTimeout
  { σ with
    nextTid := max (wrappingSucc σ.nextTid) 1
    pending := σ.pending.insert key { node, purpose, dispatchedAt := now, deadline, subnet }
    pendingExpiry := σ.pendingExpiry ++ [(deadline, key)]
    subnetInFlight := σ.subnetInFlight.insert subnet (σ.subnetCount subnet + 1)
    dispatches := ⟨key, purpose, now, fresh, charged, sparseTarget⟩ :: σ.dispatches }

/-- `fresh` and `charged` only go to the log. -/
def tryDispatch (σ : CrawlActor) (input : TickInput) (node : NodeTuple) (purpose : ProbePurpose)
    (now : Instant) (fresh charged : Bool) : Except Panic (CrawlActor × Bool) :=
  if σ.pending.len ≥ σ.config.maxInFlight then .ok (σ, false)
  else do
    let backingOff ← σ.responsive.isBackingOff node.addr now
    if backingOff ∨ σ.subnetCount (.fromAddr node.addr) ≥ σ.config.maxInFlightPerSubnet ∨
        input.egress σ.nextTid purpose node.addr.isIpv4 = false then .ok (σ, false)
    else do
      let target ← σ.chooseTarget (input.dice σ.nextTid)
      let responsive ← σ.responsive.recordProbe node.addr now
      .ok ({ σ.launched node purpose now fresh charged target with responsive }, true)

/-! ### Scheduling -/

def withDestination (σ : CrawlActor) (destinationBudget : RateBucket) : CrawlActor :=
  { σ with destinationBudget }

def refundDestination (σ : CrawlActor) (charged : Bool) : CrawlActor :=
  if charged then σ.withDestination σ.destinationBudget.refundOne else σ

def deferRevisit (σ : CrawlActor) (addr : SocketAddr) (now : Instant) : Except Panic CrawlActor := do
  let responsive ← σ.responsive.deferRevisit addr (now + scheduleInterval) now
  .ok { σ with responsive }

def recordProbe (σ : CrawlActor) (addr : SocketAddr) (now : Instant) : Except Panic CrawlActor := do
  let pool ← σ.pool.recordProbe addr now
  .ok { σ with pool }

/-- The probe of a reserved node; one that was not probed recently is `charged` for. -/
def revisit (σ : CrawlActor) (input : TickInput) (node : NodeTuple) (now : Instant) (charged : Bool) :
    Except Panic (CrawlActor × Bool) := do
  let (σ, sent) ← σ.tryDispatch input node .revisit now charged charged
  if sent then do
    let σ ← σ.recordProbe node.addr now
    .ok (σ, true)
  else do
    let σ ← (σ.refundDestination charged).deferRevisit node.addr now
    .ok (σ, false)

def scheduleRevisit (σ : CrawlActor) (input : TickInput) (now : Instant) :
    Except Panic (CrawlActor × Bool) := do
  let (responsive, reserved) ← σ.responsive.nextRevisit now
  let σ := { σ with responsive }
  match reserved with
  | none => .ok (σ, false)
  | some node => do
      let (pool, wasRecent) ← σ.pool.containsRecent node.addr now
      let σ := { σ with pool }
      if wasRecent then σ.revisit input node now false
      else
        match σ.destinationBudget.tryTakeOne now with
        | (destinationBudget, true) => (σ.withDestination destinationBudget).revisit input node now true
        | (destinationBudget, false) => do
            let σ ← (σ.withDestination destinationBudget).deferRevisit node.addr now
            .ok (σ, false)

/-- The probe of the node at the front of the pool, which has been charged for. -/
def probeFront (σ : CrawlActor) (input : TickInput) (now : Instant) :
    Except Panic (CrawlActor × Bool) := do
  let recent := σ.pool.recent
  let (pool, taken) ← σ.pool.takeFrontForProbe now
  let node ← unwrap taken
  let (σ, sent) ←
    { σ with pool }.tryDispatch input node .new now (!recent.contains node.addr now) true
  if sent then .ok (σ, true)
  else do
    let pool ← σ.pool.restoreFront node now
    ({ σ with pool }.refundDestination true).scheduleRevisit input now

/-- The scan of the pool: nodes that cannot be asked now go to the back, the first other one is probed. -/
def scanPool (input : TickInput) (now : Instant) : ℕ → CrawlActor → Except Panic (CrawlActor × Bool)
  | 0, σ => σ.scheduleRevisit input now
  | n + 1, σ =>
    match σ.pool.front with
    | none => σ.scheduleRevisit input now
    | some node => do
        let backingOff ← σ.responsive.isBackingOff node.addr now
        if σ.subnetCount (.fromAddr node.addr) ≥ σ.config.maxInFlightPerSubnet ∨ backingOff then
          scanPool input now n { σ with pool := σ.pool.rotateFrontToBack }
        else
          match σ.destinationBudget.tryTakeOne now with
          | (destinationBudget, true) => (σ.withDestination destinationBudget).probeFront input now
          | (destinationBudget, false) => (σ.withDestination destinationBudget).scheduleRevisit input now

def schedulePool (σ : CrawlActor) (input : TickInput) (now : Instant) :
    Except Panic (CrawlActor × Bool) :=
  scanPool input now (min σ.pool.queue.length maxPoolScanPerSchedule) σ

def probeBootstrap (σ : CrawlActor) (input : TickInput) (addr : SocketAddr) (now : Instant)
    (charged : Bool) : Except Panic (CrawlActor × Bool) := do
  let (σ, sent) ← σ.tryDispatch input ⟨σ.localId, addr⟩ .bootstrap now charged charged
  if sent then do
    let σ ← { σ with bootstrapQueue := σ.bootstrapQueue.tail }.recordProbe addr now
    .ok ({ σ with bootstrapPool := σ.bootstrapPool.markAttempt addr now }, true)
  else (σ.refundDestination charged).schedulePool input now

/-- The bootstrap endpoint to ask next, while the pool runs low. -/
def bootstrapFront (σ : CrawlActor) : Option SocketAddr :=
  if σ.pool.queue.length < σ.config.lowWatermark then σ.bootstrapQueue.head? else none

def scheduleOne (σ : CrawlActor) (input : TickInput) (now : Instant) :
    Except Panic (CrawlActor × Bool) :=
  match σ.bootstrapFront with
  | none => σ.schedulePool input now
  | some addr => do
      let (pool, isRecent) ← σ.pool.containsRecent addr now
      let σ := { σ with pool }
      if isRecent then σ.probeBootstrap input addr now false
      else
        match σ.destinationBudget.tryTakeOne now with
        | (destinationBudget, true) =>
          (σ.withDestination destinationBudget).probeBootstrap input addr now true
        | (destinationBudget, false) => (σ.withDestination destinationBudget).scheduleRevisit input now

/-- The loop over the batch of query tokens; what is left of the batch is given back. -/
def scheduleBatch (input : TickInput) (now : Instant) : ℕ → CrawlActor → Except Panic CrawlActor
  | 0, σ => .ok σ
  | n + 1, σ =>
    if σ.pending.len ≥ σ.config.maxInFlight then
      .ok { σ with queryBudget := σ.queryBudget.refund (n + 1) }
    else do
      let (σ, scheduled) ← σ.scheduleOne input now
      if scheduled then scheduleBatch input now n σ
      else .ok { σ with queryBudget := σ.queryBudget.refund (n + 1) }

def maybeResolveBootstrap (σ : CrawlActor) (now : Instant) : CrawlActor :=
  if σ.bootstrapQueue.isEmpty then
    let (bootstrapGate, resolve) := σ.bootstrapGate.shouldBootstrap σ.pool.queue.length σ.config now
    { σ with bootstrapGate, resolving := if resolve then σ.resolving + 1 else σ.resolving }
  else σ

def metadataPressure (σ : CrawlActor) (metadataQueueLen : ℕ) : ℚ :=
  if σ.maxMetadataQueueSize = 0 then 1
  else min ((metadataQueueLen : ℚ) / σ.maxMetadataQueueSize) 1

def tickRate (σ : CrawlActor) (input : TickInput) : ℕ :=
  σ.config.rateForMetadataPressure (σ.metadataPressure input.metadataQueueLen)

def onScheduleTick (σ : CrawlActor) (input : TickInput) (now : Instant) : Except Panic CrawlActor := do
  let σ ← σ.expirePending now
  let σ := σ.maybeResolveBootstrap now
  let queryBudget := σ.queryBudget.setPerSecondRate (σ.tickRate input) now
  let (queryBudget, budget) := queryBudget.tryTake σ.config.burst now
  scheduleBatch input now budget { σ with queryBudget }

/-! ### Runs -/

inductive Event where
  | scheduleTick (input : TickInput)
  | snapshotTick
  | response (key : PendingKey) (response : DhtResponse)
  | sendFailed (key : PendingKey)
  | bootstrapResolved (candidates : List SocketAddr)
  | discovered (node : NodeTuple)

def Event.Possible (σ : CrawlActor) : Event → Prop
  | .bootstrapResolved _ => 0 < σ.resolving
  | _ => True

def dispatchEvent (σ : CrawlActor) (now : Instant) : Event → Except Panic CrawlActor
  | .scheduleTick input => σ.onScheduleTick input now
  | .snapshotTick => σ.publishSnapshot now
  | .response key response => σ.handleResponse key response now
  | .sendFailed key => σ.sendFailed key now
  | .bootstrapResolved candidates => σ.bootstrapResolved candidates now
  | .discovered node => σ.admitAll [node] now

def handle (σ : CrawlActor) (now : Instant) (event : Event) : Except Panic CrawlActor :=
  { σ with clock := now }.dispatchEvent now event

/-- The states of an actor with a clock that does not go back. -/
inductive Reachable (options : CrawlOptions) : CrawlActor → Prop where
  | start (netmode : NetMode) (localId : NodeId) (maxMetadataQueueSize : ℕ) (now : Instant) :
      Reachable options (new (.fromOptions options) netmode localId maxMetadataQueueSize now)
  | step {σ σ'} (now : Instant) (event : Event) (hσ : Reachable options σ)
      (hnow : σ.clock ≤ now) (hevent : event.Possible σ) (hrun : σ.handle now event = .ok σ') :
      Reachable options σ'

end CrawlActor

end DhtCrawler
