import DhtCrawler.BudgetModel
import DhtCrawler.KrpcModel
import DhtCrawler.LibFiniteMap
import DhtCrawler.LibOutcome

/-! The discovery actor of `discovery.rs`. Its handlers run one after another. -/

namespace DhtCrawler.Discovery

def sampleTidTag : ℕ := 0xb5

def maxRemoteInterval : ℕ := 21600

def maxLocalInterval : ℕ := 7 * 24 * 60 * 60

def maxSamplesPerResponse : ℕ := 256

def maxHashSources : ℕ := 4

def seedRefresh : Duration := secs 5

structure DiscoveryOptions where
  sampleQueriesPerSecond : UInt32
  sampleBurst : UInt32
  sampleMaxInFlight : UInt64
  sampleQueryTimeoutSecs : UInt64
  sampleMinIntervalSecs : UInt64
  sampleFailureBackoffSecs : UInt64
  sampleNoNewBackoffSecs : UInt64
  sampleMaxNodes : UInt64
  sampleCooldownCapacity : UInt64
  hashDedupCapacity : UInt64
  hashDedupTtlSecs : UInt64
  getPeersHashesPerSecond : UInt32
  getPeersBurst : UInt32
  sampleHashesPerSecond : UInt32
  sampleHashBurst : UInt32

def clamp (low high x : ℕ) : ℕ := min (max x low) high

/-- The options an actor works with: durations are cut to what the clock can hold. -/
structure DiscoveryConfig where
  sampleBurst : ℕ
  sampleMaxInFlight : ℕ
  sampleQueryTimeoutSecs : ℕ
  sampleMinIntervalSecs : ℕ
  sampleFailureBackoffSecs : ℕ
  sampleNoNewBackoffSecs : ℕ
  sampleMaxNodes : ℕ
  sampleCooldownCapacity : ℕ

def DiscoveryConfig.fromOptions (options : DiscoveryOptions) : DiscoveryConfig where
  sampleBurst := options.sampleBurst.toNat
  sampleMaxInFlight := options.sampleMaxInFlight.toNat
  sampleQueryTimeoutSecs := clamp 1 300 options.sampleQueryTimeoutSecs.toNat
  sampleMinIntervalSecs := min options.sampleMinIntervalSecs.toNat maxLocalInterval
  sampleFailureBackoffSecs := clamp 1 maxLocalInterval options.sampleFailureBackoffSecs.toNat
  sampleNoNewBackoffSecs := min options.sampleNoNewBackoffSecs.toNat maxLocalInterval
  sampleMaxNodes := options.sampleMaxNodes.toNat
  sampleCooldownCapacity := options.sampleCooldownCapacity.toNat

abbrev DueKey := Instant ×ₗ ℕ ×ₗ SocketAddr

def DueKey.at (key : DueKey) : Instant := (ofLex key).1

def DueKey.addr (key : DueKey) : SocketAddr := (ofLex (ofLex key).2).2

structure SampleNode where
  node : NodeTuple
  due : Option DueKey

structure PendingSample where
  tid : TransactionId
  deadline : Instant

/-! ### Hashes seen before -/

structure HashDedup where
  entries : FiniteMap NodeId (List (SocketAddr × HashSource))
  expiry : List (Instant × NodeId)
  capacity : ℕ
  ttl : Duration

namespace HashDedup

def new (capacity : ℕ) (ttl : Duration) : HashDedup := ⟨.empty, [], max capacity 1, ttl⟩

/-- The hashes at the front of the queue whose time is over are forgotten. -/
def dropExpired (now : Instant) (entries : FiniteMap NodeId (List (SocketAddr × HashSource))) :
    List (Instant × NodeId) → FiniteMap NodeId (List (SocketAddr × HashSource)) × List (Instant × NodeId)
  | [] => (entries, [])
  | (deadline, old) :: rest =>
    if deadline ≤ now then dropExpired now (entries.erase old) rest else (entries, (deadline, old) :: rest)

def contains (d : HashDedup) (hash : NodeId) (addr : SocketAddr) (source : HashSource) (now : Instant) :
    HashDedup × Bool :=
  let (entries, expiry) := dropExpired now d.entries d.expiry
  let d := { d with entries, expiry }
  match d.entries.get hash with
  | none => (d, false)
  | some sources =>
    match sources.find? fun old => old.1 = addr with
    | some (_, previous) => (d, !(previous = .getPeers && source = .sample))
    | none => (d, sources.length ≥ maxHashSources)

/-- A requester that is later found to store the hash is a sampler from then on. -/
def upgrade (addr : SocketAddr) (source : HashSource) :
    List (SocketAddr × HashSource) → List (SocketAddr × HashSource)
  | [] => []
  | old :: rest =>
    if old.1 = addr then (if source = .sample then (old.1, source) else old) :: rest
    else old :: upgrade addr source rest

/-- The oldest hash is forgotten when the capacity is reached. -/
def makeRoom (d : HashDedup) : HashDedup :=
  if d.entries.len ≥ d.capacity then
    match d.expiry with
    | (_, old) :: expiry => { d with entries := d.entries.erase old, expiry }
    | [] => d
  else d

def insert (d : HashDedup) (hash : NodeId) (addr : SocketAddr) (source : HashSource) (now : Instant) :
    HashDedup :=
  match d.entries.get hash with
  | some sources =>
    if (sources.find? fun old => old.1 = addr).isSome then
      { d with entries := d.entries.insert hash (upgrade addr source sources) }
    else if sources.length < maxHashSources then
      { d with entries := d.entries.insert hash (sources ++ [(addr, source)]) }
    else d
  | none =>
    let d := d.makeRoom
    { d with
      entries := d.entries.insert hash [(addr, source)]
      expiry := d.expiry ++ [(now + d.ttl, hash)] }

end HashDedup

/-! ### The actor -/

/-- What is seen of the surroundings: the time since the last look and the result of the send. -/
structure Look where
  elapsed : Duration
  sent : Bool

/-- The verdict of the filter on a hash, and whether the queue takes it. -/
structure Answer where
  accepted : Bool
  room : Bool

/-- A query to `addr`, from the start of its tick to the end of the send. -/
structure Attempt where
  addr : SocketAddr
  tid : TransactionId
  tickedAt : Instant
  startedAt : Instant
  endedAt : Instant
  sent : Bool
  deriving DecidableEq

structure DiscoveryActor where
  config : DiscoveryConfig
  netmode : NetMode
  v4 : Bool
  v6 : Bool
  nodes : FiniteMap SocketAddr SampleNode
  due : Finset DueKey
  sequence : ℕ
  pending : FiniteMap SocketAddr PendingSample
  cooldowns : FiniteMap SocketAddr (NodeTuple × Instant)
  cooldownExpiry : Finset (Instant ×ₗ SocketAddr)
  nextTid : ℕ
  queryBudget : RateBucket
  getPeersBudget : RateBucket
  sampleHashBudget : RateBucket
  dedup : HashDedup
  nextSeedRefresh : Instant
  clock : Instant
  future : ℕ → Look
  attempts : List Attempt
  inFlight : List SocketAddr
  emitted : List HashDiscovered

namespace DiscoveryActor

def new (options : DiscoveryOptions) (netmode : NetMode) (v4 v6 : Bool) (now : Instant) :
    DiscoveryActor where
  config := .fromOptions options
  netmode := netmode
  v4 := v4
  v6 := v6
  nodes := .empty
  due := ∅
  sequence := 0
  pending := .empty
  cooldowns := .empty
  cooldownExpiry := ∅
  nextTid := 1
  queryBudget := .perSecond options.sampleQueriesPerSecond.toNat options.sampleBurst.toNat false now
  getPeersBudget := .perSecond options.getPeersHashesPerSecond.toNat options.getPeersBurst.toNat true now
  sampleHashBudget := .perSecond options.sampleHashesPerSecond.toNat options.sampleHashBurst.toNat true now
  dedup := .new options.hashDedupCapacity.toNat
    (secs (clamp 1 maxLocalInterval options.hashDedupTtlSecs.toNat))
  nextSeedRefresh := now
  clock := now
  future := fun _ => ⟨0, true⟩
  attempts := []
  inFlight := []
  emitted := []

def look (σ : DiscoveryActor) : DiscoveryActor :=
  { σ with clock := σ.clock + (σ.future 0).elapsed, future := fun n => σ.future (n + 1) }

/-! ### Candidates -/

def schedule (σ : DiscoveryActor) (addr : SocketAddr) (at' : Instant) : DiscoveryActor :=
  match σ.nodes.get addr with
  | none => σ
  | some entry =>
    let due := match entry.due with
      | some old => σ.due.erase old
      | none => σ.due
    let sequence := wrappingSucc σ.sequence
    let key : DueKey := toLex (at', toLex (sequence, addr))
    { σ with
      sequence
      nodes := σ.nodes.insert addr { entry with due := some key }
      due := insert key due }

def firstDue (σ : DiscoveryActor) (now : Instant) : Option DueKey :=
  σ.due.least.filter fun key => key.at ≤ now

/-- A queued candidate makes room for another; one with a pending request never does. -/
def enroll (σ : DiscoveryActor) (node : NodeTuple) (now : Instant) : DiscoveryActor :=
  if σ.nodes.len ≥ max σ.config.sampleMaxNodes 1 then
    match σ.firstDue now with
    | none => σ
    | some key =>
      { σ with
        due := σ.due.erase key
        nodes := (σ.nodes.erase key.addr).insert node.addr ⟨node, none⟩ }.schedule node.addr now
  else { σ with nodes := σ.nodes.insert node.addr ⟨node, none⟩ }.schedule node.addr now

def admitKnown (σ : DiscoveryActor) (node : NodeTuple) (now : Instant) : DiscoveryActor :=
  match σ.nodes.get node.addr with
  | some entry => { σ with nodes := σ.nodes.insert node.addr { entry with node } }
  | none => σ.enroll node now

def admitNode (σ : DiscoveryActor) (node : NodeTuple) (now : Instant) : DiscoveryActor :=
  if !isValidNodeAddr node.addr || !addrAllowedByNetmode node.addr σ.netmode then σ
  else
    match σ.cooldowns.get node.addr with
    | some (_, until') =>
      if until' > now then σ
      else
        { σ with
          cooldowns := σ.cooldowns.erase node.addr
          cooldownExpiry := σ.cooldownExpiry.erase (toLex (until', node.addr)) }.admitKnown node now
    | none => σ.admitKnown node now

def failureDelay (σ : DiscoveryActor) : Duration := secs (max σ.config.sampleFailureBackoffSecs 1)

/-- The history slot was reserved when the request was dispatched. -/
def enterCooldown (σ : DiscoveryActor) (addr : SocketAddr) (until' : Instant) :
    Except Panic DiscoveryActor :=
  match σ.nodes.get addr with
  | none => .ok σ
  | some entry =>
    let σ := { σ with
      nodes := σ.nodes.erase addr
      due := match entry.due with
        | some key => σ.due.erase key
        | none => σ.due }
    if σ.cooldowns.len < max σ.config.sampleCooldownCapacity 1 then
      .ok { σ with
        cooldowns := σ.cooldowns.insert addr (entry.node, until')
        cooldownExpiry := insert (toLex (until', addr)) σ.cooldownExpiry }
    else .error .assertion

def forget (σ : DiscoveryActor) (addr : SocketAddr) : DiscoveryActor :=
  { σ with pending := σ.pending.erase addr, inFlight := σ.inFlight.erase addr }

/-! ### Ticks -/

/-- A cooldown that is over makes its node a candidate again. -/
def thawStep (now : Instant) (σ : DiscoveryActor) : ForInStep DiscoveryActor :=
  match σ.cooldownExpiry.least.filter fun record => (ofLex record).1 ≤ now with
  | none => .done σ
  | some record =>
    let σ := { σ with cooldownExpiry := σ.cooldownExpiry.erase record }
    match σ.cooldowns.get (ofLex record).2 with
    | none => .yield σ
    | some (node, _) =>
      .yield ({ σ with cooldowns := σ.cooldowns.erase (ofLex record).2 }.admitNode node now)

def maxThawsPerTick : ℕ := 256

def timeOut (now : Instant) (σ : DiscoveryActor) (addr : SocketAddr) : Except Panic DiscoveryActor :=
  (σ.forget addr).enterCooldown addr (now + σ.failureDelay)

def expirePending (σ : DiscoveryActor) (iteration : Iteration SocketAddr) (now : Instant) :
    Except Panic DiscoveryActor :=
  ((iteration.order σ.pending.keys).filter fun addr =>
    (σ.pending.get addr).any fun sample => sample.deadline ≤ now).foldlM (timeOut now) σ

def refreshSeeds (σ : DiscoveryActor) (seeds : List NodeTuple) (now : Instant) : DiscoveryActor :=
  if now ≥ σ.nextSeedRefresh then
    seeds.foldl (fun σ node => σ.admitNode node now) { σ with nextSeedRefresh := now + seedRefresh }
  else σ

def send (σ : DiscoveryActor) (addr : SocketAddr) : DiscoveryActor × Bool :=
  if if addr.isIpv4 then σ.v4 else σ.v6 then (σ.look, (σ.future 0).sent) else (σ, false)

def attempt (σ : DiscoveryActor) (addr : SocketAddr) (now : Instant) : DiscoveryActor × Bool :=
  let (σ', sent) := { σ with nextTid := max (wrappingSucc σ.nextTid) 1 }.send addr
  ({ σ' with
      attempts := ⟨addr, taggedTid sampleTidTag σ.nextTid, now, σ.clock, σ'.clock, sent⟩ :: σ'.attempts },
    sent)

def dispatch (σ : DiscoveryActor) (key : DueKey) (now : Instant) : Except Panic DiscoveryActor := do
  let entry ← unwrap (σ.nodes.get key.addr)
  let tid := taggedTid sampleTidTag σ.nextTid
  let σ := { σ with
    due := σ.due.erase key
    nodes := σ.nodes.insert key.addr { entry with due := none } }
  match σ.attempt entry.node.addr now with
  | (σ, true) =>
    .ok { σ with
      pending := σ.pending.insert entry.node.addr
        ⟨tid, σ.clock + secs (max σ.config.sampleQueryTimeoutSecs 1)⟩
      inFlight := entry.node.addr :: σ.inFlight }
  | (σ, false) => σ.enterCooldown entry.node.addr (now + σ.failureDelay)

def dispatchStep (now : Instant) (σ : DiscoveryActor) : Except Panic (ForInStep DiscoveryActor) :=
  if σ.pending.len ≥ σ.config.sampleMaxInFlight then .ok (.done σ)
  else
    match σ.firstDue now with
    | none => .ok (.done σ)
    | some key =>
      if min (σ.cooldowns.len + σ.pending.len) usizeMax ≥ max σ.config.sampleCooldownCapacity 1 then
        .ok (.done σ)
      else
        match σ.queryBudget.tryTakeOne now with
        | (queryBudget, false) => .ok (.done { σ with queryBudget })
        | (queryBudget, true) => do
            let σ ← { σ with queryBudget }.dispatch key now
            .ok (.yield σ)

def maxDispatchesPerTick : ℕ := 64

def onTick (σ : DiscoveryActor) (iteration : Iteration SocketAddr) (seeds : List NodeTuple)
    (now : Instant) : Except Panic DiscoveryActor := do
  let σ := Loop.iterate (thawStep now) maxThawsPerTick σ
  let σ ← σ.expirePending iteration now
  let σ := σ.refreshSeeds seeds now
  Loop.run (dispatchStep now) (min σ.config.sampleBurst maxDispatchesPerTick) σ

/-! ### Hashes and responses -/

def emitHash (σ : DiscoveryActor) (hash : NodeId) (node : NodeTuple) (source : HashSource)
    (now : Instant) (answer : Answer) : DiscoveryActor × Bool :=
  match σ.dedup.contains hash node.addr source now with
  | (dedup, true) => ({ σ with dedup }, false)
  | (dedup, false) =>
    let σ := { σ with dedup }
    let budget := if source = .getPeers then σ.getPeersBudget else σ.sampleHashBudget
    let (budget, taken) := budget.tryTakeOne now
    let σ := if source = .getPeers then { σ with getPeersBudget := budget }
      else { σ with sampleHashBudget := budget }
    if taken && answer.accepted && answer.room then
      ({ σ with
          dedup := σ.dedup.insert hash node.addr source now
          emitted := ⟨hexEncode hash.toList, none, some node, source, now⟩ :: σ.emitted }, true)
    else (σ, false)

/-- The hashes of a response are emitted one by one; those not seen before are counted. -/
def emitSamples (node : NodeTuple) (now : Instant) (answers : ℕ → Answer) :
    List NodeId → ℕ → DiscoveryActor → DiscoveryActor × ℕ
  | [], _, σ => (σ, 0)
  | hash :: rest, index, σ =>
    let (dedup, known) := σ.dedup.contains hash node.addr .sample now
    let (σ, _) := { σ with dedup }.emitHash hash node .sample now (answers index)
    let (σ, novel) := emitSamples node now answers rest (index + 1) σ
    (σ, if known then novel else novel + 1)

/-- The hashes of a sample field, of which only the first ones are looked at. -/
def sampleHashes (samples : List UInt8) : List NodeId :=
  ((chunksExact 20 samples).take maxSamplesPerResponse).map fun chunk => bytesAt 20 chunk 0

/-- The seconds until a node that answered may be asked again. -/
def waitSecs (σ : DiscoveryActor) (interval novelHashes samples : ℕ) : ℕ :=
  let wait := max (max interval σ.config.sampleMinIntervalSecs) 1
  if novelHashes = 0 ∧ samples / 20 ≤ maxSamplesPerResponse then
    max wait σ.config.sampleNoNewBackoffSecs
  else wait

def maxNeighbors : ℕ := 64

/-- A response with the fields of BEP 51 in a well-formed shape. -/
def acceptSamples (σ : DiscoveryActor) (addr : SocketAddr) (id : NodeId) (response : DhtResponse)
    (samples : List UInt8) (interval : ℕ) (answers : ℕ → Answer) (now : Instant) :
    Except Panic DiscoveryActor := do
  let sourceNode : NodeTuple := ⟨id, addr⟩
  let entry ← unwrap (σ.nodes.get addr)
  let σ := { σ with nodes := σ.nodes.insert addr { entry with node := sourceNode } }
  let (σ, novelHashes) := emitSamples sourceNode now answers (sampleHashes samples) 0 σ
  let σ ← σ.enterCooldown addr (now + secs (σ.waitSecs interval novelHashes samples.length))
  .ok (((responseNodes response σ.netmode).take maxNeighbors).foldl
    (fun σ node => σ.admitNode node now) σ)

def checkSamples (σ : DiscoveryActor) (addr : SocketAddr) (response : DhtResponse) (samples : List UInt8)
    (interval num : ℕ) (answers : ℕ → Answer) (now : Instant) : Except Panic DiscoveryActor :=
  match response.id.bind nodeIdOf with
  | some id =>
    if interval > maxRemoteInterval ∨ samples.length % 20 ≠ 0 ∨ samples.length / 20 > num then
      σ.enterCooldown addr (now + max σ.failureDelay (secs (min interval maxRemoteInterval)))
    else σ.acceptSamples addr id response samples interval answers now
  | none => σ.enterCooldown addr (now + max σ.failureDelay (secs (min interval maxRemoteInterval)))

/-- Whether a response belongs to the request that is pending for its sender. -/
def matched (σ : DiscoveryActor) (addr : SocketAddr) (tid : TransactionId) (now : Instant) : Bool :=
  (σ.pending.get addr).any fun sample => decide (sample.tid = tid) && decide (sample.deadline > now)

def handleResponse (σ : DiscoveryActor) (addr : SocketAddr) (tid : TransactionId)
    (response : Option DhtResponse) (answers : ℕ → Answer) (now : Instant) :
    Except Panic DiscoveryActor :=
  if σ.matched addr tid now then
    let σ := σ.forget addr
    match response with
    | none => σ.enterCooldown addr (now + σ.failureDelay)
    | some response =>
      match response.samples, response.interval, response.num with
      | some samples, some interval, some num =>
        σ.checkSamples addr response samples interval num answers now
      | _, _, _ => σ.enterCooldown addr (now + σ.failureDelay)
  else .ok σ

/-! ### Runs -/

inductive Event where
  | tick (iteration : Iteration SocketAddr) (seeds : List NodeTuple)
  | response (addr : SocketAddr) (tid : TransactionId) (response : Option DhtResponse)
      (answers : ℕ → Answer)
  | input (hash : NodeId) (node : NodeTuple) (answer : Answer)

def dispatchEvent (σ : DiscoveryActor) (now : Instant) : Event → Except Panic DiscoveryActor
  | .tick iteration seeds => σ.onTick iteration seeds now
  | .response addr tid response answers => σ.handleResponse addr tid response answers now
  | .input hash node answer => .ok (σ.emitHash hash node .getPeers now answer).1

def handle (σ : DiscoveryActor) (future : ℕ → Look) (event : Event) : Except Panic DiscoveryActor :=
  let σ := { σ with future }.look
  σ.dispatchEvent σ.clock event

def Step (σ σ' : DiscoveryActor) : Prop := ∃ future event, σ.handle future event = .ok σ'

/-- The states between two handlers, whatever the surroundings do. -/
inductive Reachable (options : DiscoveryOptions) : DiscoveryActor → Prop where
  | start (netmode : NetMode) (v4 v6 : Bool) (now : Instant) :
      Reachable options (new options netmode v4 v6 now)
  | step {σ σ'} (hσ : Reachable options σ) (hstep : Step σ σ') : Reachable options σ'

end DiscoveryActor

end DhtCrawler.Discovery
