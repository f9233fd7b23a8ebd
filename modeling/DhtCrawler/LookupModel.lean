import DhtCrawler.BudgetModel
import DhtCrawler.KrpcModel
import DhtCrawler.QueueModel
import DhtCrawler.RoutingModel

/-! The peer lookup actor of `peer_lookup.rs`. -/

namespace DhtCrawler

structure PeerLookupOptions where
  maxLookupsPerSecond : UInt32
  burst : UInt32
  maxActiveLookups : UInt64
  maxQueries : UInt64
  maxConcurrentQueries : UInt64
  lookupTimeoutMs : UInt64
  queryTimeoutMs : UInt64

/-- `Iterator::min_by`: the first of the least elements. -/
def minBy {α : Type} (cmp : α → α → Ordering) : List α → Option α
  | [] => none
  | x :: xs => some (xs.foldl (fun least y => if cmp least y = .gt then y else least) x)

/-- A snapshot as the crawl actor publishes it; the one it starts with holds no nodes. -/
structure Published where
  nodes : List NodeTuple
  limit : ℕ
  snapshot : RoutingSnapshot
  built : RoutingSnapshot.fromNodes nodes limit = .ok snapshot

namespace PeerLookup

def lookupTidTag : ℕ := 0xa5

def maxFrontierNodes : ℕ := 64

def maxPeersPerLookup : ℕ := maxMetadataCandidatesPerHash

def maxSourceNodes : ℕ := 8

def lookupDuration (ms : ℕ) : Duration := millis (min (max ms 1) 300000)

def lookupDeadline (now : Instant) (duration : Duration) : Instant := now + min duration (secs 300)

structure PendingKey where
  addr : SocketAddr
  tid : TransactionId
  deriving DecidableEq, Repr

structure PendingQuery where
  lookupId : ℕ
  deadline : Instant
  deriving DecidableEq, Repr

structure LookupState where
  infoHash : NodeId
  peerTx : ℕ
  frontier : List NodeTuple
  sourceNodes : List NodeTuple
  seenNodes : Finset SocketAddr
  peers : Finset SocketAddr
  queried : ℕ
  outstanding : ℕ
  deadline : Instant
  maxQueries : ℕ

inductive FinishReason where
  | canceled
  | deadline
  | peers
  | budget
  | exhausted
  deriving DecidableEq, Repr

namespace LookupState

/-- The next node to ask, and whether it is one of the source nodes. -/
def popClosest (state : LookupState) : Except Panic (Option (NodeTuple × Bool × LookupState)) :=
  match state.sourceNodes with
  | node :: sourceNodes => .ok (some (node, true, { state with sourceNodes }))
  | [] =>
    match minBy (fun left right => xorDistanceCmp left.1.id right.1.id state.infoHash)
        state.frontier.zipIdx with
    | none => .ok none
    | some (_, index) => do
        let (node, frontier) ← swapRemove state.frontier index
        .ok (some (node, false, { state with frontier }))

def finishReason (state : LookupState) (closed : Bool) (now : Instant) : Option FinishReason :=
  if closed then some .canceled
  else if state.deadline ≤ now then some .deadline
  else if state.peers.card ≥ maxPeersPerLookup then some .peers
  else if state.outstanding = 0 ∧ state.queried ≥ state.maxQueries then some .budget
  else if state.outstanding = 0 ∧ state.frontier = [] ∧ state.sourceNodes = [] then some .exhausted
  else none

def isComplete (state : LookupState) (closed : Bool) (now : Instant) : Bool :=
  (state.finishReason closed now).isSome

/-- The peers of a response, up to the limit of the lookup; the new ones are offered to the result stream. -/
def learnPeers (state : LookupState) : List SocketAddr → LookupState × List SocketAddr
  | [] => (state, [])
  | peer :: rest =>
    if state.peers.card < maxPeersPerLookup ∧ peer ∉ state.peers then
      let (state, discovered) := learnPeers { state with peers := insert peer state.peers } rest
      (state, peer :: discovered)
    else learnPeers state rest

def learnNodes (state : LookupState) : List NodeTuple → LookupState
  | [] => state
  | node :: rest =>
    if state.frontier.length ≥ maxFrontierNodes then state
    else if node.addr ∈ state.seenNodes then learnNodes state rest
    else
      learnNodes
        { state with
          seenNodes := insert node.addr state.seenNodes
          frontier := state.frontier ++ [node] } rest

end LookupState

structure PeerLookupRequest where
  infoHash : NodeId
  peerTx : ℕ
  sourceNodes : List NodeTuple

/-- What is seen of the surroundings: the time since the last look, the receivers dropped meanwhile, and the
result of the send, if one was under way. -/
structure Look where
  elapsed : Duration
  dropped : Finset ℕ
  sent : Bool

/-- A query that was attempted; `sent` tells whether the datagram left. -/
structure Query where
  lookupId : ℕ
  node : NodeTuple
  tid : TransactionId
  sourceSeed : Bool
  sent : Bool
  deriving DecidableEq

structure Delivery where
  lookupId : ℕ
  infoHash : NodeId
  peer : SocketAddr
  deriving DecidableEq

structure PeerLookupActor where
  netmode : NetMode
  socketV4 : Bool
  socketV6 : Bool
  requestBudget : RateBucket
  maxActiveLookups : ℕ
  maxQueries : ℕ
  maxConcurrentQueries : ℕ
  lookupTimeout : Duration
  queryTimeout : Duration
  active : FiniteMap ℕ LookupState
  pending : FiniteMap PendingKey PendingQuery
  pendingExpiry : List (Instant × PendingKey)
  nextLookupId : ℕ
  nextTid : ℕ
  clock : Instant
  dropped : Finset ℕ
  future : ℕ → Look
  queries : List Query
  deliveries : List Delivery
  started : ℕ

namespace PeerLookupActor

def new (options : PeerLookupOptions) (netmode : NetMode) (socketV4 socketV6 : Bool) (now : Instant) :
    PeerLookupActor where
  netmode := netmode
  socketV4 := socketV4
  socketV6 := socketV6
  requestBudget := .perSecond options.maxLookupsPerSecond.toNat options.burst.toNat true now
  maxActiveLookups := options.maxActiveLookups.toNat
  maxQueries := options.maxQueries.toNat
  maxConcurrentQueries := max options.maxConcurrentQueries.toNat 1
  lookupTimeout := lookupDuration options.lookupTimeoutMs.toNat
  queryTimeout := lookupDuration options.queryTimeoutMs.toNat
  active := .empty
  pending := .empty
  pendingExpiry := []
  nextLookupId := 1
  nextTid := 1
  clock := now
  dropped := ∅
  future := fun _ => ⟨0, ∅, true⟩
  queries := []
  deliveries := []
  started := 0

/-! ### The surroundings -/

/-- The next look at the surroundings, with a read of the clock. -/
def look (σ : PeerLookupActor) : PeerLookupActor :=
  { σ with
    clock := σ.clock + (σ.future 0).elapsed
    dropped := σ.dropped ∪ (σ.future 0).dropped
    future := fun n => σ.future (n + 1) }

def isClosed (σ : PeerLookupActor) (peerTx : ℕ) : Bool := decide (peerTx ∈ σ.dropped)

/-- The send to an address, which fails if there is no socket of its family. -/
def send (σ : PeerLookupActor) (addr : SocketAddr) : PeerLookupActor × Bool :=
  if if addr.isIpv4 then σ.socketV4 else σ.socketV6 then (σ.look, (σ.future 0).sent) else (σ, false)

/-! ### Ending a lookup -/

def finishLookup (σ : PeerLookupActor) (lookupId : ℕ) : PeerLookupActor :=
  { σ with
    active := σ.active.erase lookupId
    pending := σ.pending.retain fun _ query => query.lookupId != lookupId }

def completeAt (σ : PeerLookupActor) (lookupId : ℕ) (now : Instant) : Bool :=
  (σ.active.get lookupId).any fun state => state.isComplete (σ.isClosed state.peerTx) now

def finishIfComplete (σ : PeerLookupActor) (lookupId : ℕ) (now : Instant) : PeerLookupActor :=
  if σ.completeAt lookupId now then σ.finishLookup lookupId else σ

/-! ### Dispatch -/

def mayQuery (σ : PeerLookupActor) (state : LookupState) : Bool :=
  !(σ.isClosed state.peerTx || decide (state.deadline ≤ σ.clock) ||
    decide (state.peers.card ≥ maxPeersPerLookup) || decide (state.queried ≥ σ.maxQueries) ||
    decide (state.outstanding ≥ σ.maxConcurrentQueries))

/-- The node a lookup asks next, with the state it leaves behind. -/
def nextQuery (σ : PeerLookupActor) (lookupId : ℕ) :
    Except Panic (Option (NodeTuple × Bool × LookupState)) :=
  match σ.active.get lookupId with
  | none => .ok none
  | some state =>
    if σ.mayQuery state then do
      match ← state.popClosest with
      | none => .ok none
      | some (node, sourceSeed, state) =>
        .ok (some (node, sourceSeed, { state with queried := state.queried + 1 }))
    else .ok none

def attempt (σ : PeerLookupActor) (lookupId : ℕ) (node : NodeTuple) (sourceSeed : Bool)
    (state : LookupState) : PeerLookupActor × Bool :=
  let (σ', sent) :=
    { σ with
      active := σ.active.insert lookupId state
      nextTid := max (wrappingSucc σ.nextTid) 1 }.send node.addr
  ({ σ' with queries := ⟨lookupId, node, taggedTid lookupTidTag σ.nextTid, sourceSeed, sent⟩ :: σ'.queries },
    sent)

def awaitReply (σ : PeerLookupActor) (lookupId : ℕ) (key : PendingKey) (state : LookupState) :
    PeerLookupActor :=
  let deadline := min (lookupDeadline σ.clock σ.queryTimeout) state.deadline
  { σ with
    pending := σ.pending.insert key ⟨lookupId, deadline⟩
    pendingExpiry := σ.pendingExpiry ++ [(deadline, key)]
    active := σ.active.insert lookupId { state with outstanding := state.outstanding + 1 } }

def dispatchStep (lookupId : ℕ) (σ : PeerLookupActor) : Except Panic (ForInStep PeerLookupActor) := do
  let σ := σ.look
  match ← σ.nextQuery lookupId with
  | none => .ok (.done σ)
  | some (node, sourceSeed, state) =>
    let key : PendingKey := ⟨node.addr, taggedTid lookupTidTag σ.nextTid⟩
    match σ.attempt lookupId node sourceSeed state with
    | (σ, true) => .ok (.yield (σ.awaitReply lookupId key state))
    | (σ, false) => .ok (.yield σ)

def backlog (σ : PeerLookupActor) (lookupId : ℕ) : ℕ :=
  match σ.active.get lookupId with
  | none => 0
  | some state => state.sourceNodes.length + state.frontier.length

/-- Every round that goes on takes a node from the lookup, so the fuel outlasts the loop. -/
def dispatchMore (σ : PeerLookupActor) (lookupId : ℕ) : Except Panic PeerLookupActor := do
  let σ ← Loop.run (dispatchStep lookupId) (σ.backlog lookupId + 1) σ
  let σ := σ.look
  .ok (σ.finishIfComplete lookupId σ.clock)

/-! ### Requests -/

def filterIpv6 (σ : PeerLookupActor) : Option Bool :=
  match σ.socketV4, σ.socketV6 with
  | true, false => some false
  | false, true => some true
  | _, _ => none

/-- The first nodes with different addresses, with those addresses. -/
def distinctNodes : ℕ → Finset SocketAddr → List NodeTuple → List NodeTuple × Finset SocketAddr
  | 0, seen, _ => ([], seen)
  | _ + 1, seen, [] => ([], seen)
  | n + 1, seen, node :: rest =>
    if node.addr ∈ seen then distinctNodes (n + 1) seen rest
    else
      let (nodes, seen) := distinctNodes n (insert node.addr seen) rest
      (node :: nodes, seen)

def openLookup (σ : PeerLookupActor) (request : PeerLookupRequest) (frontier sourceNodes : List NodeTuple)
    (now : Instant) : PeerLookupActor :=
  { σ with
    nextLookupId := max (wrappingSucc σ.nextLookupId) 1
    started := σ.started + 1
    active := σ.active.insert σ.nextLookupId
      { infoHash := request.infoHash
        peerTx := request.peerTx
        frontier
        sourceNodes
        seenNodes := ((frontier ++ sourceNodes).map NodeTuple.addr).toFinset
        peers := ∅
        queried := 0
        outstanding := 0
        deadline := lookupDeadline now σ.lookupTimeout
        maxQueries := σ.maxQueries } }

def beginLookup (σ : PeerLookupActor) (request : PeerLookupRequest) (snapshot : RoutingSnapshot)
    (now : Instant) : Except Panic PeerLookupActor := do
  let frontier ← snapshot.closestNodes request.infoHash (min σ.maxQueries maxFrontierNodes) σ.filterIpv6
  let (sourceNodes, seenSources) := distinctNodes maxSourceNodes ∅
    (request.sourceNodes.filter fun node => σ.filterIpv6.all fun ipv6 => node.addr.isIpv6 == ipv6)
  let frontier := frontier.filter fun node => decide (node.addr ∉ seenSources)
  if frontier.isEmpty ∧ sourceNodes.isEmpty then .ok σ
  else (σ.openLookup request frontier sourceNodes now).dispatchMore σ.nextLookupId

def startLookup (σ : PeerLookupActor) (request : PeerLookupRequest) (snapshot : RoutingSnapshot)
    (now : Instant) : Except Panic PeerLookupActor :=
  if σ.isClosed request.peerTx then .ok σ
  else if σ.active.len ≥ σ.maxActiveLookups then .ok σ
  else
    match σ.requestBudget.tryTakeOne now with
    | (requestBudget, false) => .ok { σ with requestBudget }
    | (requestBudget, true) => { σ with requestBudget }.beginLookup request snapshot now

/-! ### Responses and expiry -/

/-- The answer of one query is in: its lookup learns the peers and nodes of the response. -/
def learn (σ : PeerLookupActor) (lookupId : ℕ) (state : LookupState) (response : DhtResponse) :
    PeerLookupActor :=
  let (state, discovered) := { state with outstanding := state.outstanding - 1 }.learnPeers
    (responsePeers response σ.netmode)
  { σ with
    active := σ.active.insert lookupId (state.learnNodes (responseNodes response σ.netmode))
    deliveries := (discovered.map fun peer => ⟨lookupId, state.infoHash, peer⟩) ++ σ.deliveries }

def handleResponse (σ : PeerLookupActor) (key : PendingKey) (response : DhtResponse) (now : Instant) :
    Except Panic PeerLookupActor :=
  match σ.pending.get key with
  | none => .ok σ
  | some query =>
    let σ := { σ with pending := σ.pending.erase key }
    match σ.active.get query.lookupId with
    | none => .ok σ
    | some state =>
      if state.deadline ≤ now then .ok (σ.finishLookup query.lookupId)
      else (σ.learn query.lookupId state response).dispatchMore query.lookupId

/-- A query that timed out; `affected` collects the lookups that may go on. -/
def timeOut (σ : PeerLookupActor) (affected : Finset ℕ) (key : PendingKey) (query : PendingQuery) :
    PeerLookupActor × Finset ℕ :=
  let σ := { σ with pending := σ.pending.erase key }
  match σ.active.get query.lookupId with
  | none => (σ, affected)
  | some state =>
    ({ σ with
        active := σ.active.insert query.lookupId { state with outstanding := state.outstanding - 1 } },
      insert query.lookupId affected)

/-- One round of the scan: the first record is dropped, and its query ended unless it was answered before. -/
def expireStep (now : Instant) (s : PeerLookupActor × Finset ℕ) :
    ForInStep (PeerLookupActor × Finset ℕ) :=
  match s.1.pendingExpiry with
  | [] => .done s
  | (deadline, key) :: pendingExpiry =>
    if deadline > now then .done s
    else
      let σ := { s.1 with pendingExpiry }
      match (σ.pending.get key).filter fun query => query.deadline = deadline with
      | none => .yield (σ, s.2)
      | some query => .yield (σ.timeOut s.2 key query)

/-- Every round drops a record, so the fuel outlasts the loop. -/
def expireQueries (σ : PeerLookupActor) (now : Instant) : PeerLookupActor × Finset ℕ :=
  Loop.iterate (expireStep now) (σ.pendingExpiry.length + 1) (σ, ∅)

def expire (σ : PeerLookupActor) (iteration : Iteration ℕ) (now : Instant) :
    Except Panic PeerLookupActor := do
  let (σ, affected) := σ.expireQueries now
  let σ ← (iteration.order affected).foldlM dispatchMore σ
  let σ := σ.look
  let expired := (iteration.order σ.active.keys).filter fun lookupId => σ.completeAt lookupId now
  .ok (expired.foldl finishLookup σ)

/-! ### Runs -/

inductive Event where
  | request (request : PeerLookupRequest) (published : Published)
  | response (key : PendingKey) (response : DhtResponse)
  | maintenance (iteration : Iteration ℕ)

def dispatchEvent (σ : PeerLookupActor) (now : Instant) : Event → Except Panic PeerLookupActor
  | .request request published => σ.startLookup request published.snapshot now
  | .response key response => σ.handleResponse key response now
  | .maintenance iteration => σ.expire iteration now

def handle (σ : PeerLookupActor) (future : ℕ → Look) (event : Event) : Except Panic PeerLookupActor :=
  let σ := { σ with future }.look
  σ.dispatchEvent σ.clock event

/-- The states between two handlers, whatever the surroundings do. -/
inductive Reachable (options : PeerLookupOptions) : PeerLookupActor → Prop where
  | start (netmode : NetMode) (socketV4 socketV6 : Bool) (now : Instant) :
      Reachable options (new options netmode socketV4 socketV6 now)
  | step {σ σ'} (future : ℕ → Look) (event : Event) (hσ : Reachable options σ)
      (hrun : σ.handle future event = .ok σ') : Reachable options σ'

end PeerLookupActor

end PeerLookup

end DhtCrawler
