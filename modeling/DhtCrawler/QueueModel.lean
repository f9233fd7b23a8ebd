import DhtCrawler.BaseTypes
import DhtCrawler.LibIndex
import DhtCrawler.LibOutcome

/-! The pending hash queue of `scheduler.rs`: one entry per info hash and five ordered indexes that share the
insertion sequence number. -/

namespace DhtCrawler

def maxMetadataCandidatesPerHash : ℕ := 64

def hashQueueTtl : Duration := secs 60

def peerCoalesceWindow : Duration := millis 25

structure PeerCandidate where
  addr : SocketAddr
  discoveredAt : Instant
  deriving DecidableEq, Repr

structure QueuedHash where
  infoHash : String
  peers : List PeerCandidate
  queuedAt : Instant
  readyAt : Instant
  latestAt : Instant
  orderKey : Instant ×ₗ ℕ
  sourceNodes : List NodeTuple
  source : HashSource
  expiresAt : Instant
  isRetry : Bool
  ready : Bool

structure RetryRecord where
  failures : ℕ
  nextDue : Instant
  expiresAt : Instant
  extraAttempts : ℕ
  deriving DecidableEq, Repr

inductive QueuePushKind where
  | inserted
  | updated
  | evictedOldest
  | evictedRetry
  | stale
  deriving DecidableEq, Repr

/-- The peers after an announcement of `addr`: newest first, one entry for each address. -/
def mergePeer (peers : List PeerCandidate) (addr : SocketAddr) (announcedAt : Instant) :
    List PeerCandidate :=
  let discoveredAt :=
    match peers.find? fun peer => peer.addr == addr with
    | some peer => max peer.discoveredAt announcedAt
    | none => announcedAt
  let kept := peers.filter fun peer => peer.addr != addr
  let newestFirst := (kept ++ [PeerCandidate.mk addr discoveredAt]).insertionSort
    fun a b : PeerCandidate => b.discoveredAt ≤ a.discoveredAt
  newestFirst.take maxMetadataCandidatesPerHash

/-- The source nodes after `node` supplied the hash: it comes first, and eight are kept. -/
def mergeSourceNode (nodes : List NodeTuple) (node : NodeTuple) : List NodeTuple :=
  (node :: nodes.filter fun old => old.addr != node.addr).take 8

/-- The merged entry, and whether the event named a peer the entry did not have. -/
def mergeCandidate (entry : QueuedHash) (event : HashDiscovered) : QueuedHash × Bool :=
  let newPeer :=
    match event.peerAddr with
    | some addr => !entry.peers.any fun peer => peer.addr == addr
    | none => false
  let peers :=
    match event.peerAddr with
    | some addr => mergePeer entry.peers addr event.discoveredAt
    | none => entry.peers
  let sourceNodes :=
    match event.sourceNode with
    | some node => mergeSourceNode entry.sourceNodes node
    | none => entry.sourceNodes
  let source := if event.source = .announce then .announce else entry.source
  ({ entry with peers, sourceNodes, source, latestAt := max entry.latestAt event.discoveredAt }, newPeer)

structure PendingHashQueue where
  capacity : ℕ
  ttl : Duration
  entries : FiniteMap String QueuedHash
  expiry : FiniteMap (Instant ×ₗ ℕ) String
  waiting : FiniteMap (Instant ×ₗ ℕ) String
  readyFresh : FiniteMap (Instant ×ₗ ℕ) String
  readyRetry : FiniteMap (Instant ×ₗ ℕ) String
  retryExpiry : FiniteMap (Instant ×ₗ ℕ) String
  sequence : ℕ
  freshDispatches : ℕ

namespace QueuedHash

def sequence (entry : QueuedHash) : ℕ := (ofLex entry.orderKey).2

/-- The key of an entry in `expiry` and, for a retry, in `retryExpiry`. -/
def expiryKey (entry : QueuedHash) : Instant ×ₗ ℕ := toLex (entry.expiresAt, entry.sequence)

/-- The key of an entry in `waiting` and, for a due retry, in `readyRetry`. -/
def readyKey (entry : QueuedHash) : Instant ×ₗ ℕ := toLex (entry.readyAt, entry.sequence)

end QueuedHash

namespace PendingHashQueue

def new (capacity : ℕ) (ttl : Duration) : PendingHashQueue where
  capacity := max capacity 1
  ttl := ttl
  entries := .empty
  expiry := .empty
  waiting := .empty
  readyFresh := .empty
  readyRetry := .empty
  retryExpiry := .empty
  sequence := 0
  freshDispatches := 0

def len (q : PendingHashQueue) : ℕ := q.entries.len

def isEmpty (q : PendingHashQueue) : Bool := q.entries.len == 0

def pressureLen (q : PendingHashQueue) : ℕ :=
  q.entries.len - q.retryExpiry.len + q.readyRetry.len

/-- The largest number of retries `defer` admits. -/
def retryQuota (q : PendingHashQueue) : ℕ := max (q.capacity / 4) 1

def insert (q : PendingHashQueue) (entry : QueuedHash) : PendingHashQueue :=
  let sequence := wrappingSucc q.sequence
  let entry := { entry with orderKey := toLex (entry.latestAt, sequence) }
  { q with
    sequence
    expiry := q.expiry.insert entry.expiryKey entry.infoHash
    retryExpiry :=
      if entry.isRetry then q.retryExpiry.insert entry.expiryKey entry.infoHash else q.retryExpiry
    readyRetry :=
      if entry.ready && entry.isRetry then q.readyRetry.insert entry.readyKey entry.infoHash
      else q.readyRetry
    readyFresh :=
      if entry.ready && !entry.isRetry then q.readyFresh.insert entry.orderKey entry.infoHash
      else q.readyFresh
    waiting := if entry.ready then q.waiting else q.waiting.insert entry.readyKey entry.infoHash
    entries := q.entries.insert entry.infoHash entry }

def remove (q : PendingHashQueue) (hash : String) : PendingHashQueue × Option QueuedHash :=
  match q.entries.get hash with
  | none => (q, none)
  | some entry =>
    ({ q with
        entries := q.entries.erase hash
        expiry := q.expiry.erase entry.expiryKey
        retryExpiry := q.retryExpiry.erase entry.expiryKey
        waiting := q.waiting.erase entry.readyKey
        readyFresh := q.readyFresh.erase entry.orderKey
        readyRetry := q.readyRetry.erase entry.readyKey },
      some entry)

/-- The entry `push` creates for a hash that is not queued. -/
def freshEntry (q : PendingHashQueue) (event : HashDiscovered) (now : Instant) : QueuedHash :=
  let entry : QueuedHash :=
    { infoHash := event.infoHash
      peers := []
      sourceNodes := []
      source := event.source
      queuedAt := now
      readyAt := now + peerCoalesceWindow
      latestAt := event.discoveredAt
      orderKey := toLex (now, 0)
      expiresAt := event.discoveredAt + q.ttl
      isRetry := false
      ready := false }
  (mergeCandidate entry event).1

/-- The queued entry after another event for its hash: a retry keeps its lifetime. -/
def updatedEntry (q : PendingHashQueue) (entry : QueuedHash) (event : HashDiscovered) : QueuedHash :=
  let entry := (mergeCandidate entry event).1
  if entry.isRetry then entry else { entry with expiresAt := entry.latestAt + q.ttl }

def push (q : PendingHashQueue) (event : HashDiscovered) (now : Instant) :
    Except Panic (PendingHashQueue × QueuePushKind) :=
  if now - event.discoveredAt > q.ttl then .ok (q, .stale)
  else
    match q.remove event.infoHash with
    | (q', some entry) => .ok (q'.insert (q.updatedEntry entry event), .updated)
    | (_, none) =>
      if q.entries.len < q.capacity then .ok (q.insert (q.freshEntry event now), .inserted)
      else
        match q.retryExpiry.first.or q.expiry.first with
        | none => .ok (q, .stale)
        | some (_, oldestHash) => do
            let oldest ← unwrap (q.entries.get oldestHash)
            if !oldest.isRetry && event.discoveredAt ≤ oldest.latestAt then .ok (q, .stale)
            else
              let kind := if oldest.isRetry then .evictedRetry else .evictedOldest
              .ok ((q.remove oldestHash).1.insert (q.freshEntry event now), kind)

def deferredEntry (entry : QueuedHash) (record : RetryRecord) : QueuedHash :=
  { entry with
    readyAt := record.nextDue
    expiresAt := record.expiresAt
    isRetry := true
    ready := false }

def defer (q : PendingHashQueue) (entry : QueuedHash) (record : RetryRecord) :
    PendingHashQueue × Bool :=
  let q := (q.remove entry.infoHash).1
  if q.entries.len ≥ q.capacity || q.retryExpiry.len ≥ q.retryQuota then (q, false)
  else (q.insert (deferredEntry entry record), true)

def promoteStep (now : Instant) (q : PendingHashQueue) :
    Except Panic (ForInStep PendingHashQueue) :=
  match q.waiting.first with
  | none => .ok (.done q)
  | some (key, hash) =>
    if (ofLex key).1 > now then .ok (.done q)
    else do
      let q := { q with waiting := q.waiting.erase key }
      let entry ← unwrap (q.entries.get hash)
      let q := { q with entries := q.entries.insert hash { entry with ready := true } }
      if entry.isRetry then .ok (.yield { q with readyRetry := q.readyRetry.insert key hash })
      else .ok (.yield { q with readyFresh := q.readyFresh.insert entry.orderKey hash })

/-- Every round removes a key of `waiting`, so the fuel outlasts the loop. -/
def promoteReady (q : PendingHashQueue) (now : Instant) : Except Panic PendingHashQueue :=
  Loop.run (promoteStep now) (q.waiting.len + 1) q

/-- One round of `expire`, with the number of entries dropped so far. -/
def expireStep (now : Instant) (s : PendingHashQueue × ℕ) : ForInStep (PendingHashQueue × ℕ) :=
  match s.1.expiry.first with
  | none => .done s
  | some (key, hash) =>
    if (ofLex key).1 ≥ now then .done s else .yield ((s.1.remove hash).1, s.2 + 1)

/-- The queue without the entries that expired before `now`, and how many there were. -/
def expire (q : PendingHashQueue) (now : Instant) : PendingHashQueue × ℕ :=
  Loop.iterate (expireStep now) (q.expiry.len + 1) (q, 0)

/-- The choice of `pop_newest_ready` once the due entries are promoted: at most three fresh jobs before one due
retry. -/
def popChoice (q : PendingHashQueue) : PendingHashQueue × Option QueuedHash :=
  if q.readyRetry.len ≠ 0 ∧ (q.freshDispatches ≥ 3 ∨ q.readyFresh.len = 0) then
    let q := { q with freshDispatches := 0 }
    match q.readyRetry.first with
    | none => (q, none)
    | some (_, hash) => q.remove hash
  else
    let q := { q with freshDispatches := min (q.freshDispatches + 1) 255 }
    match q.readyFresh.last with
    | none => (q, none)
    | some (_, hash) => q.remove hash

def popNewestReady (q : PendingHashQueue) (now : Instant) :
    Except Panic (PendingHashQueue × Option QueuedHash) := do
  let q ← (q.expire now).1.promoteReady now
  .ok q.popChoice

end PendingHashQueue

end DhtCrawler
