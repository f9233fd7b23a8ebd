import DhtCrawler.BaseTypes
import DhtCrawler.LibFiniteMap

/-! The cache of failed peers of `metadata.rs`. -/

namespace DhtCrawler

inductive PeerFailureReason where
  | timeout
  | connectFailed
  | metadataFailed
  deriving DecidableEq, Repr

structure PeerFailureEntry where
  expiresAt : Instant
  reason : PeerFailureReason
  deriving DecidableEq

/-- A peer can serve other torrents even when one handshake or download fails. -/
inductive PeerFailureKey where
  | endpoint (addr : SocketAddr)
  | metadata (infoHash : NodeId) (addr : SocketAddr)
  deriving DecidableEq

structure PeerFailureCacheInner where
  entries : FiniteMap PeerFailureKey PeerFailureEntry
  expiry : List (Instant × PeerFailureKey)

structure PeerFailureCache where
  inner : PeerFailureCacheInner
  capacity : ℕ
  ttl : Duration

namespace PeerFailureCache

def new (capacity : ℕ) (ttl : Duration) : PeerFailureCache := ⟨⟨.empty, []⟩, capacity, ttl⟩

/-- Whether the record at the front of the queue is the one of the current entry. -/
def isCurrent (entries : FiniteMap PeerFailureKey PeerFailureEntry) (record : Instant × PeerFailureKey) :
    Bool :=
  (entries.get record.2).any fun entry => entry.expiresAt = record.1

/-- `expire`, over the records left in the queue. -/
def expireFrom (now : Instant) (entries : FiniteMap PeerFailureKey PeerFailureEntry) :
    List (Instant × PeerFailureKey) → PeerFailureCacheInner
  | [] => ⟨entries, []⟩
  | record :: rest =>
    if record.1 > now then ⟨entries, record :: rest⟩
    else if isCurrent entries record then expireFrom now (entries.erase record.2) rest
    else expireFrom now entries rest

def expire (inner : PeerFailureCacheInner) (now : Instant) : PeerFailureCacheInner :=
  expireFrom now inner.entries inner.expiry

/-- The loop of `insert` that drops the oldest entries, with the keys it drops. -/
def makeRoom (capacity : ℕ) (key : PeerFailureKey)
    (entries : FiniteMap PeerFailureKey PeerFailureEntry) :
    List (Instant × PeerFailureKey) → PeerFailureCacheInner × List PeerFailureKey
  | [] => (⟨entries, []⟩, [])
  | record :: rest =>
    if entries.len ≥ capacity ∧ entries.contains key = false then
      if isCurrent entries record then
        let (inner, evicted) := makeRoom capacity key (entries.erase record.2) rest
        (inner, record.2 :: evicted)
      else makeRoom capacity key entries rest
    else (⟨entries, record :: rest⟩, [])

/-- What `insert` finds room in, and the keys that had to go for it. -/
def room (cache : PeerFailureCache) (key : PeerFailureKey) (now : Instant) :
    PeerFailureCacheInner × List PeerFailureKey :=
  let inner := expire cache.inner now
  makeRoom cache.capacity key inner.entries inner.expiry

def off (cache : PeerFailureCache) : Bool := cache.capacity = 0 || cache.ttl = 0

def get (cache : PeerFailureCache) (key : PeerFailureKey) (now : Instant) :
    PeerFailureCache × Option PeerFailureReason × ℕ :=
  if cache.off then (cache, none, 0)
  else
    let inner := expire cache.inner now
    ({ cache with inner }, (inner.entries.get key).map PeerFailureEntry.reason, inner.entries.len)

def insert (cache : PeerFailureCache) (key : PeerFailureKey) (reason : PeerFailureReason) (now : Instant) :
    PeerFailureCache × ℕ :=
  if cache.off then (cache, 0)
  else
    let (inner, _) := cache.room key now
    let expiresAt := now + cache.ttl
    let entries := inner.entries.insert key ⟨expiresAt, reason⟩
    ({ cache with inner := ⟨entries, inner.expiry ++ [(expiresAt, key)]⟩ }, entries.len)

def remove (cache : PeerFailureCache) (key : PeerFailureKey) (now : Instant) : PeerFailureCache × ℕ :=
  if cache.off then (cache, 0)
  else
    let inner := expire cache.inner now
    let entries := inner.entries.erase key
    ({ cache with inner := { inner with entries } }, entries.len)

end PeerFailureCache

end DhtCrawler
