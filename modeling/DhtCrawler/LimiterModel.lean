import DhtCrawler.BudgetModel
import DhtCrawler.LibFiniteMap

/-! The response limiter of a worker in `server.rs` and how the configured rates are split among the workers. -/

namespace DhtCrawler

structure SourceResponseWindow where
  startedAt : Instant
  lastSeen : Instant
  count : ℕ

structure WorkerResponseLimiter where
  regularPackets : RateBucket
  regularBytes : RateBucket
  priorityPackets : RateBucket
  priorityBytes : RateBucket
  perSourceRate : ℕ
  sources : FiniteMap SocketAddr SourceResponseWindow
  sourceExpiry : List (Instant × SocketAddr)

inductive ResponsePermit where
  | regular
  | priorityReserve
  | rejected
  deriving DecidableEq, Repr

def reserveQuota (total : ℕ) : ℕ := if total = 0 then 0 else min (divCeil total 10) total

/-- `workers as u32` may be zero, and the division then panics. -/
def splitU32Quota (total workers worker : ℕ) : Except Panic ℕ :=
  let workers := max workers 1 % 2 ^ 32
  if workers = 0 then .error .arithmetic
  else .ok (total / workers + if worker % 2 ^ 32 < total % workers then 1 else 0)

def splitU64Quota (total workers worker : ℕ) : ℕ :=
  let workers := max workers 1
  total / workers + if worker < total % workers then 1 else 0

namespace WorkerResponseLimiter

def new (packetRate byteRate perSourceRate : ℕ) (now : Instant) : WorkerResponseLimiter :=
  let byteRate := min byteRate (2 ^ 32 - 1)
  let priorityPacketRate := reserveQuota packetRate
  let priorityByteRate := reserveQuota byteRate
  let packetRate := packetRate - priorityPacketRate
  let byteRate := byteRate - priorityByteRate
  { regularPackets := .perSecond packetRate (max (divCeil packetRate 5) 1) true now
    regularBytes := .perSecond byteRate (max (divCeil byteRate 5) 512) true now
    priorityPackets := .perSecond priorityPacketRate (max (divCeil priorityPacketRate 5) 1) true now
    priorityBytes := .perSecond priorityByteRate (max (divCeil priorityByteRate 5) 512) true now
    perSourceRate
    sources := .empty
    sourceExpiry := [] }

/-- `take_budget`; the buckets are returned with the answer. -/
def takeBudget (packets bytes : RateBucket) (encodedLen : ℕ) (now : Instant) : RateBucket × RateBucket × Bool :=
  match packets.tryTakeOne now with
  | (packets, false) => (packets, bytes, false)
  | (packets, true) =>
    match bytes.tryTakeExact encodedLen now with
    | (bytes, false) => (packets.refundOne, bytes, false)
    | (bytes, true) => (packets, bytes, true)

def refundBudget (packets bytes : RateBucket) (encodedLen : ℕ) : RateBucket × RateBucket :=
  (packets.refundOne, bytes.refund encodedLen)

def acquireSourceSlot (l : WorkerResponseLimiter) (addr : SocketAddr) (now : Instant) :
    WorkerResponseLimiter × Bool :=
  if l.perSourceRate = 0 then (l, false)
  else
    let entry := (l.sources.get addr).getD ⟨now, now, 0⟩
    let entry := if now - entry.startedAt ≥ secs 1 then { entry with startedAt := now, count := 0 } else entry
    if entry.count ≥ l.perSourceRate then ({ l with sources := l.sources.insert addr entry }, false)
    else
      let entry := { entry with count := entry.count + 1, lastSeen := now }
      ({ l with
          sources := l.sources.insert addr entry
          sourceExpiry := l.sourceExpiry ++ [(now + secs 60, addr)] }, true)

/-- The loop of `expire_sources`. -/
def expireEntries (now : Instant) :
    FiniteMap SocketAddr SourceResponseWindow → List (Instant × SocketAddr) →
      FiniteMap SocketAddr SourceResponseWindow × List (Instant × SocketAddr)
  | sources, [] => (sources, [])
  | sources, (deadline, addr) :: rest =>
    if deadline > now then (sources, (deadline, addr) :: rest)
    else
      match sources.get addr with
      | some entry =>
        if now - entry.lastSeen ≥ secs 60 then expireEntries now (sources.erase addr) rest
        else expireEntries now sources rest
      | none => expireEntries now sources rest

def expireSources (l : WorkerResponseLimiter) (now : Instant) : WorkerResponseLimiter :=
  let (sources, sourceExpiry) := expireEntries now l.sources l.sourceExpiry
  { l with sources, sourceExpiry }

/-- The second half of `acquire`, when the regular budget is exhausted. -/
def acquireReserve (l : WorkerResponseLimiter) (addr : SocketAddr) (encodedLen : ℕ) (isPriority : Bool)
    (now : Instant) : WorkerResponseLimiter × ResponsePermit :=
  if isPriority then
    match takeBudget l.priorityPackets l.priorityBytes encodedLen now with
    | (priorityPackets, priorityBytes, false) => ({ l with priorityPackets, priorityBytes }, .rejected)
    | (priorityPackets, priorityBytes, true) =>
      match acquireSourceSlot { l with priorityPackets, priorityBytes } addr now with
      | (l, true) => (l, .priorityReserve)
      | (l, false) =>
        let (priorityPackets, priorityBytes) := refundBudget l.priorityPackets l.priorityBytes encodedLen
        ({ l with priorityPackets, priorityBytes }, .rejected)
  else (l, .rejected)

def acquire (l : WorkerResponseLimiter) (addr : SocketAddr) (encodedLen : ℕ) (isPriority : Bool)
    (now : Instant) : WorkerResponseLimiter × ResponsePermit :=
  let l := l.expireSources now
  match takeBudget l.regularPackets l.regularBytes encodedLen now with
  | (regularPackets, regularBytes, false) =>
    acquireReserve { l with regularPackets, regularBytes } addr encodedLen isPriority now
  | (regularPackets, regularBytes, true) =>
    match acquireSourceSlot { l with regularPackets, regularBytes } addr now with
    | (l, true) => (l, .regular)
    | (l, false) =>
      let (regularPackets, regularBytes) := refundBudget l.regularPackets l.regularBytes encodedLen
      ({ l with regularPackets, regularBytes }, .rejected)

end WorkerResponseLimiter

end DhtCrawler
